import Dendri.Properties.RoomView

/-!
The handlers on two states that are alike for the members of the rooms named
`n`.

* `Harmless`, `alike_wsText_own`, `alike_sendHandler_own`: a message of `c` that
  does not touch such a room and removes no client does not show in it;
* `Alike.wsText`, `Alike.sendHandler`: a message of another client shows alike,
  if a join gets the same answer in both states;
* `outcomeAlike_connect`: a connect ends alike;
* `Alike.evictBroken`, `Alike.expiredSessions`, `alike_messagesExpire`: the
  background passes.
-/

namespace Dendri

open AppState

section Messages

variable {c n id : String} {p q : ℕ → List Frame} {s t : AppState} {msg : Message}

/-! ### The queues in Redis do not show -/

lemma alike_redisAddMessageToQueue (env : Env) (s : AppState) (id : String) (entry : QueueEntry) :
    Alike c n p p s (s.redisAddMessageToQueue env id entry) := by
  refine Alike.of_visible ?_
  simp only [AppState.visible, redisAddMessageToQueue]
  split_ifs <;> rfl

lemma alike_redisClearMessageQueue (env : Env) (s : AppState) (id : String) :
    Alike c n p p s (s.redisClearMessageQueue env id) := by
  refine Alike.of_visible ?_
  simp only [AppState.visible, redisClearMessageQueue]
  split_ifs <;> rfl

lemma alike_redisTouchQueue (env : Env) (s : AppState) (id : String) :
    Alike c n p p s (s.redisTouchQueue env id) := by
  refine Alike.of_visible ?_
  simp only [AppState.visible, redisTouchQueue]
  split_ifs <;> rfl

/-! ### Messages that do not reach the room -/

lemma alike_recorded_own (env : Env) (s : AppState) (type_ : MessageType) :
    Alike c n p p s (recorded env s c type_) := by
  rw [recorded]
  split_ifs
  · exact alike_modify_own s fun _ => rfl
  · exact Alike.refl c n p s

/-- A message between peers that removes no client. -/
lemma alike_handleTransmission (env : Env) (htype : msg.type_.isTransmission = true)
    (hremoved : removedBy s msg = none) : Alike c n p p s (handleTransmission env s msg) := by
  rw [removedBy] at hremoved
  rw [handleTransmission]
  by_cases hdst : msg.dst.getD "" ≠ ""
  · rw [if_pos hdst] at hremoved ⊢
    cases hi : s.wsSenders.lookup (msg.dst.getD "") with
    | none =>
        dsimp only
        split_ifs
        · exact Alike.refl c n p s
        · exact alike_redisAddMessageToQueue env s _ _
    | some i =>
        rw [hi] at hremoved
        dsimp only at hremoved ⊢
        split_ifs at hremoved ⊢
        refine alike_send s i fun f hf => ?_
        rw [List.mem_singleton.mp hf]
        exact scoped_of_isTransmission htype
  · rw [if_neg hdst] at hremoved ⊢
    split_ifs at hremoved ⊢
    exact Alike.refl c n p s

/-- The room of a message is not `n`. -/
lemma not_names_of_ne {room : String} (hn : isValidIdentifier n = true)
    (hroom : isValidIdentifier room = true) (hne : room ≠ n) (s : AppState) (id : String) :
    ¬Names n room ∧ ¬Names n (roomKey s id room) :=
  ⟨fun h => hne ((names_of_valid hn hroom).mp h),
    fun h => hne ((names_namespaceRoom hn hroom).mp h)⟩

/-- Data that is not relayed to a room named `n`. -/
lemma alike_handleData (env : Env) {cfg : Config} (hn : isValidIdentifier n = true)
    (hroom : cfg.enableRelay = true → msg.room ≠ some n) (s : AppState) (id : String) :
    Alike c n p p s (handleData env cfg s id msg) := by
  have hcounter : Alike c n p p s { s with seqCounter := s.seqCounter + 1 } :=
    Alike.of_visible rfl
  refine handleData_induction (P := Alike c n p p s) ?_ ?_ ?_ ?_ ?_
  · refine alike_sendTo s id fun f hf => ?_
    rw [List.mem_singleton.mp hf]
    rfl
  · exact Alike.refl c n p s
  · intro room hrelays hmsg
    have hv : isValidIdentifier room = true := by
      have hvalid := hrelays.room
      rwa [hmsg] at hvalid
    have hne : room ≠ n := fun h => hroom hrelays.enabled (hmsg.trans (congrArg some h))
    refine (hcounter.trans (alike_fanOut _ _ ?_)).trans (Alike.of_visible rfl)
    refine scoped_of_room fun room' hroom' => ?_
    obtain rfl := Option.some.inj (hmsg.symm.trans hroom')
    exact (not_names_of_ne hn hv hne s id).1
  · intro dst _ hmsg _
    refine (hcounter.trans (alike_sendTo _ dst fun f hf => ?_)).trans (Alike.of_visible rfl)
    rw [List.mem_singleton.mp hf]
    exact scoped_of_room fun room' hroom' => absurd (hmsg.symm.trans hroom') (by simp)
  · exact hcounter

/-- Presence data of a room that is not named `n`. -/
lemma alike_handlePresenceUpdate (hn : isValidIdentifier n = true) (hroom : msg.room ≠ some n)
    (s : AppState) (id : String) : Alike c n p p s (handlePresenceUpdate s id msg) := by
  rw [handlePresenceUpdate.eq_def]
  cases hmsg : msg.room with
  | none => exact Alike.refl c n p s
  | some room =>
      dsimp only
      split_ifs with hvalid
      · exact Alike.refl c n p s
      · have hne : room ≠ n := fun h => hroom (hmsg.trans (congrArg some h))
        obtain ⟨hscoped, hkey⟩ := not_names_of_ne hn (by simpa using hvalid) hne s id
        refine Alike.trans ?_ (alike_fanOut _ _ (scoped_of_room fun room' hroom' => ?_))
        · refine { Alike.refl c n p s with presence := fun k hk => ?_ }
          cases msg.payload with
          | none => rfl
          | some payload =>
              have hk' : k ≠ roomKey s id room := fun heq => hkey (heq ▸ hk)
              dsimp only
              rw [FinMap.lookup_insert_ite, if_neg hk']
        · rw [← Option.some.inj (hmsg.symm.trans hroom')]
          exact hscoped

/-- A refused join gets a frame that is of no room. -/
lemma scoped_denial (room : String) (denial : JoinDenial) :
    ∀ f ∈ [denial.frame room], f.scoped n = none := by
  intro f hf
  rw [List.mem_singleton.mp hf]
  cases denial <;> rfl

lemma valid_of_joinDenial {cfg : Config} {room : String} (h : joinDenial cfg s id room = none) :
    isValidIdentifier room = true := by
  rw [joinDenial] at h
  split_ifs at h with hvalid
  all_goals simpa using hvalid

/-- The frames for a client that joins a room not named `n`. -/
lemma scoped_joinFrames (env : Env) (s : AppState) (key : String) {room : String}
    (h : ¬Names n room) : ∀ f ∈ joinFrames env s key room, f.scoped n = none := by
  intro f hf
  rcases List.mem_cons.mp hf with rfl | hf
  · exact scoped_roomPeers _ h
  · obtain ⟨peer, -, rfl⟩ := List.mem_map.mp hf
    exact scoped_presence _ _ h

/-- `c` joins no room named `n`, and its joins elsewhere do not show. -/
lemma alike_handleRoomJoin_own (env : Env) (cfg : Config) (hn : isValidIdentifier n = true)
    (hrefuse : claimsRefuse s c n = true) : Alike c n p p s (handleRoomJoin env cfg s c msg) := by
  rw [handleRoomJoin.eq_def]
  cases msg.room with
  | none => exact Alike.refl c n p s
  | some room =>
      dsimp only
      cases hdenial : joinDenial cfg s c room with
      | some denial => exact alike_sendTo s c (scoped_denial room denial)
      | none =>
          have hne : room ≠ n := by
            rintro rfl
            simp [joinDenial, hn, hrefuse] at hdenial
          obtain ⟨hscoped, hkey⟩ := not_names_of_ne hn (valid_of_joinDenial hdenial) hne s c
          exact (alike_joinRoom_own s hkey).trans
            (alike_sendTo _ c (scoped_joinFrames env _ _ hscoped))

lemma alike_handleRoomLeave_own (hn : isValidIdentifier n = true) (hroom : msg.room ≠ some n) :
    Alike c n p p s (handleRoomLeave s c msg) := by
  obtain hs | ⟨room, hmsg, hvalid, hs⟩ := handleRoomLeave_cases s c msg
  · rw [hs]
    exact Alike.refl c n p s
  · have hne : room ≠ n := fun h => hroom (hmsg.trans (congrArg some h))
    rw [hs]
    exact alike_removeClientFromRoom_own s (not_names_of_ne hn hvalid hne s c).2

/-- The message acts on a room of the name `n` without a look at the claims of
its sender. -/
def Message.touches (cfg : Config) (n : String) (msg : Message) : Bool :=
  match msg.type_ with
  | .DATA => cfg.enableRelay && decide (msg.room = some n)
  | .PresenceUpdate | .RoomLeave => decide (msg.room = some n)
  | _ => false

/-- A message of `c` that does not touch a room named `n` and removes no client
does not show in it. -/
lemma alike_handleMessage_own (env : Env) (cfg : Config) (hn : isValidIdentifier n = true)
    (hrefuse : claimsRefuse s c n = true) (htouch : msg.touches cfg n = false)
    (hremoves : removes s c msg = none) : Alike c n p p s (handleMessage env cfg s c msg) := by
  have hrec := alike_recorded_own (c := c) (n := n) (p := p) env s msg.type_
  refine handleMessage_induction (P := Alike c n p p s) (fun _ => ?_) (fun htype => ?_)
    (fun htype => ?_) (fun _ => ?_) (fun htype => ?_) (fun htype => ?_) fun _ _ => hrec
  · exact alike_modify_own s fun _ => rfl
  · have hremoved : removedBy (recorded env s c msg.type_) { msg with src := some c } = none := by
      rw [removes, if_pos htype] at hremoves
      rw [← hremoves, recorded]
      split_ifs <;> rfl
    exact hrec.trans (alike_handleTransmission env htype hremoved)
  · refine hrec.trans (alike_handleData env hn (fun hrelay hroom => ?_) _ c)
    simp [Message.touches, htype, hrelay, show msg.room = some n from hroom] at htouch
  · refine hrec.trans (alike_handleRoomJoin_own env cfg hn ?_)
    rw [recorded]
    split_ifs
    · exact hrefuse
    · exact hrefuse
  · refine hrec.trans (alike_handleRoomLeave_own hn fun hroom => ?_)
    simp [Message.touches, htype, show msg.room = some n from hroom] at htouch
  · refine hrec.trans (alike_handlePresenceUpdate hn (fun hroom => ?_) _ c)
    simp [Message.touches, htype, show msg.room = some n from hroom] at htouch

/-- The bucket that a message is charged to does not show. -/
lemma visible_meter (env : Env) (s : AppState) (id : String) (type_ : MessageType) :
    (meter env s id type_).1.visible = s.visible := by
  rw [meter]
  cases type_.bucket with
  | none => rfl
  | some bucket => rfl

/-- The message, if the rate limiter lets it pass, does not reach a room named
`n` and removes no client. -/
def Harmless (env : Env) (cfg : Config) (s : AppState) (c n : String) (msg : Message) : Prop :=
  allowed env c msg.type_ = true → msg.touches cfg n = false ∧ removes s c msg = none

lemma alike_receive_own (env : Env) (cfg : Config) (hn : isValidIdentifier n = true)
    (hrefuse : claimsRefuse s c n = true) (hmsg : Harmless env cfg s c n msg) :
    Alike c n p p s (receive env cfg s c msg).1 := by
  have hmeter : Alike c n p p s (meter env s c msg.type_).1 :=
    Alike.of_visible (visible_meter env s c msg.type_)
  rw [receive]
  dsimp only
  rw [(meter_eq env s c msg.type_).1]
  split_ifs with hallowed
  · obtain ⟨htouch, hremoves⟩ := hmsg hallowed
    refine hmeter.trans (alike_handleMessage_own env cfg hn ?_ htouch ?_)
    · rw [meter]
      cases msg.type_.bucket with
      | none => exact hrefuse
      | some bucket => exact hrefuse
    · rw [meter]
      cases msg.type_.bucket with
      | none => exact hremoves
      | some bucket => exact hremoves
  · exact hmeter

lemma scoped_error (text : String) : ∀ f ∈ [Frame.error text], f.scoped n = none := by
  intro f hf
  rw [List.mem_singleton.mp hf]
  rfl

lemma alike_wsText_own (env : Env) (cfg : Config) (i len : ℕ) (parsed : Option Message)
    (hn : isValidIdentifier n = true) (hrefuse : claimsRefuse s c n = true)
    (hmsg : ∀ msg, ¬cfg.maxMessageSize < len → parsed = some msg → Harmless env cfg s c n msg) :
    Alike c n p p s (wsText env cfg s i c len parsed) := by
  rw [wsText.eq_def]
  split_ifs with hlen
  · exact alike_send s i (scoped_error _)
  · cases parsed with
    | none => exact Alike.refl c n p s
    | some msg =>
        have hreceive := alike_receive_own (p := p) env cfg hn hrefuse (hmsg msg hlen rfl)
        dsimp only
        split_ifs
        · exact hreceive
        · exact hreceive.trans (alike_send _ i (scoped_error _))

lemma alike_sendHandler_own (env : Env) (cfg : Config) (token : String) (parsed : Option Message)
    (hn : isValidIdentifier n = true) (hrefuse : claimsRefuse s c n = true)
    (hmsg : ∀ client msg, s.clients.lookup c = some client → client.token = token →
      parsed = some msg → Harmless env cfg s c n msg) :
    Alike c n p p s (sendHandler env cfg s c token parsed).1 := by
  rw [sendHandler.eq_def]
  cases hclient : s.clients.lookup c with
  | none => exact Alike.refl c n p s
  | some client =>
      dsimp only
      split_ifs with htoken
      · have htouch : Alike c n p p s (s.touch env.now c) := alike_modify_own s fun _ => rfl
        cases parsed with
        | none => exact htouch
        | some msg =>
            have hharmless : Harmless env cfg (s.touch env.now c) c n msg :=
              hmsg client msg hclient htoken rfl
            exact htouch.trans (alike_receive_own env cfg hn hrefuse hharmless)
      · exact Alike.refl c n p s

/-! ### Messages of the others, on both sides -/

lemma Alike.roomKey (h : Alike c n p q s t) (id room : String) :
    roomKey s id room = roomKey t id room := by
  rw [Dendri.roomKey, Dendri.roomKey, h.tenants]

lemma Alike.recorded (h : Alike c n p q s t) (env : Env) (id : String) (type_ : MessageType) :
    Alike c n p q (recorded env s id type_) (recorded env t id type_) := by
  rw [Dendri.recorded, Dendri.recorded]
  split_ifs
  · exact h.modify id fun _ => rfl
  · exact h

lemma Alike.handleTransmission (h : Alike c n p q s t) (env : Env) (msg : Message) :
    Alike c n p q (handleTransmission env s msg) (handleTransmission env t msg) := by
  rw [Dendri.handleTransmission, Dendri.handleTransmission, h.senders]
  by_cases hdst : msg.dst.getD "" ≠ ""
  · rw [if_pos hdst, if_pos hdst]
    cases t.wsSenders.lookup (msg.dst.getD "") with
    | none =>
        dsimp only
        split_ifs
        · exact h
        · exact h.square (alike_redisAddMessageToQueue env s _ _)
            (alike_redisAddMessageToQueue env t _ _)
    | some i =>
        dsimp only
        rw [h.closed i]
        split_ifs
        · exact ((h.dropClient _).redisRemoveClient env _).sendTo _ rfl
        · exact h.send i rfl
  · rw [if_neg hdst, if_neg hdst]
    split_ifs
    · exact (h.dropClient _).redisRemoveClient env _
    · exact h

/-- A frame for the members of a room named `n` goes to the same members. -/
lemma Alike.roomFanOut (h : Alike c n p q s t) (id : String) {key : String} (hkey : Names n key)
    {frame frame' : Frame} (hview : frame.scoped n = frame'.scoped n) :
    Alike c n p q (roomFanOut s id key frame) (roomFanOut t id key frame') := by
  rw [Dendri.roomFanOut, Dendri.roomFanOut, h.rooms.named key hkey]
  exact h.fanOut _ hview

lemma Alike.handleData (h : Alike c n p q s t) (env : Env) (cfg : Config)
    (hn : isValidIdentifier n = true) (id : String) (htype : msg.type_ = .DATA) :
    Alike c n p q (handleData env cfg s id msg) (handleData env cfg t id msg) := by
  by_cases hroom : msg.room = some n
  · rw [Dendri.handleData, Dendri.handleData]
    split_ifs
    · exact h.sendTo id rfl
    · exact h
    · have hcounter : Alike c n p q { s with seqCounter := s.seqCounter + 1 }
          { t with seqCounter := t.seqCounter + 1 } :=
        h.square (Alike.of_visible rfl) (Alike.of_visible rfl)
      have hkey : Dendri.roomKey s id n = Dendri.roomKey t id n := h.roomKey id n
      have hscoped := fun seq => scoped_stamp n htype seq (some (env.now : ℤ))
      have hnames : Names n (Dendri.roomKey t id n) := ⟨_, rfl⟩
      have hfan := hcounter.roomFanOut id hnames
        ((hscoped (some (s.seqCounter + 1))).trans (hscoped (some (t.seqCounter + 1))).symm)
      dsimp only
      rw [hroom] at hfan ⊢
      dsimp only
      have hkey' : Dendri.roomKey { s with seqCounter := s.seqCounter + 1 } id n =
          Dendri.roomKey t id n := hkey
      rw [hkey']
      exact hfan.square (Alike.of_visible rfl) (Alike.of_visible rfl)
  · exact h.square (alike_handleData env hn (fun _ => hroom) s id)
      (alike_handleData env hn (fun _ => hroom) t id)

lemma Alike.handlePresenceUpdate (h : Alike c n p q s t) (hn : isValidIdentifier n = true)
    (id : String) (msg : Message) :
    Alike c n p q (handlePresenceUpdate s id msg) (handlePresenceUpdate t id msg) := by
  by_cases hroom : msg.room = some n
  · rw [Dendri.handlePresenceUpdate, Dendri.handlePresenceUpdate, hroom]
    dsimp only
    split_ifs
    · exact h
    · have hkey : Names n (Dendri.roomKey t id n) := ⟨_, rfl⟩
      rw [h.roomKey id n]
      refine Alike.roomFanOut ?_ id hkey rfl
      refine { h with presence := fun k hk => ?_ }
      cases msg.payload with
      | none => exact h.presence k hk
      | some payload =>
          dsimp only
          rw [h.presence _ hkey]
          exact lookup_insert_congr h.presence _ _ k hk
  · exact h.square (alike_handlePresenceUpdate hn hroom s id)
      (alike_handlePresenceUpdate hn hroom t id)

/-- A join of another client that gets the same answer on both sides. -/
lemma Alike.handleRoomJoin (h : Alike c n p q s t) (env : Env) (cfg : Config)
    (hn : isValidIdentifier n = true) (hid : id ≠ c)
    (hdenial : ∀ room, msg.room = some room →
      joinDenial cfg s id room = joinDenial cfg t id room) :
    Alike c n p q (handleRoomJoin env cfg s id msg) (handleRoomJoin env cfg t id msg) := by
  rw [Dendri.handleRoomJoin, Dendri.handleRoomJoin]
  cases hmsg : msg.room with
  | none => exact h
  | some room =>
      dsimp only
      rw [hdenial room hmsg, h.roomKey id room]
      cases hnone : joinDenial cfg t id room with
      | some denial => exact h.sendTo id rfl
      | none =>
          have hjoin := h.joinRoom hid (Dendri.roomKey t id room)
          refine hjoin.sendTo id ?_
          by_cases hroom : room = n
          · have hkey : Names n (Dendri.roomKey t id room) := ⟨_, by rw [hroom]; rfl⟩
            rw [joinFrames, joinFrames, hjoin.rooms.named _ hkey, hjoin.presence _ hkey]
          · have hscoped := (not_names_of_ne hn (valid_of_joinDenial hnone) hroom t id).1
            rw [roomView_eq_nil (scoped_joinFrames env _ _ hscoped),
              roomView_eq_nil (scoped_joinFrames env _ _ hscoped)]

lemma Alike.handleRoomLeave (h : Alike c n p q s t) (hs : s.ledger.Sound) (ht : t.ledger.Sound)
    (hid : id ≠ c) (msg : Message) :
    Alike c n p q (handleRoomLeave s id msg) (handleRoomLeave t id msg) := by
  rw [Dendri.handleRoomLeave, Dendri.handleRoomLeave]
  cases msg.room with
  | none => exact h
  | some room =>
      dsimp only
      split_ifs
      · exact h
      · rw [h.roomKey id room]
        exact h.removeClientFromRoom hs ht hid _

/-- The answer to a join is the same on both sides. -/
def SameDenial (cfg : Config) (s t : AppState) (id : String) (msg : Message) : Prop :=
  msg.type_ = .RoomJoin → ∀ room ∈ msg.room, joinDenial cfg s id room = joinDenial cfg t id room

/-- A message of another client. -/
lemma Alike.handleMessage (h : Alike c n p q s t) (hs : s.ledger.Sound) (ht : t.ledger.Sound)
    (env : Env) (cfg : Config) (hn : isValidIdentifier n = true) (hid : id ≠ c)
    (hdenial : SameDenial cfg s t id msg) :
    Alike c n p q (handleMessage env cfg s id msg) (handleMessage env cfg t id msg) := by
  have hrec := h.recorded env id msg.type_
  have hledger : ∀ s : AppState, s.ledger.Sound →
      (Dendri.recorded env s id msg.type_).ledger.Sound := by
    intro s hs
    rw [Dendri.recorded]
    split_ifs
    · exact hs
    · exact hs
  obtain ⟨type_, src, dst, payload, seq, room, timestamp, topicClass⟩ := msg
  cases type_ with
  | HEARTBEAT => exact h.modify id fun _ => rfl
  | OFFER | ANSWER | CANDIDATE | ACK | LEAVE | EXPIRE => exact hrec.handleTransmission env _
  | DATA => exact hrec.handleData env cfg hn id rfl
  | RoomJoin =>
      exact hrec.handleRoomJoin env cfg hn hid fun room' hroom' => hdenial rfl room' hroom'
  | RoomLeave => exact hrec.handleRoomLeave (hledger s hs) (hledger t ht) hid _
  | PresenceUpdate => exact hrec.handlePresenceUpdate hn id _
  | OPEN | IdTaken | ERROR | RoomPeers => exact hrec

lemma Alike.receive (h : Alike c n p q s t) (hs : s.ledger.Sound) (ht : t.ledger.Sound)
    (env : Env) (cfg : Config) (hn : isValidIdentifier n = true) (hid : id ≠ c)
    (hdenial : SameDenial cfg s t id msg) :
    Alike c n p q (receive env cfg s id msg).1 (receive env cfg t id msg).1 ∧
      (receive env cfg s id msg).2 = (receive env cfg t id msg).2 := by
  have hmeter : Alike c n p q (meter env s id msg.type_).1 (meter env t id msg.type_).1 :=
    h.square (Alike.of_visible (visible_meter env s id msg.type_))
      (Alike.of_visible (visible_meter env t id msg.type_))
  rw [Dendri.receive, Dendri.receive]
  dsimp only
  rw [(meter_eq env s id msg.type_).1, (meter_eq env t id msg.type_).1]
  split_ifs
  · refine ⟨?_, rfl⟩
    cases hbucket : msg.type_.bucket with
    | none =>
        rw [meter, meter, hbucket] at hmeter ⊢
        exact hmeter.handleMessage hs ht env cfg hn hid hdenial
    | some bucket =>
        rw [meter, meter, hbucket] at hmeter ⊢
        exact hmeter.handleMessage hs ht env cfg hn hid hdenial
  · exact ⟨hmeter, rfl⟩

lemma Alike.wsText (h : Alike c n p q s t) (hs : s.ledger.Sound) (ht : t.ledger.Sound)
    (env : Env) (cfg : Config) (hn : isValidIdentifier n = true) (hid : id ≠ c) (i len : ℕ)
    (parsed : Option Message)
    (hdenial : ∀ msg, ¬cfg.maxMessageSize < len → parsed = some msg → SameDenial cfg s t id msg) :
    Alike c n p q (wsText env cfg s i id len parsed) (wsText env cfg t i id len parsed) := by
  rw [wsText.eq_def, wsText.eq_def]
  split_ifs with hlen
  · exact h.send i rfl
  · cases parsed with
    | none => exact h
    | some msg =>
        obtain ⟨hreceive, hallowed⟩ := h.receive hs ht env cfg hn hid (hdenial msg hlen rfl)
        dsimp only
        rw [hallowed]
        split_ifs
        · exact hreceive
        · exact hreceive.send i rfl

lemma Alike.sendHandler (h : Alike c n p q s t) (hs : s.ledger.Sound) (ht : t.ledger.Sound)
    (env : Env) (cfg : Config) (hn : isValidIdentifier n = true) (hid : id ≠ c) (token : String)
    (parsed : Option Message)
    (hdenial : ∀ client msg, s.clients.lookup id = some client → client.token = token →
      parsed = some msg → SameDenial cfg s t id msg) :
    Alike c n p q (sendHandler env cfg s id token parsed).1
      (sendHandler env cfg t id token parsed).1 := by
  rw [Dendri.sendHandler, Dendri.sendHandler, ← h.clients id hid]
  cases hclient : s.clients.lookup id with
  | none => exact h
  | some client =>
      dsimp only
      split_ifs with htoken
      · have htouch : Alike c n p q (s.touch env.now id) (t.touch env.now id) :=
          h.modify id fun _ => rfl
        cases parsed with
        | none => exact htouch
        | some msg =>
            have hsame : SameDenial cfg (s.touch env.now id) (t.touch env.now id) id msg :=
              hdenial client msg hclient htoken rfl
            exact (htouch.receive hs ht env cfg hn hid hsame).1
      · exact h

end Messages

section Connecting

variable {c n id : String} {p q : ℕ → List Frame} {s t : AppState}

/-! ### Connecting, on both sides -/

variable (n) in
/-- The queued messages of an id are of no room named `n`. -/
def QueueOutside (s : AppState) (id : String) : Prop :=
  ∀ entry msg, s.Queued id entry → entry.parse = some msg → (Frame.relay msg).scoped n = none

variable (n) in
/-- The messages buffered for an id are of no room named `n`. -/
def BufferOutside (s : AppState) (id : String) : Prop :=
  ∀ m, s.replayBuffer.Holds id m → m.data.scoped n = none

/-- Queued messages do not show in a room named `n`. -/
lemma alike_deliverQueuedMessages (env : Env) (i : ℕ) (h : QueueOutside n s id) :
    Alike c n p p s (deliverQueuedMessages env s id i) := by
  have htouch : Alike c n p p s (s.redisTouchQueue env id) := alike_redisTouchQueue env s id
  rw [deliverQueuedMessages]
  split_ifs
  · exact htouch
  · refine (htouch.trans (alike_send _ i fun f hf => ?_)).trans
      (alike_redisClearMessageQueue env _ id)
    obtain ⟨msg, hmsg, rfl⟩ := List.mem_map.mp hf
    obtain ⟨entry, hentry, hparse⟩ := List.mem_filterMap.mp hmsg
    exact h entry msg (queued_of_mem_redisQueue hentry) hparse

lemma Alike.deliverQueuedMessages (h : Alike c n p q s t) (env : Env) (i : ℕ)
    (hs : QueueOutside n s id) (ht : QueueOutside n t id) :
    Alike c n p q (deliverQueuedMessages env s id i) (deliverQueuedMessages env t id i) :=
  h.square (alike_deliverQueuedMessages env i hs) (alike_deliverQueuedMessages env i ht)

lemma scoped_gapFrames (s : AppState) (id : String) (lastSeq : Option ℕ) :
    ∀ f ∈ gapFrames s id lastSeq, f.scoped n = none := by
  intro f hf
  rw [gapFrames.eq_def] at hf
  split at hf
  · split_ifs at hf
    · rw [List.mem_singleton.mp hf]
      rfl
    · exact absurd hf (by simp)
  · exact absurd hf (by simp)

lemma scoped_replayFrames {env : Env} {lastSeq : Option ℕ}
    (h : lastSeq.isSome = true → BufferOutside n s id) :
    ∀ f ∈ replayFrames env s id lastSeq, f.scoped n = none := by
  intro f hf
  rw [replayFrames.eq_def] at hf
  cases lastSeq with
  | none => exact absurd hf (by simp)
  | some requested =>
      obtain ⟨m, hm, rfl⟩ := ReplayBuffer.holds_of_mem_replaySince hf
      exact h rfl m hm

lemma QueueOutside.of_queue (h : QueueOutside n s id) (heq : t.redis.queue = s.redis.queue) :
    QueueOutside n t id := by
  intro entry msg hq
  rw [AppState.Queued, heq] at hq
  exact h entry msg hq

lemma BufferOutside.of_buffer (h : BufferOutside n s id) (heq : t.replayBuffer = s.replayBuffer) :
    BufferOutside n t id := by
  intro m hm
  rw [heq] at hm
  exact h m hm

lemma Alike.storeClaims (h : Alike c n p q s t) (id : String) (claims : Option Value) :
    Alike c n p q (s.storeClaims id claims) (t.storeClaims id claims) :=
  { h with claims := congrArg (FinMap.insertOpt · id claims) h.claims }

lemma Alike.insertTenant (h : Alike c n p q s t) (id : String) (tenantId : Option String) :
    Alike c n p q (s.insertTenant id tenantId) (t.insertTenant id tenantId) :=
  { h with tenants := congrArg (FinMap.insertOpt · id tenantId) h.tenants }

lemma Alike.setSender (h : Alike c n p q s t) (id : String) (i : ℕ) :
    Alike c n p q (s.setSender id i) (t.setSender id i) :=
  { h with senders := congrArg (fun m => m.insert id i) h.senders }

/-- Frames of no room named `n` are sent on both sides. -/
lemma Alike.sendOutside (h : Alike c n p q s t) (i : ℕ) {frames frames' : List Frame}
    (hs : ∀ f ∈ frames, f.scoped n = none) (ht : ∀ f ∈ frames', f.scoped n = none) :
    Alike c n p q (s.send i frames) (t.send i frames') :=
  h.send i ((roomView_eq_nil hs).trans (roomView_eq_nil ht).symm)

lemma scoped_openFrames {frames : List Frame} (h : ∀ f ∈ frames, f.scoped n = none) :
    ∀ f ∈ openFrame :: frames, f.scoped n = none := by
  intro f hf
  rcases List.mem_cons.mp hf with rfl | hf
  · exact scoped_of_room fun room hroom => absurd hroom (by simp)
  · exact h f hf

lemma scoped_open : ∀ f ∈ [openFrame], f.scoped n = none := scoped_openFrames (by simp)

/-- The frames for restored rooms show alike. -/
lemma Alike.restoredFrames (h : Alike c n p q s t) (rooms : List String) :
    roomView n (restoredFrames s rooms) = roomView n (restoredFrames t rooms) := by
  rw [Dendri.restoredFrames, Dendri.restoredFrames, roomView, roomView, List.filterMap_filterMap,
    List.filterMap_filterMap]
  refine List.filterMap_congr fun key _ => ?_
  by_cases hkey : Names n key
  · rw [h.rooms.named key hkey]
  · have hnone : ∀ o : Option (Finset String),
        (o.map fun members => Frame.roomPeers (roomDisplay key) members).bind (Frame.scoped n) =
          none := by
      intro o
      cases o with
      | none => rfl
      | some members => exact scoped_roomPeers members fun hname => hkey hname.of_roomDisplay
    rw [hnone, hnone]

lemma scoped_restoredFrames {rooms : List String} (h : ∀ key ∈ rooms, ¬Names n key)
    (s : AppState) : ∀ f ∈ restoredFrames s rooms, f.scoped n = none := by
  intro f hf
  obtain ⟨key, hkey, hmap⟩ := List.mem_filterMap.mp hf
  obtain ⟨members, -, rfl⟩ := Option.map_eq_some_iff.mp hmap
  exact scoped_roomPeers members fun hname => h key hkey hname.of_roomDisplay

lemma restoredFrames_congr (heq : t.rooms = s.rooms) (rooms : List String) :
    restoredFrames t rooms = restoredFrames s rooms := by
  rw [restoredFrames, restoredFrames, heq]

variable (c n p q) in
/-- Two connects that end alike. -/
inductive OutcomeAlike : Outcome → Outcome → Prop
  | rejected (why : Refusal) {s t : AppState} (h : Alike c n p q s t) :
      OutcomeAlike (.rejected why s) (.rejected why t)
  | admitted (K : Conn) {s t : AppState} (h : Alike c n p q s t) :
      OutcomeAlike (.admitted K s) (.admitted K t)

lemma outcomeAlike_runClient (h : Alike c n p q s t) (env : Env) (token : String) (auth : Auth)
    (lastSeq : Option ℕ) {restored restored' : List String} (hs : QueueOutside n s id)
    (ht : QueueOutside n t id)
    (hframes : roomView n (restoredFrames s restored) = roomView n (restoredFrames t restored')) :
    OutcomeAlike c n p q (runClient env s id token auth lastSeq restored)
      (runClient env t id token auth lastSeq restored') := by
  rw [runClient, runClient, ← h.next]
  have hopen := (h.newChannel.setSender id s.nextChan).sendOutside s.nextChan
    (scoped_openFrames (scoped_gapFrames (s.newChannel.setSender id s.nextChan) id lastSeq))
    (scoped_openFrames (scoped_gapFrames (t.newChannel.setSender id s.nextChan) id lastSeq))
  have hqueue := hopen.deliverQueuedMessages env s.nextChan (hs.of_queue rfl) (ht.of_queue rfl)
  refine OutcomeAlike.admitted _ (hqueue.send s.nextChan ?_)
  have hrooms : ∀ u : AppState,
      (Dendri.deliverQueuedMessages env u id s.nextChan).rooms = u.rooms := fun u =>
    congrArg Prod.fst (deliverQueuedMessages_frame env u id s.nextChan).2
  rw [restoredFrames_congr (hrooms _), restoredFrames_congr (hrooms _)]
  exact hframes

/-- The token of an id is the same on both sides. -/
lemma Alike.existingToken (h : Alike c n p q s t) (env : Env) (id : String) :
    existingToken env s id = existingToken env t id := by
  have htoken := h.token id
  rw [Dendri.existingToken, Dendri.existingToken, redisClientToken, redisClientToken, h.tokens]
  cases hs : s.clients.lookup id with
  | none =>
      rw [hs, Option.map_none, eq_comm, Option.map_eq_none_iff] at htoken
      rw [htoken]
  | some client =>
      rw [hs, Option.map_some, eq_comm, Option.map_eq_some_iff] at htoken
      obtain ⟨client', hclient', htoken⟩ := htoken
      rw [hclient']
      exact congrArg some htoken.symm

/-- The session of an id is restored on both sides. -/
lemma Alike.restoreSession_any (h : Alike c n p q s t) (hs : Apart c n s) (ht : Apart c n t)
    (id : String) :
    Alike c n p q (Dendri.restoreSession s id) (Dendri.restoreSession t id) ∧
      roomView n (Dendri.restoredFrames (Dendri.restoreSession s id) (restoredRooms s id)) =
        roomView n (Dendri.restoredFrames (Dendri.restoreSession t id) (restoredRooms t id)) := by
  by_cases hid : id = c
  · subst hid
    have hoff : ∀ u : AppState, Apart id n u → ∀ key ∈ restoredRooms u id, ¬Names n key := by
      intro u hu key hkey
      rw [restoredRooms.eq_def] at hkey
      cases hpending : u.pendingRemovals.lookup id with
      | none =>
          rw [hpending] at hkey
          exact absurd hkey (by simp)
      | some pending =>
          rw [hpending] at hkey
          exact hu.not_names_of_pending hpending hkey
    refine ⟨h.square (alike_restoreSession_own hs) (alike_restoreSession_own ht), ?_⟩
    rw [roomView_eq_nil (scoped_restoredFrames (hoff s hs) _),
      roomView_eq_nil (scoped_restoredFrames (hoff t ht) _)]
  · have hrest := h.restoreSession hid
    refine ⟨hrest, ?_⟩
    have hrooms : restoredRooms s id = restoredRooms t id := by
      rw [restoredRooms, restoredRooms, h.pending id hid]
    rw [hrooms]
    exact hrest.restoredFrames _

lemma queue_redisRegisterClient (env : Env) (s : AppState) (id token : String) :
    (s.redisRegisterClient env id token).redis.queue = s.redis.queue :=
  congrArg (fun x => x.2.1) (stores_redisRegisterClient env s id token)

lemma outcomeAlike_admitSocket (h : Alike c n p q s t) (hs : Apart c n s) (ht : Apart c n t)
    (env : Env) (cfg : Config) (token : String) (auth : Auth) (lastSeq : Option ℕ)
    (hqs : QueueOutside n s id) (hqt : QueueOutside n t id) :
    OutcomeAlike c n p q (admitSocket env cfg s id token auth lastSeq)
      (admitSocket env cfg t id token auth lastSeq) := by
  rw [admitSocket, admitSocket, h.existingToken env id]
  cases Dendri.existingToken env t id with
  | some storedToken =>
      dsimp only
      split_ifs
      · exact OutcomeAlike.rejected _ h
      · have hinsert := (h.insertClient env.now id token .WebSocket).insertTenant id auth.tenantId
        obtain ⟨hrest, hframes⟩ := hinsert.restoreSession_any (hs.of_ledger rfl)
          (ht.of_ledger rfl) id
        refine outcomeAlike_runClient hrest env token auth lastSeq ?_ ?_ hframes
        · exact hqs.of_queue (congrArg (fun x => x.2.1) (stores_restoreSession _ id).1)
        · exact hqt.of_queue (congrArg (fun x => x.2.1) (stores_restoreSession _ id).1)
  | none =>
      rw [tryReserveConnectionSlot_eq, tryReserveConnectionSlot_eq, h.slots]
      by_cases hfull : cfg.concurrentLimit ≤ t.activeConnections
      · rw [if_pos hfull, if_pos hfull]
        exact OutcomeAlike.rejected _ h
      · rw [if_neg hfull, if_neg hfull]
        have hslot : Alike c n p q { s with activeConnections := t.activeConnections + 1 }
            { t with activeConnections := t.activeConnections + 1 } :=
          { h with slots := rfl }
        dsimp only
        split_ifs
        · exact OutcomeAlike.rejected _ { hslot with slots := rfl }
        · have hregister := ((hslot.redisRegisterClient env id token).insertClient env.now id token
            .WebSocket).insertTenant id auth.tenantId
          refine outcomeAlike_runClient hregister env token auth lastSeq ?_ ?_ rfl
          · exact hqs.of_queue (queue_redisRegisterClient env _ id token)
          · exact hqt.of_queue (queue_redisRegisterClient env _ id token)

/-- An id is claimed with the same result on both sides. -/
lemma Alike.claimId (h : Alike c n p q s t) (cfg : Config) (id token : String) :
    Alike c n p q (claimId cfg s id token).1 (claimId cfg t id token).1 ∧
      (claimId cfg s id token).2 = (claimId cfg t id token).2 := by
  have htoken := h.token id
  rw [Dendri.claimId, Dendri.claimId, tryReserveConnectionSlot_eq, tryReserveConnectionSlot_eq,
    h.slots]
  cases hs : s.clients.lookup id with
  | none =>
      rw [hs, Option.map_none, eq_comm, Option.map_eq_none_iff] at htoken
      rw [htoken]
      dsimp only
      by_cases hfull : cfg.concurrentLimit ≤ t.activeConnections
      · rw [if_pos hfull, if_pos hfull]
        exact ⟨h, rfl⟩
      · rw [if_neg hfull, if_neg hfull]
        exact ⟨{ h with slots := rfl }, rfl⟩
  | some existing =>
      rw [hs, Option.map_some, eq_comm, Option.map_eq_some_iff] at htoken
      obtain ⟨existing', hexisting', htoken⟩ := htoken
      rw [hexisting']
      dsimp only
      rw [htoken]
      exact ⟨h, rfl⟩

lemma scoped_append {l l' : List Frame} (h : ∀ f ∈ l, f.scoped n = none)
    (h' : ∀ f ∈ l', f.scoped n = none) : ∀ f ∈ l ++ l', f.scoped n = none :=
  fun f hf => (List.mem_append.mp hf).elim (h f) (h' f)

/-- The gap and the replayed messages do not show. -/
lemma Alike.sendReplay (h : Alike c n p q s t) (env : Env) (i : ℕ) {lastSeq : Option ℕ}
    (hs : lastSeq.isSome = true → BufferOutside n s id)
    (ht : lastSeq.isSome = true → BufferOutside n t id) :
    Alike c n p q (s.send i (gapFrames s id lastSeq ++ replayFrames env s id lastSeq))
      (t.send i (gapFrames t id lastSeq ++ replayFrames env t id lastSeq)) :=
  h.sendOutside i (scoped_append (scoped_gapFrames s id lastSeq) (scoped_replayFrames hs))
    (scoped_append (scoped_gapFrames t id lastSeq) (scoped_replayFrames ht))

lemma outcomeAlike_openStream (h : Alike c n p q s t) (env : Env) {q' : HttpQuery} (auth : Auth)
    (hqs : QueueOutside n s q'.id) (hqt : QueueOutside n t q'.id)
    (hbs : q'.lastSeq.isSome = true → BufferOutside n s q'.id)
    (hbt : q'.lastSeq.isSome = true → BufferOutside n t q'.id) :
    OutcomeAlike c n p q (openStream env s q' auth) (openStream env t q' auth) := by
  have hregister := h.redisRegisterClient env q'.id q'.token
  have hnext : (s.redisRegisterClient env q'.id q'.token).nextChan =
      (t.redisRegisterClient env q'.id q'.token).nextChan := h.next
  rw [openStream, openStream, ← hnext]
  generalize (s.redisRegisterClient env q'.id q'.token).nextChan = i
  have hopen := (((hregister.newChannel.insertClient env.now q'.id q'.token .Sse).setSender q'.id
    i).insertTenant q'.id auth.tenantId).sendOutside i scoped_open scoped_open
  have hqueue := hopen.deliverQueuedMessages env i
    (hqs.of_queue (queue_redisRegisterClient env s q'.id q'.token))
    (hqt.of_queue (queue_redisRegisterClient env t q'.id q'.token))
  refine OutcomeAlike.admitted _ (hqueue.sendReplay env i (fun hsome => ?_) fun hsome => ?_)
  · exact (hbs hsome).of_buffer (replayBuffer_deliverQueuedMessages env _ q'.id i)
  · exact (hbt hsome).of_buffer (replayBuffer_deliverQueuedMessages env _ q'.id i)

lemma stores_pollingPair (s : AppState) (id : String) :
    (pollingPair s id).1.stores.2 = s.stores.2 := by
  rcases pollingPair_cases s id with ⟨-, -, hstores⟩ | ⟨-, -, hstores⟩
  · exact congrArg Prod.snd hstores
  · have hrest := congrArg Prod.snd hstores
    exact hrest

/-- The pair of a polling client is the same on both sides. -/
lemma Alike.pollingPair (h : Alike c n p q s t) (id : String) :
    Alike c n p q (pollingPair s id).1 (pollingPair t id).1 ∧
      (pollingPair s id).2 = (pollingPair t id).2 := by
  rw [pollingPair.eq_def, pollingPair.eq_def, h.receivers, h.senders]
  have hfresh : Alike c n p q
      { s.newChannel.setSender id s.nextChan with
        pollingReceivers := s.pollingReceivers.insert id s.nextChan }
      { t.newChannel.setSender id t.nextChan with
        pollingReceivers := t.pollingReceivers.insert id t.nextChan } := by
    have hopen := h.newChannel.setSender id t.nextChan
    rw [← h.next] at hopen ⊢
    exact { hopen with receivers := congrArg (fun m => m.insert id s.nextChan) h.receivers }
  cases t.pollingReceivers.lookup id with
  | none => exact ⟨hfresh, by rw [h.next]⟩
  | some rx =>
      cases t.wsSenders.lookup id with
      | none => exact ⟨hfresh, by rw [h.next]⟩
      | some tx => exact ⟨h, rfl⟩

lemma Alike.registerPoll (h : Alike c n p q s t) (env : Env) (isNewClient : Bool) (tx : ℕ)
    {q' : HttpQuery} (auth : Auth) (hqs : QueueOutside n s q'.id) (hqt : QueueOutside n t q'.id) :
    Alike c n p q (registerPoll env s isNewClient tx q' auth)
      (registerPoll env t isNewClient tx q' auth) := by
  rw [Dendri.registerPoll, Dendri.registerPoll]
  split_ifs
  · have hopen := (((h.redisRegisterClient env q'.id q'.token).insertClient env.now q'.id q'.token
      .Polling).insertTenant q'.id auth.tenantId).sendOutside tx scoped_open scoped_open
    exact hopen.deliverQueuedMessages env tx
      (hqs.of_queue (queue_redisRegisterClient env s q'.id q'.token))
      (hqt.of_queue (queue_redisRegisterClient env t q'.id q'.token))
  · exact h.modify q'.id fun _ => rfl

/-- The checks of an HTTP request end alike, and what comes after them does. -/
lemma outcomeAlike_http (h : Alike c n p q s t) (env : Env) (cfg : Config) (q' : HttpQuery)
    {f g : Auth → AppState → Outcome}
    (hrest : ∀ auth u v, Alike c n p q u v → u.stores = s.stores → v.stores = t.stores →
      OutcomeAlike c n p q (f auth u) (g auth v)) :
    OutcomeAlike c n p q
      (match authenticate env cfg q'.key q'.apiKey q'.jwt with
        | .error why => Outcome.rejected why.httpRefusal s
        | .ok auth =>
            match Dendri.claimId cfg (s.storeClaims q'.id auth.claims) q'.id q'.token with
            | (s, some why) => .rejected why s
            | (s, none) => f auth s)
      (match authenticate env cfg q'.key q'.apiKey q'.jwt with
        | .error why => Outcome.rejected why.httpRefusal t
        | .ok auth =>
            match Dendri.claimId cfg (t.storeClaims q'.id auth.claims) q'.id q'.token with
            | (s, some why) => .rejected why s
            | (s, none) => g auth s) := by
  cases authenticate env cfg q'.key q'.apiKey q'.jwt with
  | error why => exact OutcomeAlike.rejected _ h
  | ok auth =>
      obtain ⟨hclaim, hwhy⟩ := (h.storeClaims q'.id auth.claims).claimId cfg q'.id q'.token
      obtain ⟨k, hk⟩ := claimId_counter cfg (s.storeClaims q'.id auth.claims) q'.id q'.token
      obtain ⟨k', hk'⟩ := claimId_counter cfg (t.storeClaims q'.id auth.claims) q'.id q'.token
      dsimp only
      generalize Dendri.claimId cfg (s.storeClaims q'.id auth.claims) q'.id q'.token = x at *
      generalize Dendri.claimId cfg (t.storeClaims q'.id auth.claims) q'.id q'.token = y at *
      obtain ⟨u, why⟩ := x
      obtain ⟨v, why'⟩ := y
      dsimp only at hclaim hwhy hk hk'
      subst hwhy
      cases why with
      | some why => exact OutcomeAlike.rejected _ hclaim
      | none => exact hrest auth u v hclaim (by rw [hk]; rfl) (by rw [hk']; rfl)

/-- The id that a request can get buffered messages for: that of an HTTP
request with a sequence number. -/
def Request.replaysFor : Request → Option String
  | .sse q | .poll q => if q.lastSeq.isSome then some q.id else none
  | .ws _ => none

/-- A connect ends alike on both sides. -/
lemma outcomeAlike_connect (h : Alike c n p q s t) (hs : Apart c n s) (ht : Apart c n t)
    (env : Env) (cfg : Config) (r : Request) (hqs : ∀ id, QueueOutside n s id)
    (hqt : ∀ id, QueueOutside n t id)
    (hb : ∀ id, r.replaysFor = some id → BufferOutside n s id ∧ BufferOutside n t id) :
    OutcomeAlike c n p q (connect env cfg s r) (connect env cfg t r) := by
  have hqueue : ∀ u v : AppState, u.stores = v.stores → ∀ id, QueueOutside n v id →
      QueueOutside n u id := fun u v huv id hq => hq.of_queue (congrArg (fun x => x.2.1) huv)
  have hbuffer : ∀ u v : AppState, u.stores = v.stores → ∀ id, BufferOutside n v id →
      BufferOutside n u id := fun u v huv id hq => hq.of_buffer (congrArg (fun x => x.2.2.1) huv)
  cases r with
  | ws q' =>
      obtain ⟨id, token, key, lastSeq, jwt, apiKey⟩ := q'
      rw [connect, connect, handleSocket.eq_def, handleSocket.eq_def]
      cases id with
      | none => exact OutcomeAlike.rejected _ h
      | some id =>
          cases token with
          | none => exact OutcomeAlike.rejected _ h
          | some token =>
              cases key with
              | none => exact OutcomeAlike.rejected _ h
              | some key =>
                  dsimp only
                  split_ifs
                  · exact OutcomeAlike.rejected _ h
                  · cases authenticate env cfg (some key) apiKey jwt with
                    | error why => exact OutcomeAlike.rejected _ h
                    | ok auth =>
                        exact outcomeAlike_admitSocket (h.storeClaims id auth.claims)
                          (hs.of_ledger rfl) (ht.of_ledger rfl) env cfg token auth lastSeq
                          (hqs id) (hqt id)
  | sse q' =>
      have hb' : q'.lastSeq.isSome = true → BufferOutside n s q'.id ∧ BufferOutside n t q'.id :=
        fun hsome => hb q'.id (if_pos hsome)
      refine outcomeAlike_http h env cfg q' fun auth u v huv hu hv => ?_
      exact outcomeAlike_openStream huv env auth (hqueue u s hu _ (hqs q'.id))
        (hqueue v t hv _ (hqt q'.id)) (fun hsome => hbuffer u s hu _ (hb' hsome).1)
        fun hsome => hbuffer v t hv _ (hb' hsome).2
  | poll q' =>
      have hb' : q'.lastSeq.isSome = true → BufferOutside n s q'.id ∧ BufferOutside n t q'.id :=
        fun hsome => hb q'.id (if_pos hsome)
      have hnew : ((t.clients.lookup q'.id).isNone) = (s.clients.lookup q'.id).isNone := by
        rw [← Option.not_isSome, ← Option.not_isSome, h.registered]
      rw [connect, connect, pollHandler, pollHandler]
      refine outcomeAlike_http h env cfg q' fun auth u v huv hu hv => ?_
      obtain ⟨hpair, hends⟩ := huv.pollingPair q'.id
      have hu' := (stores_pollingPair u q'.id).trans (congrArg Prod.snd hu)
      have hv' := (stores_pollingPair v q'.id).trans (congrArg Prod.snd hv)
      generalize Dendri.pollingPair u q'.id = x at *
      generalize Dendri.pollingPair v q'.id = y at *
      obtain ⟨u, tx, rx⟩ := x
      obtain ⟨v, tx', rx'⟩ := y
      obtain ⟨rfl, rfl⟩ := Prod.mk.inj hends
      dsimp only at hpair hu' hv' ⊢
      have hnew' : ((t.storeClaims q'.id auth.claims).clients.lookup q'.id).isNone =
          ((s.storeClaims q'.id auth.claims).clients.lookup q'.id).isNone := hnew
      rw [hnew']
      have hregister := hpair.registerPoll env
        ((s.storeClaims q'.id auth.claims).clients.lookup q'.id).isNone tx auth
        ((hqs q'.id).of_queue (congrArg Prod.fst hu'))
        ((hqt q'.id).of_queue (congrArg Prod.fst hv'))
      refine OutcomeAlike.admitted _ (hregister.sendReplay env tx (fun hsome => ?_)
        fun hsome => ?_)
      · exact (hb' hsome).1.of_buffer ((registerPoll_cases env u _ tx q' auth).1.trans
          (congrArg (fun x => x.2.1) hu'))
      · exact (hb' hsome).2.of_buffer ((registerPoll_cases env v _ tx q' auth).1.trans
          (congrArg (fun x => x.2.1) hv'))

end Connecting

section Passes

variable {c n : String} {p q : ℕ → List Frame} {s t : AppState}

/-! ### Background passes -/

lemma Alike.keys_clients (h : Alike c n p q s t) : s.clients.keys = t.clients.keys := by
  ext id
  rw [Finmap.mem_keys, Finmap.mem_keys, ← Finmap.lookup_isSome, ← Finmap.lookup_isSome,
    h.registered id]

/-- A pass that finds `c` broken on both sides or on neither evicts the same
clients. -/
lemma Alike.toEvict (h : Alike c n p q s t) (env : Env) (cfg : Config)
    (hown : c ∈ toEvict env cfg s ↔ c ∈ toEvict env cfg t) :
    toEvict env cfg s = toEvict env cfg t := by
  rw [Dendri.toEvict, Dendri.toEvict, h.keys_clients] at hown ⊢
  refine List.filter_congr fun id hid => ?_
  by_cases hc : id = c
  · subst hc
    rw [List.mem_filter, List.mem_filter, and_iff_right hid, and_iff_right hid] at hown
    exact Bool.eq_iff_iff.mpr hown
  · rw [h.clients id hc]

lemma Alike.evictClient (h : Alike c n p q s t) (env : Env) (id : String) :
    Alike c n p q (evictClient env s id) (evictClient env t id) := by
  rw [Dendri.evictClient, Dendri.evictClient]
  exact ((h.dropClient id).square (alike_redisClearMessageQueue env _ id)
    (alike_redisClearMessageQueue env _ id)).redisRemoveClient env id

lemma Alike.foldl_evictClient (h : Alike c n p q s t) (env : Env) (ids : List String) :
    Alike c n p q (ids.foldl (Dendri.evictClient env) s)
      (ids.foldl (Dendri.evictClient env) t) := by
  induction ids generalizing s t with
  | nil => exact h
  | cons id ids ih => exact ih (h.evictClient env id)

lemma Alike.evictBroken (h : Alike c n p q s t) (env : Env) (cfg : Config)
    (hown : c ∈ Dendri.toEvict env cfg s ↔ c ∈ Dendri.toEvict env cfg t) :
    Alike c n p q (evictBroken env cfg s) (evictBroken env cfg t) := by
  rw [Dendri.evictBroken, Dendri.evictBroken, h.toEvict env cfg hown]
  exact h.foldl_evictClient env _

/-- The expiry of queued messages sends no frame of a room. -/
lemma alike_expireQueue (env : Env) (cfg : Config) (s : AppState) (id : String) :
    Alike c n p p s (expireQueue env cfg s id) := by
  rw [expireQueue]
  split_ifs
  · exact Alike.refl c n p s
  · have htouch : Alike c n p p s (s.redisTouchQueue env id) := alike_redisTouchQueue env s id
    refine Alike.trans ?_ (alike_redisClearMessageQueue env _ id)
    generalize expireNotices [] (s.redisQueue env id) = notices
    generalize s.redisTouchQueue env id = u at htouch ⊢
    induction notices generalizing u with
    | nil => exact htouch
    | cons pair notices ih =>
        refine ih _ (htouch.trans (alike_sendTo u pair.1 fun f hf => ?_))
        rw [List.mem_singleton.mp hf]
        rfl

lemma alike_messagesExpire (env : Env) (cfg : Config) (s : AppState) :
    Alike c n p p s (messagesExpire env cfg s) := by
  rw [messagesExpire]
  split_ifs
  · generalize env.order.toList s.redis.queues = ids
    induction ids generalizing s with
    | nil => exact Alike.refl c n p s
    | cons id ids ih => exact (alike_expireQueue env cfg s id).trans (ih _)
  · exact Alike.refl c n p s

/-- The expired sessions of the others are visited in the same order if all
their sessions are. -/
lemma Alike.expiredSessions (h : Alike c n p q s t) (env : Env) (cfg : Config)
    (horder : (env.order.toList s.pendingRemovals.keys).filter (· ≠ c) =
      (env.order.toList t.pendingRemovals.keys).filter (· ≠ c)) :
    (expiredSessions env cfg s).filter (· ≠ c) = (expiredSessions env cfg t).filter (· ≠ c) := by
  rw [Dendri.expiredSessions, Dendri.expiredSessions, List.filter_comm, List.filter_comm _ _
    (env.order.toList t.pendingRemovals.keys), horder]
  refine List.filter_congr fun id hid => ?_
  have hne : id ≠ c := by simpa using (List.mem_filter.mp hid).2
  rw [h.pending id hne]

end Passes

end Dendri
