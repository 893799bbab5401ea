import Dendri.Lib.Places
import Dendri.Properties.ReplayWindow
import Dendri.System

/-!
What the steps of the server put into the places a message can be in: the
channels, the Redis queues, the replay buffers and the presence map.

* `Origin`: which frames, entries, buffered messages and presence data are
  accounted for;
* `Supplies o s s'`: on every channel a part of the old frames is followed by
  new ones with an origin in `o`, and what is new in the other three places has
  an origin in `o`; the sequence counter does not go back;
* `Supplies.refl`, `Supplies.trans`, `Supplies.of_stores`: how handlers are put
  together from statements;
* one lemma for each handler and each background pass, whose hypotheses say
  which messages it puts somewhere;
* `Origin.OfStep`, `supplies_step`: the same for the steps of the server;
* `queuesHold_of_run`: what all messages that are ever queued have in common, the
  messages in the Redis queues have in every state.
-/

namespace Dendri

open AppState Places Transition

/-! ### The places -/

/-- The entry is in the Redis queue of `id`. -/
def AppState.Queued (s : AppState) (id : String) (entry : QueueEntry) : Prop :=
  ∃ entries, s.redis.queue.lookup id = some entries ∧ entry ∈ entries

/-- The presence map has the payload for the client in the room. -/
def AppState.Present (s : AppState) (room id payload : String) : Prop :=
  ∃ entries, s.presence.lookup room = some entries ∧ entries.lookup id = some payload

/-- What is accounted for, place by place. -/
structure Origin where
  frame : ℕ → Frame → Prop
  entry : String → QueueEntry → Prop
  buffered : String → BufferedMessage Frame → Prop
  presence : String → String → String → Prop

/-- Everything that is new in `s'` has an origin in `o`. Frames and buffered
messages may have been taken off. -/
structure Supplies (o : Origin) (s s' : AppState) : Prop where
  chans : ∀ c, Grows (o.frame c) (s.chans c).queue (s'.chans c).queue
  queue : ∀ id entry, s'.Queued id entry → s.Queued id entry ∨ o.entry id entry
  buffer : ∀ key, Grows (o.buffered key) (s.replayBuffer.held key) (s'.replayBuffer.held key)
  presence : ∀ room id payload, s'.Present room id payload →
    s.Present room id payload ∨ o.presence room id payload
  counter : s.seqCounter ≤ s'.seqCounter

/-- The four places of a state, and the sequence counter. -/
def AppState.stores (s : AppState) : (ℕ → Channel) × DashMap (List QueueEntry) ×
    ReplayBuffer Frame × DashMap (DashMap String) × ℕ :=
  (s.chans, s.redis.queue, s.replayBuffer, s.presence, s.seqCounter)

section Rules

variable {o : Origin} {s t u : AppState}

/-- A statement that touches none of the places. -/
lemma Supplies.of_stores (h : t.stores = s.stores) : Supplies o s t := by
  obtain ⟨hchans, h⟩ := Prod.mk.inj h
  obtain ⟨hqueue, h⟩ := Prod.mk.inj h
  obtain ⟨hbuffer, h⟩ := Prod.mk.inj h
  obtain ⟨hpresence, hcounter⟩ := Prod.mk.inj h
  refine ⟨fun c => ?_, fun id entry hq => ?_, fun key => ?_, fun room id payload hp => ?_,
    hcounter.ge⟩
  · rw [hchans]
    exact Grows.refl _ _
  · rw [AppState.Queued, hqueue] at hq
    exact Or.inl hq
  · rw [hbuffer]
    exact Grows.refl _ _
  · rw [AppState.Present, hpresence] at hp
    exact Or.inl hp

lemma Supplies.refl (o : Origin) (s : AppState) : Supplies o s s := Supplies.of_stores rfl

/-- One statement after the other. -/
lemma Supplies.trans (h : Supplies o s t) (h' : Supplies o t u) : Supplies o s u where
  chans c := (h.chans c).trans (h'.chans c)
  queue id entry hq := (h'.queue id entry hq).elim (h.queue id entry) Or.inr
  buffer key := (h.buffer key).trans (h'.buffer key)
  presence room id payload hp := (h'.presence room id payload hp).elim
    (h.presence room id payload) Or.inr
  counter := h.counter.trans h'.counter

/-- A statement before or after that touches none of the places does not
count. -/
lemma Supplies.then_stores (h : Supplies o s t) (hu : u.stores = t.stores) : Supplies o s u :=
  h.trans (Supplies.of_stores hu)

lemma Supplies.after_stores (h : Supplies o t u) (ht : t.stores = s.stores) : Supplies o s u :=
  (Supplies.of_stores ht).trans h

variable (o) in
/-- Everything in the places of a state is accounted for. -/
structure Origin.Accounts (s : AppState) : Prop where
  frame : ∀ c, ∀ f ∈ (s.chans c).queue, o.frame c f
  entry : ∀ id entry, s.Queued id entry → o.entry id entry
  buffered : ∀ key, ∀ m ∈ s.replayBuffer.held key, o.buffered key m
  presence : ∀ room id payload, s.Present room id payload → o.presence room id payload

/-- A state with an account keeps it when all that is new has an origin. -/
lemma Supplies.accounts (h : Supplies o s t) (hs : o.Accounts s) : o.Accounts t where
  frame c f hf := ((h.chans c).mem hf).elim (hs.frame c f) fun ho => ho
  entry id entry hq := (h.queue id entry hq).elim (hs.entry id entry) fun ho => ho
  buffered key m hm := ((h.buffer key).mem hm).elim (hs.buffered key m) fun ho => ho
  presence room id payload hp :=
    (h.presence room id payload hp).elim (hs.presence room id payload) fun ho => ho

/-- A loop of such statements. -/
lemma Supplies.foldl {α : Type} {f : AppState → α → AppState} {l : List α}
    (h : ∀ t, ∀ a ∈ l, Supplies o t (f t a)) : Supplies o s (l.foldl f s) := by
  induction l generalizing s with
  | nil => exact Supplies.refl o s
  | cons a l ih =>
      exact (h s a (by simp)).trans (ih fun t b hb => h t b (by simp [hb]))

/-- A statement that acts on channels only. -/
lemma Supplies.of_chans (hchans : ∀ c, Grows (o.frame c) (s.chans c).queue (t.chans c).queue)
    (hstores : t.stores.2 = s.stores.2) : Supplies o s t := by
  have hstores' : t.stores = ({ s with chans := t.chans } : AppState).stores := by
    rw [AppState.stores, show (t.redis.queue, t.replayBuffer, t.presence, t.seqCounter) =
      (s.redis.queue, s.replayBuffer, s.presence, s.seqCounter) from hstores]
    rfl
  have hrest : Supplies o { s with chans := t.chans } t := Supplies.of_stores hstores'
  exact ⟨hchans, hrest.queue, hrest.buffer, hrest.presence, hrest.counter⟩

/-! ### Statements -/

lemma supplies_send (s : AppState) (c : ℕ) {frames : List Frame}
    (h : ∀ f ∈ frames, o.frame c f) : Supplies o s (s.send c frames) := by
  refine Supplies.of_chans (fun i => ?_) rfl
  by_cases hi : i = c ∧ (s.chans c).closed = false
  · obtain ⟨rfl, hopen⟩ := hi
    simp only [AppState.send, hopen, and_self, if_true]
    exact Grows.append h
  · simp only [AppState.send, if_neg hi]
    exact Grows.refl _ _

lemma supplies_sendTo (s : AppState) (id : String) {frames : List Frame}
    (h : ∀ c, ∀ f ∈ frames, o.frame c f) : Supplies o s (s.sendTo id frames) := by
  cases hc : s.wsSenders.lookup id with
  | none => exact Supplies.of_stores (by simp only [AppState.stores, AppState.sendTo, hc])
  | some c =>
      refine (supplies_send s c (h c)).trans (Supplies.of_stores ?_)
      simp only [AppState.stores, AppState.sendTo, hc, AppState.send]

lemma supplies_fanOut (s : AppState) (members : Finset String) {frame : Frame}
    (h : ∀ c, o.frame c frame) : Supplies o s (s.fanOut members frame) := by
  refine Supplies.of_chans (fun i => ?_) rfl
  by_cases hi : (∃ m ∈ members, s.wsSenders.lookup m = some i) ∧ (s.chans i).closed = false
  · simp only [AppState.fanOut, if_pos hi]
    exact Grows.append (by simpa using h i)
  · simp only [AppState.fanOut, if_neg hi]
    exact Grows.refl _ _

lemma supplies_newChannel (s : AppState) : Supplies o s s.newChannel := by
  refine Supplies.of_chans (fun i => ?_) rfl
  by_cases hi : i = s.nextChan
  · simp only [AppState.newChannel, if_pos hi]
    exact Grows.of_sublist (List.nil_sublist _)
  · simp only [AppState.newChannel, if_neg hi]
    exact Grows.refl _ _

lemma supplies_closeChannel (s : AppState) (c : ℕ) : Supplies o s (s.closeChannel c) := by
  refine Supplies.of_chans (fun i => ?_) rfl
  simp only [AppState.closeChannel]
  split_ifs with hi
  · rw [hi]
    exact Grows.refl _ _
  · exact Grows.refl _ _

lemma supplies_redisAddMessageToQueue (env : Env) (s : AppState) (id : String)
    {entry : QueueEntry} (h : o.entry id entry) :
    Supplies o s (s.redisAddMessageToQueue env id entry) := by
  refine ⟨(Supplies.refl o s).chans, fun id' entry' hq => ?_, (Supplies.refl o s).buffer,
    (Supplies.refl o s).presence, le_refl _⟩
  obtain ⟨entries, hlookup, hmem⟩ := hq
  simp only [redisAddMessageToQueue] at hlookup
  split_ifs at hlookup
  · dsimp only at hlookup
    rw [FinMap.lookup_insert_ite] at hlookup
    split_ifs at hlookup with hid
    · rw [Option.some.injEq] at hlookup
      rw [← hlookup] at hmem
      rcases List.mem_append.mp hmem with hold | hnew
      · cases hl : s.redis.queue.lookup id with
        | none => simp [hl] at hold
        | some old =>
            rw [hl, Option.getD_some] at hold
            exact Or.inl ⟨old, by rw [hid, hl], hold⟩
      · rw [List.mem_singleton.mp hnew, hid]
        exact Or.inr h
    · exact Or.inl ⟨entries, hlookup, hmem⟩
  · exact Or.inl ⟨entries, hlookup, hmem⟩

lemma supplies_redisClearMessageQueue (env : Env) (s : AppState) (id : String) :
    Supplies o s (s.redisClearMessageQueue env id) := by
  refine ⟨(Supplies.refl o s).chans, fun id' entry' hq => ?_, (Supplies.refl o s).buffer,
    (Supplies.refl o s).presence, le_refl _⟩
  obtain ⟨entries, hlookup, hmem⟩ := hq
  simp only [redisClearMessageQueue] at hlookup
  split_ifs at hlookup
  · dsimp only at hlookup
    rw [FinMap.lookup_erase_ite] at hlookup
    split_ifs at hlookup
    exact Or.inl ⟨entries, hlookup, hmem⟩
  · exact Or.inl ⟨entries, hlookup, hmem⟩

lemma stores_redisRegisterClient (env : Env) (s : AppState) (id token : String) :
    (s.redisRegisterClient env id token).stores = s.stores := by
  simp only [AppState.stores, redisRegisterClient]
  split_ifs <;> rfl

lemma stores_redisRemoveClient (env : Env) (s : AppState) (id : String) :
    (s.redisRemoveClient env id).stores = s.stores := by
  simp only [AppState.stores, redisRemoveClient]
  split_ifs <;> rfl

lemma stores_redisTouchQueue (env : Env) (s : AppState) (id : String) :
    (s.redisTouchQueue env id).stores = s.stores := by
  simp only [AppState.stores, redisTouchQueue]
  split_ifs <;> rfl

/-- A change of the replay buffer. -/
lemma Supplies.of_replayBuffer {b : ReplayBuffer Frame}
    (h : ∀ key, Grows (o.buffered key) (s.replayBuffer.held key) (b.held key)) :
    Supplies o s { s with replayBuffer := b } :=
  ⟨(Supplies.refl o s).chans, (Supplies.refl o s).queue, h, (Supplies.refl o s).presence,
    le_refl _⟩

/-- A change of the presence map. -/
lemma Supplies.of_presence {presence : DashMap (DashMap String)}
    (h : ∀ room id payload, ({ s with presence := presence } : AppState).Present room id payload →
      s.Present room id payload ∨ o.presence room id payload) :
    Supplies o s { s with presence := presence } :=
  ⟨(Supplies.refl o s).chans, (Supplies.refl o s).queue, (Supplies.refl o s).buffer, h,
    le_refl _⟩

/-! ### Rooms -/

variable (o) in
/-- The frames that no client has written are accounted for. -/
structure Origin.Plain : Prop where
  open_ : ∀ c, o.frame c openFrame
  error : ∀ c text, o.frame c (.error text)
  replayGap : ∀ c oldest requested, o.frame c (.replayGap oldest requested)
  roomJoinDenied : ∀ c room reason, o.frame c (.roomJoinDenied room reason)
  roomPeers : ∀ c room members, o.frame c (.roomPeers room members)

variable (hplain : o.Plain)

include hplain in
lemma supplies_removeClientFromRoom (s : AppState) (id key : String) :
    Supplies o s (removeClientFromRoom s id key) := by
  rw [removeClientFromRoom.eq_def]
  split
  · exact Supplies.refl o s
  · rename_i members hmembers
    have hpresence : ∀ room id' payload,
        ({ s with presence := FinMap.modify s.presence key fun p => p.erase id } :
          AppState).Present room id' payload → s.Present room id' payload := by
      rintro room id' payload ⟨entries, hlookup, hpayload⟩
      dsimp only at hlookup
      rw [FinMap.lookup_modify] at hlookup
      split_ifs at hlookup with hroom
      · obtain ⟨old, hold, rfl⟩ := Option.map_eq_some_iff.mp hlookup
        rw [FinMap.lookup_erase_ite] at hpayload
        split_ifs at hpayload
        exact ⟨old, by rw [hroom, hold], hpayload⟩
      · exact ⟨entries, hlookup, hpayload⟩
    dsimp only
    split_ifs with hempty
    · have herase : ∀ room id' payload,
          ({ s with presence := (FinMap.modify s.presence key fun p => p.erase id).erase key } :
            AppState).Present room id' payload → s.Present room id' payload := by
        rintro room id' payload ⟨entries, hlookup, hpayload⟩
        dsimp only at hlookup
        rw [FinMap.lookup_erase_ite] at hlookup
        split_ifs at hlookup
        exact hpresence room id' payload ⟨entries, hlookup, hpayload⟩
      exact (Supplies.of_presence fun room id' payload hp =>
        Or.inl (herase room id' payload hp)).trans (Supplies.of_stores rfl)
    · have hmodify := Supplies.of_presence (o := o) fun room id' payload hp =>
        Or.inl (hpresence room id' payload hp)
      have hfan := supplies_fanOut (o := o)
        { s with
          rooms := s.rooms.insert key (members.erase id)
          presence := FinMap.modify s.presence key fun p => p.erase id }
        (members.erase id) fun c => hplain.roomPeers c (roomDisplay key) (members.erase id)
      exact (hmodify.trans (hfan.after_stores rfl)).then_stores rfl

include hplain in
lemma supplies_removeClientFromAllRooms (env : Env) (cfg : Config) (s : AppState) (id : String) :
    Supplies o s (removeClientFromAllRooms env cfg s id) := by
  have hbuffer : ∀ t : AppState,
      Supplies o t { t with replayBuffer := t.replayBuffer.removeClient id } := fun t =>
    Supplies.of_replayBuffer fun key => by
      rw [ReplayBuffer.held_removeClient]
      split_ifs
      · exact Grows.of_sublist (List.nil_sublist _)
      · exact Grows.refl _ _
  exact removeClientFromAllRooms_induction (P := fun t => Supplies o s t) env cfg
    (Supplies.refl o s) (Supplies.of_stores rfl)
    (fun t room ht => ht.trans (supplies_removeClientFromRoom hplain t id room))
    (fun _ _ => Supplies.of_stores rfl) fun t ht => ht.trans (hbuffer t)

include hplain in
lemma supplies_cleanupExpiredSessions (env : Env) (cfg : Config) (s : AppState) :
    Supplies o s (cleanupExpiredSessions env cfg s) := by
  refine cleanupExpiredSessions_induction (P := fun t => Supplies o s t) env cfg
    (Supplies.refl o s) fun t id ht => ht.trans ?_
  exact expireSession_induction (P := fun u => Supplies o t u) (Supplies.refl o t)
    (Supplies.of_stores rfl) fun u room hu =>
      hu.trans (supplies_removeClientFromRoom hplain u id room)

include hplain in
/-- A join puts the stored presence data of the room on the client's channel. -/
lemma supplies_handleRoomJoin (env : Env) (cfg : Config) (s : AppState) (id : String)
    (msg : Message)
    (hpresence : ∀ key peer payload, s.Present key peer payload →
      ∀ c room, o.frame c (.presence peer room payload)) :
    Supplies o s (handleRoomJoin env cfg s id msg) := by
  rw [handleRoomJoin.eq_def]
  split
  · exact Supplies.refl o s
  · rename_i roomName hroom
    split
    · rename_i denial hdenial
      refine supplies_sendTo s id fun c f hf => ?_
      rw [List.mem_singleton.mp hf]
      cases denial with
      | invalidName => exact hplain.error c _
      | authDenied => exact hplain.roomJoinDenied c _ _
      | clientRoomLimit => exact hplain.roomJoinDenied c _ _
      | serverRoomLimit => exact hplain.roomJoinDenied c _ _
      | roomFull => exact hplain.roomJoinDenied c _ _
    · refine Supplies.after_stores (supplies_sendTo _ id fun c f hf => ?_) rfl
      rcases List.mem_cons.mp hf with rfl | hf
      · exact hplain.roomPeers c _ _
      · obtain ⟨peer, hpeer, rfl⟩ := List.mem_map.mp hf
        have hkey := Finmap.mem_keys.mp (env.order.mem_toList.mp hpeer)
        obtain ⟨payload, hpayload⟩ := Option.isSome_iff_exists.mp (Finmap.lookup_isSome.mpr hkey)
        rw [hpayload, Option.getD_some]
        cases hentries : s.presence.lookup (roomKey s id roomName) with
        | none => simp [joinRoom, hentries] at hpayload
        | some entries =>
            simp only [joinRoom, hentries, Option.getD_some] at hpayload
            exact hpresence _ peer payload ⟨entries, hentries, hpayload⟩ c roomName

include hplain in
lemma supplies_handleRoomLeave (s : AppState) (id : String) (msg : Message) :
    Supplies o s (handleRoomLeave s id msg) := by
  obtain hs | ⟨room, -, -, hs⟩ := handleRoomLeave_cases s id msg
  · rw [hs]
    exact Supplies.refl o s
  · rw [hs]
    exact supplies_removeClientFromRoom hplain s id _

/-! ### Messages -/

/-- The message a `DATA` message is relayed as. -/
def stamped (env : Env) (s : AppState) (id : String) (msg : Message) : Message :=
  { msg with src := some id, seq := some (s.seqCounter + 1), timestamp := some (env.now : ℤ) }

variable (o) in
/-- What the handling of the message `msg` of `id` can put somewhere is
accounted for. -/
structure Origin.OfMessage (env : Env) (s : AppState) (id : String) (msg : Message) : Prop where
  relayed : msg.type_.isTransmission = true → ∀ c, o.frame c (.relay { msg with src := some id })
  queued : msg.type_.isTransmission = true → ∀ dst, msg.dst = some dst →
    o.entry dst (.message { msg with src := some id })
  closed : msg.type_.isTransmission = true → ∀ dst c, msg.dst = some dst →
    s.wsSenders.lookup dst = some c → (s.chans c).closed = true →
    ∀ c', o.frame c' (.relay { type_ := .LEAVE, src := some dst, dst := some id })
  data : msg.type_ = .DATA → ∀ c, o.frame c (.relay (stamped env s id msg))
  buffered : msg.type_ = .DATA → ∀ key,
    o.buffered key ⟨s.seqCounter + 1, .relay (stamped env s id msg), env.now⟩
  joined : msg.type_ = .RoomJoin → ∀ key peer payload, s.Present key peer payload →
    ∀ c room, o.frame c (.presence peer room payload)
  stored : msg.type_ = .PresenceUpdate → ∀ room payload, msg.room = some room →
    msg.payload = some payload → o.presence (roomKey s id room) id payload
  announced : msg.type_ = .PresenceUpdate → ∀ c, o.frame c (.relay { msg with src := some id })

lemma supplies_handleTransmission (env : Env) (s : AppState) (id : String) (msg : Message)
    (hsrc : msg.src = some id) (hrelayed : ∀ c, o.frame c (.relay msg))
    (hqueued : ∀ dst, msg.dst = some dst → o.entry dst (.message msg))
    (hclosed : ∀ dst c, msg.dst = some dst → s.wsSenders.lookup dst = some c →
      (s.chans c).closed = true →
      ∀ c', o.frame c' (.relay { type_ := .LEAVE, src := some dst, dst := some id })) :
    Supplies o s (handleTransmission env s msg) := by
  rw [handleTransmission]
  by_cases hdst : msg.dst.getD "" ≠ ""
  · rw [if_pos hdst]
    -- the destination is present, so it is the one the default stands for
    obtain ⟨dst, hd⟩ : ∃ dst, msg.dst = some dst := by
      cases hd : msg.dst with
      | none => exact absurd (by rw [hd, Option.getD_none]) hdst
      | some dst => exact ⟨dst, rfl⟩
    rw [hd, hsrc, Option.getD_some, Option.getD_some]
    cases hc : s.wsSenders.lookup dst with
    | none =>
        dsimp only
        split_ifs
        · exact Supplies.refl o s
        · exact supplies_redisAddMessageToQueue env s dst (hqueued dst hd)
    | some c =>
        dsimp only
        split_ifs with hopen
        · refine Supplies.after_stores (supplies_sendTo _ id fun c' f hf => ?_)
            (stores_redisRemoveClient env (s.dropClient dst) dst)
          rw [List.mem_singleton.mp hf]
          exact hclosed dst c hd hc hopen c'
        · refine supplies_send s c fun f hf => ?_
          rw [List.mem_singleton.mp hf]
          exact hrelayed c
  · rw [if_neg hdst]
    split_ifs
    · exact Supplies.of_stores (stores_redisRemoveClient env (s.dropClient _) _)
    · exact Supplies.refl o s

lemma supplies_bufferRelay (env : Env) (s : AppState) (key : String) (seq : ℕ) (msg : Message)
    (h : o.buffered key ⟨seq, .relay msg, env.now⟩) :
    Supplies o s (bufferRelay env s key seq msg) := by
  refine Supplies.of_replayBuffer fun k => ?_
  split_ifs
  · exact Grows.refl _ _
  · rw [ReplayBuffer.held_push]
    split_ifs with hk hfull
    · rw [hk]
      exact (Grows.of_sublist ((List.tail_sublist _).trans (List.dropWhile_sublist _))).trans
        (Grows.append (by simpa using h))
    · rw [hk]
      exact (Grows.of_sublist (List.dropWhile_sublist _)).trans (Grows.append (by simpa using h))
    · exact Grows.refl _ _

include hplain in
lemma supplies_handleData (env : Env) (cfg : Config) (s : AppState) (id : String) (msg : Message)
    (hdata : ∀ c, o.frame c (.relay (stamped env s id msg)))
    (hbuffered : ∀ key, o.buffered key ⟨s.seqCounter + 1, .relay (stamped env s id msg), env.now⟩) :
    Supplies o s (handleData env cfg s id { msg with src := some id }) := by
  have hcounter : Supplies o s { s with seqCounter := s.seqCounter + 1 } :=
    ⟨(Supplies.refl o s).chans, (Supplies.refl o s).queue, (Supplies.refl o s).buffer,
      (Supplies.refl o s).presence, Nat.le_succ _⟩
  refine handleData_induction (P := Supplies o s) ?_ ?_ ?_ ?_ ?_
  · refine supplies_sendTo s id fun c f hf => ?_
    rw [List.mem_singleton.mp hf]
    exact hplain.error c _
  · exact Supplies.refl o s
  · intro room _ _
    exact (hcounter.trans (supplies_fanOut _ _ hdata)).trans
      (supplies_bufferRelay env _ _ _ _ (hbuffered _))
  · intro dst _ _ _
    refine (hcounter.trans (supplies_sendTo _ _ fun c f hf => ?_)).trans
      (supplies_bufferRelay env _ _ _ _ (hbuffered _))
    rw [List.mem_singleton.mp hf]
    exact hdata c
  · exact hcounter

lemma supplies_handlePresenceUpdate (s : AppState) (id : String) (msg : Message)
    (hstored : ∀ room payload, msg.room = some room → msg.payload = some payload →
      o.presence (roomKey s id room) id payload)
    (hannounced : ∀ c, o.frame c (.relay msg)) :
    Supplies o s (handlePresenceUpdate s id msg) := by
  rw [handlePresenceUpdate.eq_def]
  split
  · exact Supplies.refl o s
  · rename_i room hroom
    split_ifs
    · exact Supplies.refl o s
    · refine Supplies.trans (Supplies.of_presence fun room' id' payload' hp => ?_)
        (supplies_fanOut _ _ hannounced)
      obtain ⟨entries, hentries, hpayload'⟩ := hp
      dsimp only at hentries
      cases hpayload : msg.payload with
      | none =>
          rw [hpayload] at hentries
          exact Or.inl ⟨entries, hentries, hpayload'⟩
      | some payload =>
          rw [hpayload] at hentries
          dsimp only at hentries
          rw [FinMap.lookup_insert_ite] at hentries
          split_ifs at hentries with hkey
          · rw [← Option.some.inj hentries, FinMap.lookup_insert_ite] at hpayload'
            split_ifs at hpayload' with hid
            · rw [← Option.some.inj hpayload', hid, hkey]
              exact Or.inr (hstored room payload hroom hpayload)
            · cases hold : s.presence.lookup (roomKey s id room) with
              | none =>
                  rw [hold, Option.getD_none] at hpayload'
                  exact absurd hpayload' (by simp)
              | some old =>
                  rw [hold, Option.getD_some] at hpayload'
                  exact Or.inl ⟨old, by rw [hkey, hold], hpayload'⟩
          · exact Or.inl ⟨entries, hentries, hpayload'⟩

include hplain in
/-- A message puts somewhere what its handler does. -/
lemma supplies_handleMessage (env : Env) (cfg : Config) (s : AppState) (id : String)
    (msg : Message) (h : o.OfMessage env s id msg) :
    Supplies o s (handleMessage env cfg s id msg) := by
  have hrec : ∀ u, Supplies o (recorded env s id msg.type_) u → Supplies o s u := by
    intro u hu
    refine hu.after_stores ?_
    rw [recorded]
    split_ifs <;> rfl
  have hread : (recorded env s id msg.type_).wsSenders = s.wsSenders ∧
      (recorded env s id msg.type_).chans = s.chans ∧
      (recorded env s id msg.type_).presence = s.presence ∧
      (recorded env s id msg.type_).seqCounter = s.seqCounter ∧
      (recorded env s id msg.type_).clientTenants = s.clientTenants := by
    rw [recorded]
    split_ifs <;> exact ⟨rfl, rfl, rfl, rfl, rfl⟩
  obtain ⟨hsenders, hchans, hpresence, hseq, htenants⟩ := hread
  have hstamped : stamped env (recorded env s id msg.type_) id msg = stamped env s id msg := by
    rw [stamped, stamped, hseq]
  refine handleMessage_induction (P := Supplies o s) (fun _ => Supplies.of_stores rfl)
    (fun htype => hrec _ ?_) (fun htype => hrec _ ?_) (fun htype => hrec _ ?_)
    (fun _ => hrec _ (supplies_handleRoomLeave hplain _ id _)) (fun htype => hrec _ ?_)
    fun _ _ => hrec _ (Supplies.refl o _)
  · refine supplies_handleTransmission env _ id _ rfl (h.relayed htype) (h.queued htype) ?_
    rw [hsenders, hchans]
    exact h.closed htype
  · refine supplies_handleData hplain env cfg _ id msg ?_ ?_
    · rw [hstamped]
      exact h.data htype
    · rw [hstamped, hseq]
      exact h.buffered htype
  · refine supplies_handleRoomJoin hplain env cfg _ id _ ?_
    rintro key peer payload ⟨entries, hentries, hpayload⟩
    rw [hpresence] at hentries
    exact h.joined htype key peer payload ⟨entries, hentries, hpayload⟩
  · refine supplies_handlePresenceUpdate _ id _ ?_ (h.announced htype)
    intro room payload hroom hpayload
    rw [roomKey, htenants]
    exact h.stored htype room payload hroom hpayload

include hplain in
lemma supplies_receive (env : Env) (cfg : Config) (s : AppState) (id : String) (msg : Message)
    (h : allowed env id msg.type_ = true → o.OfMessage env s id msg) :
    Supplies o s (receive env cfg s id msg).1 := by
  rw [receive]
  dsimp only
  rw [(meter_eq env s id msg.type_).1]
  have hmeter : Supplies o s (meter env s id msg.type_).1 := by
    rw [meter]
    split
    · exact Supplies.of_stores rfl
    · exact Supplies.refl o s
  split_ifs with hallowed
  · refine hmeter.trans (supplies_handleMessage hplain env cfg _ id msg ?_)
    have hof := h hallowed
    rw [meter]
    split
    · exact ⟨hof.relayed, hof.queued, hof.closed, hof.data, hof.buffered, hof.joined, hof.stored,
        hof.announced⟩
    · exact hof
  · exact hmeter

include hplain in
lemma supplies_wsText (env : Env) (cfg : Config) (s : AppState) (c : ℕ) (id : String) (len : ℕ)
    (parsed : Option Message)
    (h : ∀ msg, ¬cfg.maxMessageSize < len → parsed = some msg →
      allowed env id msg.type_ = true → o.OfMessage env s id msg) :
    Supplies o s (wsText env cfg s c id len parsed) := by
  have herror : ∀ t text, Supplies o t (t.send c [.error text]) := by
    intro t text
    refine supplies_send t c fun f hf => ?_
    rw [List.mem_singleton.mp hf]
    exact hplain.error c text
  rw [wsText.eq_def]
  split_ifs with hlen
  · exact herror s _
  · split
    · exact Supplies.refl o s
    · rename_i msg
      have hreceive := supplies_receive hplain env cfg s id msg (h msg hlen rfl)
      dsimp only
      split_ifs
      · exact hreceive
      · exact hreceive.trans (herror _ _)

include hplain in
lemma supplies_sendHandler (env : Env) (cfg : Config) (s : AppState) (id token : String)
    (parsed : Option Message)
    (h : ∀ client msg, s.clients.lookup id = some client → client.token = token →
      parsed = some msg → allowed env id msg.type_ = true → o.OfMessage env s id msg) :
    Supplies o s (sendHandler env cfg s id token parsed).1 := by
  rw [sendHandler.eq_def]
  split
  · exact Supplies.refl o s
  · rename_i client hclient
    split_ifs with htoken
    · dsimp only
      split
      · exact Supplies.of_stores rfl
      · rename_i msg
        refine Supplies.after_stores (supplies_receive hplain env cfg _ id msg fun hallowed => ?_)
          rfl
        have hof := h client msg hclient htoken rfl hallowed
        exact ⟨hof.relayed, hof.queued, hof.closed, hof.data, hof.buffered, hof.joined,
          hof.stored, hof.announced⟩
    · exact Supplies.refl o s

/-! ### Connecting -/

variable (o) in
/-- The messages queued for `id` are accounted for on the channel `c`. -/
def Origin.OfQueue (s : AppState) (id : String) (c : ℕ) : Prop :=
  ∀ entry msg, s.Queued id entry → entry.parse = some msg → o.frame c (.relay msg)

variable (o) in
/-- What a connect of `id` can put on the channel `c` is accounted for: the
messages queued for the id, and those buffered for it. -/
structure Origin.OfConnect (s : AppState) (id : String) (c : ℕ) : Prop where
  queued : o.OfQueue s id c
  replayed : ∀ m ∈ s.replayBuffer.held id, o.frame c m.data

lemma Origin.OfQueue.of_queue {id : String} {c : ℕ} (h : o.OfQueue s id c)
    (ht : t.redis.queue = s.redis.queue) : o.OfQueue t id c := by
  intro entry msg hq
  rw [AppState.Queued, ht] at hq
  exact h entry msg hq

/-- The messages for an id are read from the places only. -/
lemma Origin.OfConnect.of_stores {id : String} {c : ℕ} (h : o.OfConnect s id c)
    (ht : t.stores.2 = s.stores.2) : o.OfConnect t id c := by
  have hqueue : t.redis.queue = s.redis.queue := congrArg Prod.fst ht
  have hbuffer : t.replayBuffer = s.replayBuffer := congrArg (fun p => p.2.1) ht
  refine ⟨h.queued.of_queue hqueue, fun m hm => ?_⟩
  rw [hbuffer] at hm
  exact h.replayed m hm

lemma replayBuffer_deliverQueuedMessages (env : Env) (s : AppState) (id : String) (c : ℕ) :
    (deliverQueuedMessages env s id c).replayBuffer = s.replayBuffer := by
  rw [deliverQueuedMessages]
  split_ifs <;> rfl

lemma queued_of_mem_redisQueue {env : Env} {id : String} {entry : QueueEntry}
    (h : entry ∈ s.redisQueue env id) : s.Queued id entry := by
  rw [redisQueue] at h
  split_ifs at h
  · cases hentries : s.redis.queue.lookup id with
    | none => simp [hentries] at h
    | some entries =>
        rw [hentries, Option.getD_some] at h
        exact ⟨entries, hentries, h⟩
  · exact absurd h (by simp)

lemma supplies_deliverQueuedMessages (env : Env) (s : AppState) (id : String) (c : ℕ)
    (h : o.OfQueue s id c) : Supplies o s (deliverQueuedMessages env s id c) := by
  rw [deliverQueuedMessages]
  have htouch : Supplies o s (s.redisTouchQueue env id) :=
    Supplies.of_stores (stores_redisTouchQueue env s id)
  split_ifs
  · exact htouch
  · refine (htouch.trans (supplies_send _ c fun f hf => ?_)).trans
      (supplies_redisClearMessageQueue env _ id)
    obtain ⟨msg, hmsg, rfl⟩ := List.mem_map.mp hf
    obtain ⟨entry, hentry, hparse⟩ := List.mem_filterMap.mp hmsg
    exact h entry msg (queued_of_mem_redisQueue hentry) hparse

include hplain in
lemma frame_of_mem_gapFrames {id : String} {lastSeq : Option ℕ} {f : Frame} (c : ℕ)
    (hf : f ∈ gapFrames s id lastSeq) : o.frame c f := by
  rw [gapFrames.eq_def] at hf
  split at hf
  · split_ifs at hf
    · rw [List.mem_singleton.mp hf]
      exact hplain.replayGap c _ _
    · exact absurd hf (by simp)
  · exact absurd hf (by simp)

lemma frame_of_mem_replayFrames {env : Env} {id : String} {lastSeq : Option ℕ} {f : Frame} {c : ℕ}
    (h : o.OfConnect s id c) (hf : f ∈ replayFrames env s id lastSeq) : o.frame c f := by
  rw [replayFrames.eq_def] at hf
  split at hf
  · rw [ReplayBuffer.replaySince_eq] at hf
    obtain ⟨m, hm, rfl⟩ := List.mem_map.mp hf
    exact h.replayed m (List.mem_of_mem_filter hm)
  · exact absurd hf (by simp)

include hplain in
/-- `run_client` in a state that has the places of `s`. -/
lemma supplies_runClient {env : Env} {id token : String} {auth : Auth} {lastSeq : Option ℕ}
    {restored : List String} {K : Conn} {s' : AppState} (h : o.OfConnect s id s.nextChan)
    (hrun : runClient env t id token auth lastSeq restored = .admitted K s')
    (ht : t.stores = s.stores) (hnext : t.nextChan = s.nextChan) : Supplies o s s' := by
  rw [runClient] at hrun
  obtain ⟨-, rfl⟩ := Outcome.admitted.inj hrun
  rw [← hnext] at h
  have hrest : t.stores.2 = s.stores.2 := congrArg Prod.snd ht
  have hopen : Supplies o s (t.newChannel.setSender id t.nextChan) :=
    ((supplies_newChannel t).after_stores ht).then_stores rfl
  refine ((hopen.trans (supplies_send _ _ fun f hf => ?_)).trans
    (supplies_deliverQueuedMessages env _ id _ (h.of_stores hrest).queued)).trans
    (supplies_send _ _ fun f hf => ?_)
  · rcases List.mem_cons.mp hf with rfl | hf
    · exact hplain.open_ _
    · exact frame_of_mem_gapFrames hplain _ hf
  · obtain ⟨key, -, hmap⟩ := List.mem_filterMap.mp hf
    obtain ⟨members, -, rfl⟩ := Option.map_eq_some_iff.mp hmap
    exact hplain.roomPeers _ _ _

/-- Restoring a session changes memberships only. -/
lemma stores_restoreSession (s : AppState) (id : String) :
    (restoreSession s id).stores = s.stores ∧ (restoreSession s id).nextChan = s.nextChan := by
  rw [restoreSession.eq_def]
  split
  · exact ⟨rfl, rfl⟩
  · exact ⟨rfl, rfl⟩

include hplain in
lemma supplies_admitSocket (env : Env) (cfg : Config) (s : AppState) (id token : String)
    (auth : Auth) (lastSeq : Option ℕ) {K : Conn} {s' : AppState}
    (h : o.OfConnect s id s.nextChan)
    (hopened : admitSocket env cfg s id token auth lastSeq = .admitted K s') :
    Supplies o s s' := by
  rcases runClient_of_admitSocket hopened with ⟨-, t, restored, rfl, hrun⟩ | ⟨-, -, t, rfl, hrun⟩
  · obtain ⟨hstores, hnext⟩ := stores_restoreSession
      ((s.insertClient env.now id token .WebSocket).insertTenant id auth.tenantId) id
    exact supplies_runClient hplain h hrun hstores hnext
  · exact supplies_runClient hplain h hrun (stores_redisRegisterClient env
      { s with activeConnections := s.activeConnections + 1 } id token) rfl

include hplain in
/-- `sse_handler` in a state that has the places of `s`. -/
lemma supplies_openStream {env : Env} {q : HttpQuery} {auth : Auth} {K : Conn} {s' : AppState}
    (h : o.OfConnect s q.id s.nextChan) (hopen : openStream env t q auth = .admitted K s')
    (ht : t.stores = s.stores) (hnext : t.nextChan = s.nextChan) : Supplies o s s' := by
  rw [openStream] at hopen
  obtain ⟨-, rfl⟩ := Outcome.admitted.inj hopen
  rw [← hnext] at h
  have hregister : (t.redisRegisterClient env q.id q.token).stores = s.stores :=
    (stores_redisRegisterClient env t q.id q.token).trans ht
  have hrest : (t.redisRegisterClient env q.id q.token).stores.2 = s.stores.2 :=
    congrArg Prod.snd hregister
  have hnew := (supplies_newChannel (o := o) (t.redisRegisterClient env q.id q.token)).after_stores
    hregister
  refine (((hnew.then_stores ?_).trans (supplies_send _ _ fun f hf => ?_)).trans
    (supplies_deliverQueuedMessages env _ q.id _ (h.of_stores ?_).queued)).trans
    (supplies_send _ _ fun f hf => ?_)
  · rfl
  · rw [List.mem_singleton.mp hf]
    exact hplain.open_ _
  · exact hrest
  · rcases List.mem_append.mp hf with hf | hf
    · exact frame_of_mem_gapFrames hplain _ hf
    · rw [replayFrames.eq_def, replayBuffer_deliverQueuedMessages] at hf
      exact frame_of_mem_replayFrames (h.of_stores hrest) hf

/-- The checks of an HTTP request leave the stores and the channels alone. -/
lemma frame_of_claimId {cfg : Config} {id token : String} {claims : Option Value}
    (h : claimId cfg (s.storeClaims id claims) id token = (t, none)) :
    t.stores = s.stores ∧ t.wsSenders = s.wsSenders ∧ t.pollingReceivers = s.pollingReceivers ∧
      t.nextChan = s.nextChan := by
  obtain ⟨n, hn⟩ := claimId_counter cfg (s.storeClaims id claims) id token
  rw [h] at hn
  dsimp only at hn
  subst hn
  exact ⟨rfl, rfl, rfl, rfl⟩

/-- The pair of a polling client is the stored one, or on a new channel. -/
lemma pollingPair_cases (s : AppState) (id : String) :
    (s.pollingReceivers.lookup id = some (pollingPair s id).2.2 ∧
        s.wsSenders.lookup id = some (pollingPair s id).2.1 ∧
        (pollingPair s id).1.stores = s.stores) ∨
      ((pollingPair s id).2.2 = s.nextChan ∧ (pollingPair s id).2.1 = s.nextChan ∧
        (pollingPair s id).1.stores = s.newChannel.stores) := by
  rw [pollingPair.eq_def]
  split
  · rename_i rx tx hrx htx
    exact Or.inl ⟨hrx, htx, rfl⟩
  · exact Or.inr ⟨rfl, rfl, rfl⟩

/-- The registration of a poll, in a state that has the queues of `s`. -/
lemma registerPoll_cases (env : Env) (s : AppState) (isNewClient : Bool) (tx : ℕ) (q : HttpQuery)
    (auth : Auth) :
    (registerPoll env s isNewClient tx q auth).replayBuffer = s.replayBuffer ∧
      (registerPoll env s isNewClient tx q auth).seqCounter = s.seqCounter ∧
      ∀ o : Origin, o.Plain → o.OfQueue s q.id tx →
        Supplies o s (registerPoll env s isNewClient tx q auth) := by
  rw [registerPoll]
  split_ifs
  · refine ⟨replayBuffer_deliverQueuedMessages env _ q.id tx, ?_, fun o hplain h => ?_⟩
    · rw [deliverQueuedMessages]
      split_ifs <;> rfl
    · have hregister := stores_redisRegisterClient env s q.id q.token
      have hqueue : (s.redisRegisterClient env q.id q.token).redis.queue = s.redis.queue :=
        congrArg (fun p => p.2.1) hregister
      refine Supplies.trans (Supplies.after_stores (supplies_send _ tx fun f hf => ?_) ?_)
        (supplies_deliverQueuedMessages env _ q.id tx ?_)
      · rw [List.mem_singleton.mp hf]
        exact hplain.open_ tx
      · exact hregister
      · exact h.of_queue hqueue
  · exact ⟨rfl, rfl, fun o _ _ => Supplies.of_stores rfl⟩

/-- The pair a poll works with: the stored sender `tx` and receiver `rx` of the
id, or both on a new channel; `chans` are the channels with the pair. -/
inductive PollPair (s : AppState) (id : String) (tx rx : ℕ) (chans : ℕ → Channel) : Prop
  | stored (hrx : s.pollingReceivers.lookup id = some rx) (htx : s.wsSenders.lookup id = some tx)
      (hchans : chans = s.chans) : PollPair s id tx rx chans
  | fresh (hrx : rx = s.nextChan) (htx : tx = s.nextChan) (hchans : chans = s.newChannel.chans) :
      PollPair s id tx rx chans

/-- A poll is a pair of channel ends, the registration, and then the gap and
the messages since the requested sequence number. -/
lemma pollHandler_admitted {env : Env} {cfg : Config} {q : HttpQuery} {K : Conn} {s' : AppState}
    (h : pollHandler env cfg s q = .admitted K s') :
    ∃ v t tx, s' = t.send tx (gapFrames t q.id q.lastSeq ++ replayFrames env t q.id q.lastSeq) ∧
      t.replayBuffer = s.replayBuffer ∧ t.seqCounter = s.seqCounter ∧
      PollPair s q.id tx K.chan v.chans ∧ v.stores.2 = s.stores.2 ∧
      ∀ o : Origin, o.Plain → o.OfQueue s q.id tx → Supplies o v t := by
  rcases pollHandler_cases env cfg s q with ⟨_, heq⟩ | ⟨auth, u, _, -, hclaim, rfl, heq⟩
  · exact absurd (heq.symm.trans h) (by simp)
  obtain ⟨hstores, hsenders, hreceivers, hnext⟩ := frame_of_claimId hclaim
  have hpair := pollingPair_cases u q.id
  have hout := heq.symm.trans h
  generalize pollingPair u q.id = pair at hout hpair
  obtain ⟨v, tx, rx⟩ := pair
  obtain ⟨hbuffer, hcounter, hregister⟩ := registerPoll_cases env v
    (s.clients.lookup q.id).isNone tx q auth
  have hv : v.stores.2 = s.stores.2 := by
    have hrest : u.stores.2 = s.stores.2 := congrArg Prod.snd hstores
    rcases hpair with ⟨-, -, hvu⟩ | ⟨-, -, hvu⟩
    · exact (congrArg Prod.snd hvu).trans hrest
    · exact (congrArg Prod.snd hvu).trans hrest
  have hchans : u.chans = s.chans := congrArg Prod.fst hstores
  obtain ⟨rfl, rfl⟩ := Outcome.admitted.inj hout
  refine ⟨v, _, tx, rfl, hbuffer.trans (congrArg (fun p => p.2.1) hv),
    hcounter.trans (congrArg (fun p => p.2.2.2) hv), ?_, hv, fun o hplain h => ?_⟩
  · rcases hpair with ⟨hrx, htx, hvu⟩ | ⟨hrx, htx, hvu⟩
    · rw [hreceivers] at hrx
      rw [hsenders] at htx
      exact PollPair.stored hrx htx ((congrArg Prod.fst hvu).trans hchans)
    · rw [hnext] at hrx htx
      refine PollPair.fresh hrx htx ((congrArg Prod.fst hvu).trans ?_)
      simp only [AppState.stores, AppState.newChannel, hchans, hnext]
  · exact hregister o hplain (h.of_queue (congrArg Prod.fst hv))

include hplain in
lemma supplies_pollHandler {env : Env} {cfg : Config} {q : HttpQuery} {K : Conn} {s' : AppState}
    (h : ∀ c, c = s.nextChan ∨ s.wsSenders.lookup q.id = some c → o.OfConnect s q.id c)
    (hpoll : pollHandler env cfg s q = .admitted K s') : Supplies o s s' := by
  obtain ⟨v, t, tx, rfl, hbuffer, -, hpair, hv, ht⟩ := pollHandler_admitted hpoll
  have hof : o.OfConnect s q.id tx := by
    cases hpair with
    | stored hrx htx hchans => exact h tx (Or.inr htx)
    | fresh hrx htx hchans => exact h tx (Or.inl htx)
  have hsv : Supplies o s v := by
    refine Supplies.of_chans (fun c => ?_) hv
    cases hpair with
    | stored hrx htx hchans =>
        rw [hchans]
        exact Grows.refl _ _
    | fresh hrx htx hchans =>
        rw [hchans]
        exact (supplies_newChannel s).chans c
  refine (hsv.trans (ht o hplain hof.queued)).trans (supplies_send t tx fun f hf => ?_)
  rcases List.mem_append.mp hf with hf | hf
  · exact frame_of_mem_gapFrames hplain _ hf
  · rw [replayFrames.eq_def, hbuffer] at hf
    exact frame_of_mem_replayFrames hof hf

include hplain in
/-- An admitted connect puts on its channel what is queued and buffered for its
id. -/
lemma supplies_connect {env : Env} {cfg : Config} {r : Request} {K : Conn} {s' : AppState}
    (h : ∀ id, r.id = some id → ∀ c, c = s.nextChan ∨ s.wsSenders.lookup id = some c →
      o.OfConnect s id c)
    (hconnect : connect env cfg s r = .admitted K s') : Supplies o s s' := by
  cases r with
  | ws q =>
      rcases handleSocket_cases env cfg s q with ⟨_, heq, -⟩ | ⟨id, token, auth, h'⟩
      · exact absurd (heq.symm.trans hconnect) (by simp)
      obtain ⟨hid, -, -, -, -, -, heq⟩ := h'
      have hstored : o.OfConnect (s.storeClaims id auth.claims) id s.nextChan :=
        (h id hid s.nextChan (Or.inl rfl)).of_stores rfl
      exact Supplies.after_stores (supplies_admitSocket hplain env cfg
        (s.storeClaims id auth.claims) id token auth q.lastSeq hstored
        (heq.symm.trans hconnect)) rfl
  | sse q =>
      rcases sseHandler_cases env cfg s q with ⟨_, heq⟩ | ⟨auth, t, -, hclaim, heq⟩
      · exact absurd (heq.symm.trans hconnect) (by simp)
      obtain ⟨hstores, -, -, hnext⟩ := frame_of_claimId hclaim
      exact supplies_openStream hplain (h q.id rfl s.nextChan (Or.inl rfl))
        (heq.symm.trans hconnect) hstores hnext
  | poll q => exact supplies_pollHandler hplain (h q.id rfl) hconnect

/-! ### Disconnecting and background passes -/

include hplain in
lemma supplies_teardown (env : Env) (cfg : Config) (s : AppState) (id : String) :
    Supplies o s (teardown env cfg s id) := by
  rw [teardown]
  exact ((supplies_removeClientFromAllRooms hplain env cfg _ id).then_stores
    (stores_redisRemoveClient env _ id)).after_stores rfl

include hplain in
lemma supplies_closeSocket (env : Env) (cfg : Config) (s : AppState) (id : String) (c : ℕ) :
    Supplies o s (closeSocket env cfg s id c) := by
  rw [closeSocket]
  refine Supplies.trans ?_ (supplies_closeChannel _ c)
  split_ifs
  · exact supplies_teardown hplain env cfg s id
  · exact Supplies.refl o s

include hplain in
lemma supplies_cleanupClient (env : Env) (cfg : Config) (s : AppState) (id : String) :
    Supplies o s (cleanupClient env cfg s id) := by
  rw [cleanupClient]
  exact (supplies_teardown hplain env cfg _ id).after_stores rfl

lemma supplies_evictBroken (env : Env) (cfg : Config) (s : AppState) :
    Supplies o s (evictBroken env cfg s) := by
  rw [evictBroken]
  refine Supplies.foldl fun t id _ => ?_
  rw [evictClient]
  exact ((supplies_redisClearMessageQueue env _ id).after_stores rfl).then_stores
    (stores_redisRemoveClient env _ id)

lemma supplies_replayEvict (env : Env) (s : AppState) : Supplies o s (replayEvict env s) :=
  Supplies.of_replayBuffer fun key => by
    rcases ReplayBuffer.held_evictExpired s.replayBuffer env.now env.order key with heq | heq
    · rw [heq]
      exact Grows.of_sublist (List.dropWhile_sublist _)
    · rw [heq]
      exact Grows.refl _ _

lemma supplies_deliver (s : AppState) (c n : ℕ) : Supplies o s (s.deliver c n) := by
  refine Supplies.of_chans (fun i => ?_) rfl
  by_cases hi : i = c
  · simp only [AppState.deliver, if_pos hi]
    rw [hi]
    exact Grows.of_sublist (List.drop_sublist n _)
  · simp only [AppState.deliver, if_neg hi]
    exact Grows.refl _ _

/-- A pair of an expiry notice belongs to a queued message. -/
lemma exists_of_mem_expireNotices {seen : List String} {entries : List QueueEntry}
    {pair : String × String} (h : pair ∈ expireNotices seen entries) :
    ∃ entry ∈ entries, ∃ msg, entry.parse = some msg ∧
      pair = (msg.src.getD "", msg.dst.getD "") := by
  induction entries generalizing seen with
  | nil => exact absurd h (by simp [expireNotices])
  | cons entry entries ih =>
      have hrest : ∀ seen, pair ∈ expireNotices seen entries → ∃ entry' ∈ entry :: entries,
          ∃ msg, entry'.parse = some msg ∧ pair = (msg.src.getD "", msg.dst.getD "") := by
        intro seen hmem
        obtain ⟨entry', hentry', hmsg⟩ := ih hmem
        exact ⟨entry', List.mem_cons_of_mem _ hentry', hmsg⟩
      cases entry with
      | malformed text =>
          rw [expireNotices_malformed] at h
          exact hrest seen h
      | message msg =>
          rw [expireNotices_message] at h
          split_ifs at h
          · exact hrest seen h
          · rcases List.mem_cons.mp h with rfl | hmem
            · exact ⟨.message msg, List.mem_cons_self, msg, rfl, rfl⟩
            · exact hrest _ hmem

/-- The queue of `id` expires in a pass of `messages_expire`. -/
def QueueExpires (env : Env) (cfg : Config) (s : AppState) (id : String) : Prop :=
  env.redisOk .getClientIdsWithQueue "" = true ∧ id ∈ s.redis.queues ∧
    ¬env.now - queueLastReadAt env s id < asI64 cfg.expireTimeout

variable (o) in
/-- The notices for the messages in the queue of `id` are accounted for. -/
def Origin.OfExpiry (s : AppState) (id : String) : Prop :=
  ∀ entry msg, s.Queued id entry → entry.parse = some msg →
    ∀ c, o.frame c (.expire (msg.dst.getD "") (msg.src.getD ""))

lemma supplies_expireQueue (env : Env) (cfg : Config) (s : AppState) (id : String)
    (h : ¬env.now - queueLastReadAt env s id < asI64 cfg.expireTimeout → o.OfExpiry s id) :
    Supplies o s (expireQueue env cfg s id) := by
  rw [expireQueue]
  split_ifs with hfresh
  · exact Supplies.refl o s
  · refine ((Supplies.of_stores (stores_redisTouchQueue env s id)).trans
      (Supplies.foldl fun t pair hpair => supplies_sendTo t _ fun c f hf => ?_)).trans
      (supplies_redisClearMessageQueue env _ id)
    obtain ⟨entry, hentry, msg, hparse, rfl⟩ := exists_of_mem_expireNotices hpair
    rw [List.mem_singleton.mp hf]
    exact h hfresh entry msg (queued_of_mem_redisQueue hentry) hparse c

/-- The expiry of one queue does not touch another one. -/
lemma expireQueue_of_ne (env : Env) (cfg : Config) (s : AppState) {id other : String}
    (hne : other ≠ id) :
    (expireQueue env cfg s id).redis.queue.lookup other = s.redis.queue.lookup other ∧
      (expireQueue env cfg s id).redis.queueMeta.lookup other =
        s.redis.queueMeta.lookup other := by
  rw [redis_expireQueue]
  split_ifs
  · exact ⟨rfl, rfl⟩
  · simp only [redisClearMessageQueue, redisTouchQueue]
    split_ifs <;> simp [hne]

/-- A pass of `messages_expire` sends notices for the queues that expire. -/
lemma supplies_messagesExpire (env : Env) (cfg : Config) (s : AppState)
    (h : ∀ id, QueueExpires env cfg s id → o.OfExpiry s id) :
    Supplies o s (messagesExpire env cfg s) := by
  rw [messagesExpire]
  split_ifs with hlisted
  · have hids : ∀ id ∈ env.order.toList s.redis.queues,
        ¬env.now - queueLastReadAt env s id < asI64 cfg.expireTimeout → o.OfExpiry s id :=
      fun id hid hold => h id ⟨hlisted, env.order.mem_toList.mp hid, hold⟩
    have hnodup := env.order.nodup_toList s.redis.queues
    generalize env.order.toList s.redis.queues = ids at hids hnodup
    clear h
    induction ids generalizing s with
    | nil => exact Supplies.refl o s
    | cons id ids ih =>
        obtain ⟨hnotin, hnodup⟩ := List.nodup_cons.mp hnodup
        refine (supplies_expireQueue env cfg s id (hids id (by simp))).trans
          (ih _ (fun other hother hold => ?_) hnodup)
        -- the queues not visited yet are as they were
        have hne : other ≠ id := fun heq => hnotin (heq ▸ hother)
        obtain ⟨hqueue, hmeta⟩ := expireQueue_of_ne env cfg s hne
        rw [queueLastReadAt, hmeta] at hold
        intro entry msg hq
        rw [AppState.Queued, hqueue] at hq
        exact hids other (List.mem_cons_of_mem id hother) hold entry msg hq
  · exact Supplies.refl o s

/-! ### Steps -/

variable (o) in
/-- What a step can put somewhere is accounted for. -/
structure Origin.OfStep (cfg : Config) (w : World) (l : Label) : Prop where
  message : ∀ id msg, incoming cfg w l.event = some (id, msg) →
    allowed l.env id msg.type_ = true → o.OfMessage l.env w.app id msg
  connect : ∀ r K s', l.event = .connect r → connect l.env cfg w.app r = .admitted K s' → ∀ c,
    c = w.app.nextChan ∨ w.app.wsSenders.lookup K.id = some c → o.OfConnect w.app K.id c
  expiry : l.event = .expireMessages → ∀ id, QueueExpires l.env cfg w.app id →
    o.OfExpiry w.app id
  redis : ∀ redis id entries entry, l.event = .redisChange redis →
    redis.queue.lookup id = some entries → entry ∈ entries →
    w.app.Queued id entry ∨ o.entry id entry

include hplain in
/-- What every step puts somewhere. -/
theorem supplies_step {cfg : Config} {w w' : World} {l : Label} (h : o.OfStep cfg w l)
    (hstep : step cfg w l = some w') : Supplies o w.app w'.app := by
  have hreacts := reacts_of_step hstep
  obtain ⟨env, ev⟩ := l
  generalize w'.app = s' at hreacts ⊢
  dsimp only at hreacts
  cases hreacts with
  | refused r =>
      refine Supplies.of_stores ?_
      cases storedClaims env cfg r with
      | none => rfl
      | some pair => rfl
  | admitted r K s' hout =>
      refine supplies_connect hplain (fun id hid => ?_) hout
      have hadm := (connect_admitted hout).admittedFor
      rw [← Option.some.inj (hadm.id.symm.trans hid)]
      exact h.connect r K s' rfl hout
  | wsText k len parsed K hK =>
      refine supplies_wsText hplain env cfg w.app K.chan K.id len parsed fun msg hlen hmsg => ?_
      refine h.message K.id msg ?_
      simp [incoming, hK, hlen, hmsg]
  | httpSend id token parsed =>
      refine supplies_sendHandler hplain env cfg w.app id token parsed
        fun client msg hclient htoken hmsg => ?_
      refine h.message id msg ?_
      simp [incoming, hclient, htoken, hmsg, Option.filter]
  | wsClose k K hK => exact supplies_closeSocket hplain env cfg w.app K.id K.chan
  | receiverDrop k K hK hpoll => exact supplies_closeChannel w.app K.chan
  | watchdogTick k K hK => exact supplies_cleanupClient hplain env cfg w.app K.id
  | streamEnd k K hK =>
      exact (supplies_cleanupClient hplain env cfg w.app K.id).trans (supplies_closeChannel _ _)
  | nothing ev k hev => exact Supplies.refl o w.app
  | deliver c n => exact supplies_deliver w.app c n
  | evictBroken => exact supplies_evictBroken env cfg w.app
  | reconcile => exact Supplies.of_stores rfl
  | expireSessions => exact supplies_cleanupExpiredSessions hplain env cfg w.app
  | expireMessages => exact supplies_messagesExpire env cfg w.app (h.expiry rfl)
  | evictReplay => exact supplies_replayEvict env w.app
  | redisChange redis =>
      refine ⟨(Supplies.refl o w.app).chans, ?_, (Supplies.refl o w.app).buffer,
        (Supplies.refl o w.app).presence, le_refl _⟩
      rintro id entry ⟨entries, hentries, hentry⟩
      exact h.redis redis id entries entry rfl hentries hentry

/-- A step with a message that is not throttled is a call of `handle_message`,
after its bucket was charged and, over HTTP, the heartbeat recorded. -/
lemma handled_of_incoming {cfg : Config} {w w' : World} {l : Label} {id : String} {msg : Message}
    (hstep : step cfg w l = some w') (hin : incoming cfg w l.event = some (id, msg))
    (hallowed : allowed l.env id msg.type_ = true) :
    ∃ clients rateLimiter, w' = ⟨handleMessage l.env cfg
      { w.app with clients := clients, rateLimiter := rateLimiter } id msg, w.conns⟩ := by
  have hreceive : ∀ s : AppState, ∃ rateLimiter, receive l.env cfg s id msg =
      (handleMessage l.env cfg { s with rateLimiter := rateLimiter } id msg, true) := by
    intro s
    rw [receive]
    dsimp only
    rw [(meter_eq l.env s id msg.type_).1, hallowed, meter]
    cases msg.type_.bucket with
    | none => exact ⟨s.rateLimiter, rfl⟩
    | some bucket => exact ⟨_, rfl⟩
  obtain ⟨env, ev⟩ := l
  cases ev with
  | wsText k len parsed =>
      obtain ⟨K, hK, hw⟩ := Option.map_eq_some_iff.mp hstep
      obtain ⟨K', hK', hparsed⟩ := Option.bind_eq_some_iff.mp hin
      rw [hK, Option.some.injEq] at hK'
      subst hK'
      split_ifs at hparsed with hlen
      obtain ⟨msg', hmsg', hpair⟩ := Option.map_eq_some_iff.mp hparsed
      obtain ⟨hid, rfl⟩ := Prod.mk.inj hpair
      obtain ⟨rateLimiter, hrec⟩ := hreceive w.app
      refine ⟨w.app.clients, rateLimiter, ?_⟩
      rw [← hw, wsText.eq_def, if_neg hlen, hmsg', hid]
      dsimp only at hrec ⊢
      rw [hrec]
      rfl
  | httpSend id' token parsed =>
      obtain ⟨client, hclient, hparsed⟩ := Option.bind_eq_some_iff.mp hin
      obtain ⟨hlookup, htoken⟩ := Option.filter_eq_some_iff.mp hclient
      obtain ⟨msg', hmsg', hpair⟩ := Option.map_eq_some_iff.mp hparsed
      obtain ⟨rfl, rfl⟩ := Prod.mk.inj hpair
      obtain ⟨rateLimiter, hrec⟩ := hreceive (w.app.touch env.now id')
      refine ⟨(w.app.touch env.now id').clients, rateLimiter, ?_⟩
      rw [← Option.some.inj hstep, sendHandler, hlookup, hmsg']
      dsimp only at hrec ⊢
      rw [if_pos (of_decide_eq_true htoken), hrec]
      rfl
  | _ => exact absurd hin (by simp [incoming])

end Rules

/-! ### What the queues hold -/

section Queues

variable (Q : String → Message → Prop)

/-- Every message in a Redis queue has the property, for the id of the queue. -/
def QueuesHold (s : AppState) : Prop := ∀ id msg, s.Queued id (.message msg) → Q id msg

/-- What Redis puts into the queues on its own has the property. -/
def RedisHolds (l : Label) : Prop :=
  ∀ redis id entries msg, l.event = .redisChange redis → redis.queue.lookup id = some entries →
    .message msg ∈ entries → Q id msg

/-- The account of the queues alone. -/
def queueOrigin : Origin where
  frame _ _ := True
  entry id entry := ∀ msg, entry = .message msg → Q id msg
  buffered _ _ := True
  presence _ _ _ := True

variable {Q}

lemma queuesHold_of_step
    (hQ : ∀ id dst (msg : Message), msg.type_.isTransmission = true → msg.dst = some dst →
      Q dst { msg with src := some id })
    {cfg : Config} {w w' : World} {l : Label} (h : QueuesHold Q w.app)
    (hstep : step cfg w l = some w') (hredis : RedisHolds Q l) : QueuesHold Q w'.app := by
  have hplain : (queueOrigin Q).Plain :=
    ⟨fun _ => trivial, fun _ _ => trivial, fun _ _ _ => trivial, fun _ _ _ => trivial,
      fun _ _ _ => trivial⟩
  have hof : (queueOrigin Q).OfStep cfg w l := by
    refine ⟨fun id msg _ _ => ?_, fun r K s' _ _ c _ => ?_, fun _ id _ entry msg _ _ c => trivial,
      fun redis id entries entry hev hl hmem => Or.inr ?_⟩
    · refine ⟨fun _ _ => trivial, fun htype dst hdst msg' hmsg' => ?_, fun _ _ _ _ _ _ _ => trivial,
        fun _ _ => trivial, fun _ _ => trivial, fun _ _ _ _ _ _ _ => trivial,
        fun _ _ _ _ _ => trivial, fun _ _ => trivial⟩
      rw [← QueueEntry.message.inj hmsg']
      exact hQ id dst msg htype hdst
    · exact ⟨fun _ _ _ _ => trivial, fun _ _ => trivial⟩
    · rintro msg rfl
      exact hredis redis id entries msg hev hl hmem
  intro id msg hqueued
  rcases (supplies_step hplain hof hstep).queue id _ hqueued with hold | hnew
  · exact h id msg hold
  · exact hnew msg rfl

/-- What the messages between peers have in common, the messages in the queues
have in every run. -/
lemma queuesHold_of_run
    (hQ : ∀ id dst (msg : Message), msg.type_.isTransmission = true → msg.dst = some dst →
      Q dst { msg with src := some id })
    {cfg : Config} {w w' : World} {ls : List Label} (h : QueuesHold Q w.app)
    (hredis : AllSteps (step cfg) (fun _ l _ => RedisHolds Q l) w ls)
    (hrun : run (step cfg) w ls = some w') : QueuesHold Q w'.app :=
  run_invariant (I := fun w : World => QueuesHold Q w.app)
    (fun _ _ _ hw hstep hP => queuesHold_of_step hQ hw hstep hP) h hredis hrun

end Queues

end Dendri
