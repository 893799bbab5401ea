import Dendri.Properties.RoomLimits
import Dendri.Properties.Supplies

/-!
Presence data and room members, over whole runs. The removal of a client from a
room takes its presence data away, and that of the room when it was the last
member; `PRESENCE-UPDATE` stores data for any room, without looking at `rooms`.

* `PresenceFits`: only rooms have presence data, and only of their members;
* `PresenceOfMembers`: the same, with the bounds that follow: the presence map
  has at most as many rooms as `rooms`, and a client data in at most as many
  rooms as it is in;
* `fits_iff_of_step`, `presence_of_members_iff`: a step, and then a run, keeps
  this just when presence data comes from members only;
* `presence_without_room`: data of a client that joined nothing.
-/

namespace Dendri

open AppState Transition

/-! ### The property -/

/-- Only rooms have presence data, and only of their members. -/
structure PresenceFits (s : AppState) : Prop where
  rooms : ∀ key ∈ s.presence.keys, key ∈ s.rooms.keys
  peers : ∀ key id payload, s.Present key id payload → s.ledger.member id key

/-- The rooms a client has presence data in. -/
def AppState.presentIn (s : AppState) (id : String) : Finset String :=
  s.presence.keys.filter fun key => id ∈ (s.presence.lookup key).getD ∅

/-- Presence data is of members only, so that limits on rooms bound it. -/
structure PresenceOfMembers (s : AppState) : Prop extends PresenceFits s where
  total : s.presence.keys.card ≤ s.rooms.keys.card
  perClient : ∀ id, (s.presentIn id).card ≤ (s.roomsOf id).card

lemma present_of_mem {s : AppState} {id key : String} (h : key ∈ s.presentIn id) :
    ∃ payload, s.Present key id payload := by
  have hmem := (Finset.mem_filter.mp h).2
  cases hl : s.presence.lookup key with
  | none =>
      rw [hl] at hmem
      exact absurd hmem Finmap.notMem_empty
  | some entries =>
      rw [hl, Option.getD_some] at hmem
      obtain ⟨payload, hp⟩ := Finmap.mem_iff.mp hmem
      exact ⟨payload, entries, hl, hp⟩

lemma PresenceFits.ofMembers {s : AppState} (h : PresenceFits s) : PresenceOfMembers s where
  toPresenceFits := h
  total := Finset.card_le_card h.rooms
  perClient id := by
    refine Finset.card_le_card fun key hkey => ?_
    obtain ⟨payload, hp⟩ := present_of_mem hkey
    exact mem_roomsOf.mpr (h.peers key id payload hp)

/-! ### The operations -/

/-- Presence data stays as it is, and no member is removed. -/
lemma PresenceFits.of_grow {s t : AppState} (h : PresenceFits s) (hn : NoEmptyRoom s)
    (hpresence : t.presence = s.presence)
    (hmember : ∀ id key, s.ledger.member id key → t.ledger.member id key) : PresenceFits t := by
  refine ⟨fun key hkey => ?_, fun key id payload hp => ?_⟩
  · rw [hpresence] at hkey
    obtain ⟨id, hid⟩ := exists_member hn (h.rooms key hkey)
    exact mem_keys_of_member (hmember id key hid)
  · rw [AppState.Present, hpresence] at hp
    exact hmember id key (h.peers key id payload hp)

lemma PresenceFits.of_maps {s t : AppState} (h : PresenceFits s)
    (hpresence : t.presence = s.presence) (hrooms : t.rooms = s.rooms) : PresenceFits t := by
  refine ⟨fun key hkey => ?_, fun key id payload hp => ?_⟩
  · rw [hrooms]
    rw [hpresence] at hkey
    exact h.rooms key hkey
  · rw [AppState.Present, hpresence] at hp
    obtain ⟨members, hl, hid⟩ := h.peers key id payload hp
    exact ⟨members, by rw [hrooms, hl], hid⟩

lemma PresenceFits.joinRoom {s : AppState} (h : PresenceFits s) (hn : NoEmptyRoom s)
    (id key : String) : PresenceFits (joinRoom s id key) := by
  refine h.of_grow hn rfl fun d key' hm => ?_
  rw [ledger_joinRoom]
  exact Or.inl hm

/-- The presence data after a removal from one room. -/
lemma lookup_presence_removeClientFromRoom (s : AppState) (id key room : String) :
    (removeClientFromRoom s id key).presence.lookup room =
      match s.rooms.lookup key with
      | none => s.presence.lookup room
      | some members =>
          if room = key then
            if members.erase id = ∅ then none
            else (s.presence.lookup key).map fun p => p.erase id
          else s.presence.lookup room := by
  rw [removeClientFromRoom]
  cases hm : s.rooms.lookup key with
  | none => rfl
  | some members =>
      dsimp only
      by_cases hempty : members.erase id = ∅
      · simp only [hempty, if_true, FinMap.lookup_erase_ite, FinMap.lookup_modify]
        split_ifs <;> rfl
      · simp only [hempty, if_false, fanOut, FinMap.lookup_modify]

lemma PresenceFits.removeClientFromRoom {s : AppState} (h : PresenceFits s) (id key : String) :
    PresenceFits (removeClientFromRoom s id key) := by
  have hrooms := lookup_rooms_removeClientFromRoom s id key
  have hpresence := lookup_presence_removeClientFromRoom s id key
  refine ⟨fun room hroom => ?_, fun room d payload hp => ?_⟩
  · obtain ⟨entries, hentries⟩ := Finmap.mem_iff.mp (Finmap.mem_keys.mp hroom)
    rw [hpresence] at hentries
    rw [Finmap.mem_keys, ← Finmap.lookup_isSome, hrooms]
    have hold : ∀ e, s.presence.lookup room = some e → (s.rooms.lookup room).isSome = true :=
      fun e he => Finmap.lookup_isSome.mpr (Finmap.mem_keys.mp (h.rooms room
        (Finmap.mem_keys.mpr (Finmap.mem_of_lookup_eq_some he))))
    cases hm : s.rooms.lookup key with
    | none =>
        rw [hm] at hentries
        have hkey := hold entries hentries
        have hne : room ≠ key := fun heq => by rw [heq, hm] at hkey; exact absurd hkey (by simp)
        rw [if_neg hne]
        exact hkey
    | some members =>
        rw [hm] at hentries
        dsimp only at hentries
        split_ifs at hentries ⊢ with hroom hempty
        · rw [Option.bind_some, if_neg hempty]
          rfl
        · exact hold entries hentries
  · obtain ⟨entries, hentries, hpayload⟩ := hp
    rw [hpresence] at hentries
    rw [AppState.ledger]
    dsimp only
    rw [hrooms]
    cases hm : s.rooms.lookup key with
    | none =>
        rw [hm] at hentries
        obtain ⟨members, hl, hd⟩ := h.peers room d payload ⟨entries, hentries, hpayload⟩
        have hne : room ≠ key := fun heq => by rw [heq, hm] at hl; exact absurd hl (by simp)
        rw [if_neg hne]
        exact ⟨members, hl, hd⟩
    | some members =>
        rw [hm] at hentries
        dsimp only at hentries
        split_ifs at hentries ⊢ with hroom hempty
        · obtain ⟨old, hold, rfl⟩ := Option.map_eq_some_iff.mp hentries
          rw [FinMap.lookup_erase_ite] at hpayload
          split_ifs at hpayload with hd
          obtain ⟨members', hl, hmem⟩ := h.peers key d payload ⟨old, hold, hpayload⟩
          rw [Option.some.inj (hm.symm.trans hl)] at hempty ⊢
          rw [Option.bind_some, if_neg hempty]
          exact ⟨_, rfl, Finset.mem_erase.mpr ⟨hd, hmem⟩⟩
        · exact h.peers room d payload ⟨entries, hentries, hpayload⟩

lemma PresenceFits.removeClientFromAllRooms {s : AppState} (h : PresenceFits s) (env : Env)
    (cfg : Config) (id : String) : PresenceFits (removeClientFromAllRooms env cfg s id) := by
  exact removeClientFromAllRooms_induction env cfg h (h.of_maps rfl rfl)
    (fun t room ht => ht.removeClientFromRoom id room) (fun _ _ => h.of_maps rfl rfl)
    fun t ht => ht.of_maps rfl rfl

lemma PresenceFits.teardown {s : AppState} (h : PresenceFits s) (env : Env) (cfg : Config)
    (id : String) : PresenceFits (teardown env cfg s id) := by
  have hdrop : PresenceFits (((s.dropClient id).eraseAuth id).removeBuckets id) := h.of_maps rfl rfl
  exact (hdrop.removeClientFromAllRooms env cfg id).of_maps rfl rfl

lemma PresenceFits.cleanupClient {s : AppState} (h : PresenceFits s) (env : Env) (cfg : Config)
    (id : String) : PresenceFits (cleanupClient env cfg s id) := by
  have hpolls : PresenceFits { s with pollingReceivers := s.pollingReceivers.erase id } :=
    h.of_maps rfl rfl
  exact hpolls.teardown env cfg id

lemma PresenceFits.expireSession {s : AppState} (h : PresenceFits s) (id : String) :
    PresenceFits (expireSession s id) := by
  exact expireSession_induction h (h.of_maps rfl rfl) fun t room ht =>
    ht.removeClientFromRoom id room

/-! ### Connecting -/

lemma presence_deliverQueuedMessages (env : Env) (s : AppState) (id : String) (c : ℕ) :
    (deliverQueuedMessages env s id c).presence = s.presence := by
  rw [deliverQueuedMessages]
  split_ifs <;> rfl

lemma presence_restoreSession (s : AppState) (id : String) :
    (restoreSession s id).presence = s.presence := by
  rw [restoreSession]
  split <;> rfl

lemma presence_runClient {env : Env} {s s' : AppState} {id token : String} {auth : Auth}
    {lastSeq : Option ℕ} {restored : List String} {K : Conn}
    (h : runClient env s id token auth lastSeq restored = .admitted K s') :
    s'.presence = s.presence := by
  rw [runClient] at h
  rw [← (Outcome.admitted.inj h).2]
  exact presence_deliverQueuedMessages env _ id _

lemma presence_admitSocket {env : Env} {cfg : Config} {s s' : AppState} {id token : String}
    {auth : Auth} {lastSeq : Option ℕ} {K : Conn}
    (h : admitSocket env cfg s id token auth lastSeq = .admitted K s') :
    s'.presence = s.presence := by
  rcases runClient_of_admitSocket h with ⟨-, t, restored, rfl, hrun⟩ | ⟨-, -, t, rfl, hrun⟩
  · rw [presence_runClient hrun, presence_restoreSession]
    rfl
  · rw [presence_runClient hrun]
    rfl

lemma presence_claimId {cfg : Config} {s t : AppState} {id token : String} {why : Option Refusal}
    (h : claimId cfg s id token = (t, why)) : t.presence = s.presence := by
  obtain ⟨n, hn⟩ := claimId_counter cfg s id token
  rw [h] at hn
  rw [show t = _ from hn]

lemma presence_registerPoll (env : Env) (s : AppState) (isNew : Bool) (tx : ℕ) (q : HttpQuery)
    (auth : Auth) : (registerPoll env s isNew tx q auth).presence = s.presence := by
  rw [registerPoll]
  split_ifs
  · exact presence_deliverQueuedMessages env _ q.id tx
  · rfl

/-- No connect request touches presence data. -/
lemma presence_connect {env : Env} {cfg : Config} {s s' : AppState} {r : Request} {K : Conn}
    (h : connect env cfg s r = .admitted K s') : s'.presence = s.presence := by
  cases r with
  | ws q =>
      rcases handleSocket_cases env cfg s q with ⟨_, heq, -⟩ | ⟨id, token, auth, h'⟩
      · rw [connect, heq] at h
        exact absurd h (by simp)
      · obtain ⟨-, -, -, -, -, -, heq⟩ := h'
        rw [connect, heq] at h
        have hadmit := presence_admitSocket h
        exact hadmit
  | sse q =>
      rcases sseHandler_cases env cfg s q with ⟨_, heq⟩ | ⟨auth, t, -, hclaim, heq⟩
      · rw [connect, heq] at h
        exact absurd h (by simp)
      · rw [connect, heq, openStream] at h
        rw [← (Outcome.admitted.inj h).2]
        have hclaimed := presence_claimId hclaim
        exact (presence_deliverQueuedMessages env _ q.id _).trans hclaimed
  | poll q =>
      rcases pollHandler_cases env cfg s q with ⟨_, heq⟩ | ⟨auth, t, u, -, hclaim, hu, heq⟩
      · rw [connect, heq] at h
        exact absurd h (by simp)
      · rw [connect, heq] at h
        rw [← (Outcome.admitted.inj h).2]
        have hpair : (pollingPair t q.id).1.presence = t.presence := by
          rw [pollingPair]
          split <;> rfl
        have hpoll : u.presence = t.presence := by
          rw [hu, presence_registerPoll, hpair]
        have hclaimed := presence_claimId hclaim
        exact hpoll.trans hclaimed

/-! ### Messages -/

/-- The room a message stores presence data of its sender for. -/
def presents (s : AppState) (clientId : String) (msg : Message) : Option String :=
  if msg.type_ = .PresenceUpdate ∧ msg.payload.isSome then
    msg.room.bind fun room =>
      if isValidIdentifier room then some (roomKey s clientId room) else none
  else none

/-- Data is stored for a room of which the sender has to be a member. -/
lemma fits_store_iff {s t : AppState} {id key payload : String} (h : PresenceFits s)
    (hpresence : t.presence =
      s.presence.insert key (((s.presence.lookup key).getD ∅).insert id payload))
    (hrooms : t.rooms = s.rooms) : PresenceFits t ↔ s.ledger.member id key := by
  have hmember : ∀ d room, t.ledger.member d room ↔ s.ledger.member d room := by
    intro d room
    rw [AppState.ledger, AppState.ledger, hrooms]
  constructor
  · intro ht
    have hp : t.Present key id payload :=
      ⟨_, by rw [hpresence, Finmap.lookup_insert], Finmap.lookup_insert _⟩
    exact (hmember id key).mp (ht.peers key id payload hp)
  · intro hm
    refine ⟨fun room hroom => ?_, fun room d payload' hp => (hmember d room).mpr ?_⟩
    · rw [hrooms]
      rw [hpresence, FinMap.keys_insert, Finset.mem_insert] at hroom
      rcases hroom with rfl | hroom
      · exact mem_keys_of_member hm
      · exact h.rooms room hroom
    · obtain ⟨entries, hentries, hpayload⟩ := hp
      rw [hpresence, FinMap.lookup_insert_ite] at hentries
      split_ifs at hentries with hkey
      · rw [← Option.some.inj hentries, FinMap.lookup_insert_ite] at hpayload
        split_ifs at hpayload with hd
        · rw [hkey, hd]
          exact hm
        · cases hold : s.presence.lookup key with
          | none =>
              rw [hold, Option.getD_none] at hpayload
              exact absurd hpayload (by simp)
          | some old =>
              rw [hold, Option.getD_some] at hpayload
              rw [hkey]
              exact h.peers key d payload' ⟨old, hold, hpayload⟩
      · exact h.peers room d payload' ⟨entries, hentries, hpayload⟩

lemma fits_handlePresenceUpdate_iff {s : AppState} (h : PresenceFits s) (id : String)
    (msg : Message) (htype : msg.type_ = .PresenceUpdate) :
    PresenceFits (handlePresenceUpdate s id msg) ↔
      ∀ key, presents s id msg = some key → s.ledger.member id key := by
  rw [handlePresenceUpdate, presents]
  cases hroom : msg.room with
  | none => simpa using h
  | some room =>
      cases hvalid : isValidIdentifier room with
      | false => simpa [hvalid] using h
      | true =>
          cases hpayload : msg.payload with
          | none =>
              have hkeep : PresenceFits (roomFanOut s id (roomKey s id room) (.relay msg)) :=
                h.of_maps rfl rfl
              simpa [hvalid] using hkeep
          | some payload =>
              have hstore := fits_store_iff (t := roomFanOut
                { s with
                  presence := s.presence.insert (roomKey s id room)
                    (((s.presence.lookup (roomKey s id room)).getD ∅).insert id payload) }
                id (roomKey s id room) (.relay msg)) h rfl rfl
              simpa [htype, hvalid] using hstore

lemma PresenceFits.handleTransmission {s : AppState} (h : PresenceFits s) (env : Env)
    (msg : Message) : PresenceFits (handleTransmission env s msg) := by
  rw [Dendri.handleTransmission]
  by_cases hdst : msg.dst.getD "" ≠ ""
  · rw [if_pos hdst]
    cases s.wsSenders.lookup (msg.dst.getD "") with
    | none => dsimp only; split_ifs <;> exact h.of_maps rfl rfl
    | some c => dsimp only; split_ifs <;> exact h.of_maps rfl rfl
  · rw [if_neg hdst]
    split_ifs <;> exact h.of_maps rfl rfl

lemma PresenceFits.handleData {s : AppState} (h : PresenceFits s) (env : Env) (cfg : Config)
    (id : String) (msg : Message) : PresenceFits (handleData env cfg s id msg) :=
  handleData_induction (h.of_maps rfl rfl) h (fun _ _ _ => h.of_maps rfl rfl)
    (fun _ _ _ _ => h.of_maps rfl rfl) (h.of_maps rfl rfl)

lemma PresenceFits.handleRoomJoin {s : AppState} (h : PresenceFits s) (hn : NoEmptyRoom s)
    (env : Env) (cfg : Config) (id : String) (msg : Message) :
    PresenceFits (handleRoomJoin env cfg s id msg) := by
  rw [Dendri.handleRoomJoin]
  split
  · exact h
  · split
    · exact h.of_maps rfl rfl
    · exact (h.joinRoom hn id _).of_maps rfl rfl

lemma PresenceFits.handleRoomLeave {s : AppState} (h : PresenceFits s) (id : String)
    (msg : Message) : PresenceFits (handleRoomLeave s id msg) := by
  obtain hs | ⟨room, -, -, hs⟩ := handleRoomLeave_cases s id msg
  · rw [hs]
    exact h
  · rw [hs]
    exact h.removeClientFromRoom id _

/-- A message keeps presence data to members just when the data it stores is
that of one. -/
lemma fits_handleMessage_iff {s : AppState} (h : PresenceFits s) (hn : NoEmptyRoom s) (env : Env)
    (cfg : Config) (id : String) (msg : Message) :
    PresenceFits (handleMessage env cfg s id msg) ↔
      ∀ key, presents s id msg = some key → s.ledger.member id key := by
  have hrec : PresenceFits (recorded env s id msg.type_) ∧
      NoEmptyRoom (recorded env s id msg.type_) := by
    rw [recorded]
    split_ifs
    · exact ⟨h.of_maps rfl rfl, hn⟩
    · exact ⟨h, hn⟩
  have hkeep : ∀ t : AppState, msg.type_ ≠ .PresenceUpdate → PresenceFits t →
      (PresenceFits t ↔ ∀ key, presents s id msg = some key → s.ledger.member id key) := by
    intro t htype ht
    refine iff_of_true ht fun key hkey => ?_
    rw [presents, if_neg fun hand => htype hand.1] at hkey
    exact absurd hkey (by simp)
  refine handleMessage_induction (P := fun t => PresenceFits t ↔
    ∀ key, presents s id msg = some key → s.ledger.member id key) ?_ ?_ ?_ ?_ ?_ ?_ ?_
  · exact fun htype => hkeep _ (by rw [htype]; decide) (h.of_maps rfl rfl)
  · intro htype
    refine hkeep _ (fun hc => ?_) (hrec.1.handleTransmission env _)
    rw [hc] at htype
    exact absurd htype (by decide)
  · exact fun htype => hkeep _ (by rw [htype]; decide) (hrec.1.handleData env cfg id _)
  · exact fun htype => hkeep _ (by rw [htype]; decide) (hrec.1.handleRoomJoin hrec.2 env cfg id _)
  · exact fun htype => hkeep _ (by rw [htype]; decide) (hrec.1.handleRoomLeave id _)
  · intro htype
    have hiff := fits_handlePresenceUpdate_iff hrec.1 id { msg with src := some id } htype
    have hreads : (recorded env s id msg.type_).clientTenants = s.clientTenants ∧
        (recorded env s id msg.type_).rooms = s.rooms := by
      rw [recorded]
      split_ifs <;> exact ⟨rfl, rfl⟩
    simpa only [presents, roomKey, AppState.ledger, hreads.1, hreads.2] using hiff
  · exact fun htype _ => hkeep _ (fun hc => htype (by rw [hc]; decide)) hrec.1

lemma fits_receive_iff {s : AppState} (h : PresenceFits s) (hn : NoEmptyRoom s) (env : Env)
    (cfg : Config) (id : String) (msg : Message) :
    PresenceFits (receive env cfg s id msg).1 ↔ (allowed env id msg.type_ = true →
      ∀ key, presents s id msg = some key → s.ledger.member id key) := by
  rw [receive]
  dsimp only
  rw [(meter_eq env s id msg.type_).1]
  have hmeter : PresenceFits (meter env s id msg.type_).1 ∧
      NoEmptyRoom (meter env s id msg.type_).1 ∧
      (PresenceFits (handleMessage env cfg (meter env s id msg.type_).1 id msg) ↔
        ∀ key, presents s id msg = some key → s.ledger.member id key) := by
    rw [meter]
    cases msg.type_.bucket with
    | none => exact ⟨h, hn, fits_handleMessage_iff h hn env cfg id msg⟩
    | some bucket =>
        have hcharged : PresenceFits (s.checkAndConsume env id bucket).1 := h.of_maps rfl rfl
        have hne : NoEmptyRoom (s.checkAndConsume env id bucket).1 := hn
        have hiff := fits_handleMessage_iff hcharged hne env cfg id msg
        exact ⟨hcharged, hne, hiff⟩
  cases allowed env id msg.type_ with
  | false => simpa using hmeter.1
  | true => simpa using hmeter.2.2

/-! ### Background passes -/

lemma PresenceFits.evictBroken {s : AppState} (h : PresenceFits s) (env : Env) (cfg : Config) :
    PresenceFits (evictBroken env cfg s) := by
  rw [Dendri.evictBroken]
  generalize toEvict env cfg s = ids
  induction ids generalizing s with
  | nil => exact h
  | cons id ids ih =>
      have hevict : PresenceFits (evictClient env s id) := h.of_maps rfl rfl
      exact ih hevict

lemma PresenceFits.messagesExpire {s : AppState} (h : PresenceFits s) (env : Env)
    (cfg : Config) : PresenceFits (messagesExpire env cfg s) :=
  messagesExpire_induction env cfg h (fun _ _ ht => ht.of_maps rfl rfl)
    fun _ _ _ ht => ht.of_maps rfl rfl

/-! ### Steps and runs -/

/-- Presence data that the rate limiter lets pass is that of a member. -/
def PresenceByMembers (cfg : Config) (w : World) (l : Label) : Prop :=
  ∀ id msg key, incoming cfg w l.event = some (id, msg) → allowed l.env id msg.type_ = true →
    presents w.app id msg = some key → w.app.ledger.member id key

lemma presenceByMembers_of_none {cfg : Config} {w : World} {l : Label}
    (hin : incoming cfg w l.event = none) : PresenceByMembers cfg w l := by
  intro id msg key h
  rw [hin] at h
  exact absurd h (by simp)

lemma presenceByMembers_iff {cfg : Config} {w : World} {l : Label} {id : String} {msg : Message}
    (hin : incoming cfg w l.event = some (id, msg)) :
    PresenceByMembers cfg w l ↔ (allowed l.env id msg.type_ = true →
      ∀ key, presents w.app id msg = some key → w.app.ledger.member id key) := by
  constructor
  · exact fun h hallowed key => h id msg key hin hallowed
  · intro h id' msg' key hin' hallowed
    obtain ⟨rfl, rfl⟩ := Prod.mk.inj (Option.some.inj (hin.symm.trans hin'))
    exact h hallowed key

lemma fits_connect {cfg : Config} {s s' : AppState} {env : Env} {r : Request} {K : Conn}
    (h : PresenceFits s) (hn : NoEmptyRoom s) (hout : connect env cfg s r = .admitted K s') :
    PresenceFits s' := by
  refine h.of_grow hn (presence_connect hout) fun id key hm => ?_
  rcases (ledger_of_admits hout (connect_admitted hout)).2 with heq | ⟨p, -, -, heq⟩
  · rwa [heq]
  · rw [heq]
    exact Or.inl hm

lemma fits_wsText_iff {cfg : Config} {w : World} {env : Env} {k len : ℕ} {parsed : Option Message}
    {K : Conn} (h : PresenceFits w.app) (hn : NoEmptyRoom w.app)
    (hK : w.openConn k .WebSocket = some K) :
    PresenceFits (wsText env cfg w.app K.chan K.id len parsed) ↔
      PresenceByMembers cfg w ⟨env, .wsText k len parsed⟩ := by
  rw [wsText.eq_def]
  by_cases hlen : cfg.maxMessageSize < len
  · have hin : incoming cfg w (.wsText k len parsed) = none := by simp [incoming, hK, hlen]
    rw [if_pos hlen]
    exact iff_of_true (h.of_maps rfl rfl) (presenceByMembers_of_none hin)
  · rw [if_neg hlen]
    cases parsed with
    | none =>
        have hin : incoming cfg w (.wsText k len none) = none := by simp [incoming, hK]
        exact iff_of_true h (presenceByMembers_of_none hin)
    | some msg =>
        have hin : incoming cfg w (.wsText k len (some msg)) = some (K.id, msg) := by
          simp [incoming, hK, hlen]
        have hreceive := fits_receive_iff h hn env cfg K.id msg
        have hanswer : PresenceFits (receive env cfg w.app K.id msg).1 ↔ PresenceFits
            ((receive env cfg w.app K.id msg).1.send K.chan [.error "Rate limit exceeded"]) :=
          ⟨fun ht => ht.of_maps rfl rfl, fun ht => ht.of_maps rfl rfl⟩
        rw [presenceByMembers_iff hin]
        dsimp only
        split_ifs
        · exact hreceive
        · exact hanswer.symm.trans hreceive

lemma fits_sendHandler_iff {cfg : Config} {w : World} {env : Env} {id token : String}
    {parsed : Option Message} (h : PresenceFits w.app) (hn : NoEmptyRoom w.app) :
    PresenceFits (sendHandler env cfg w.app id token parsed).1 ↔
      PresenceByMembers cfg w ⟨env, .httpSend id token parsed⟩ := by
  rw [sendHandler]
  cases hc : w.app.clients.lookup id with
  | none => exact iff_of_true h (presenceByMembers_of_none (by simp [incoming, hc]))
  | some client =>
      dsimp only
      by_cases htoken : client.token = token
      · rw [if_pos htoken]
        cases parsed with
        | none =>
            exact iff_of_true (h.of_maps rfl rfl) (presenceByMembers_of_none (by simp [incoming]))
        | some msg =>
            have hin : incoming cfg w (.httpSend id token (some msg)) = some (id, msg) := by
              simp [incoming, hc, htoken, Option.filter]
            have htouch : PresenceFits (w.app.touch env.now id) := h.of_maps rfl rfl
            have hne : NoEmptyRoom (w.app.touch env.now id) := hn
            have hreceive := fits_receive_iff htouch hne env cfg id msg
            rw [presenceByMembers_iff hin]
            exact hreceive
      · rw [if_neg htoken]
        exact iff_of_true h (presenceByMembers_of_none (by
          simp [incoming, hc, htoken, Option.filter]))

/-- A step keeps presence data to members just when the data it stores is that
of one. -/
lemma fits_iff_of_step {cfg : Config} {w w' : World} {l : Label} (h : PresenceFits w.app)
    (hn : NoEmptyRoom w.app) (hstep : step cfg w l = some w') :
    PresenceFits w'.app ↔ PresenceByMembers cfg w l := by
  have hreacts := reacts_of_step hstep
  obtain ⟨env, ev⟩ := l
  have hnone : ∀ s', incoming cfg w ev = none → PresenceFits s' →
      (PresenceFits s' ↔ PresenceByMembers cfg w ⟨env, ev⟩) := fun _ hin ht =>
    iff_of_true ht (presenceByMembers_of_none hin)
  generalize w'.app = s' at hreacts ⊢
  dsimp only at hreacts
  cases hreacts with
  | wsText k len parsed K hK => exact fits_wsText_iff h hn hK
  | httpSend id token parsed => exact fits_sendHandler_iff h hn
  | refused r =>
      refine hnone _ rfl ?_
      cases storedClaims env cfg r with
      | none => exact h
      | some stored => exact h.of_maps rfl rfl
  | admitted r K s' hout => exact hnone _ rfl (fits_connect h hn hout)
  | wsClose k K hK =>
      refine hnone _ rfl ?_
      rw [closeSocket]
      split_ifs
      · exact (h.teardown env cfg K.id).of_maps rfl rfl
      · exact h.of_maps rfl rfl
  | watchdogTick k K hK => exact hnone _ rfl (h.cleanupClient env cfg K.id)
  | streamEnd k K hK => exact hnone _ rfl ((h.cleanupClient env cfg K.id).of_maps rfl rfl)
  | nothing ev k hev =>
      refine hnone _ ?_ h
      rcases hev with rfl | rfl
      · rfl
      · rfl
  | evictBroken => exact hnone _ rfl (h.evictBroken env cfg)
  | expireSessions =>
      refine hnone _ rfl ?_
      exact cleanupExpiredSessions_induction env cfg h fun t id ht => ht.expireSession id
  | expireMessages => exact hnone _ rfl (h.messagesExpire env cfg)
  | _ => exact hnone _ rfl (h.of_maps rfl rfl)

/-- The invariant: presence of members only, with the soundness of the index and
the absence of empty rooms. -/
structure PresenceInvariant (s : AppState) : Prop where
  sound : s.ledger.Sound
  noEmptyRoom : NoEmptyRoom s
  fits : PresenceFits s

lemma presenceInvariant_init (cfg : Config) (redis : Redis) :
    PresenceInvariant (World.init cfg redis).app := by
  refine ⟨sound_init cfg redis, fun room members h => ?_, ⟨fun key hkey => ?_, ?_⟩⟩
  · exact absurd h (by simp [World.init, AppState.new])
  · exact absurd hkey (by simp [World.init, AppState.new])
  · rintro key id payload ⟨entries, hentries, -⟩
    exact absurd hentries (by simp [World.init, AppState.new])

/-- In a run from an empty server all states have presence data of members only,
bounded by the rooms, just when in all steps the data comes from a member. -/
theorem presence_of_members_iff (cfg : Config) (redis : Redis) (ls : List Label) :
    AllSteps (step cfg) (fun _ _ w' => PresenceOfMembers w'.app) (World.init cfg redis) ls ↔
      AllSteps (step cfg) (fun w l _ => PresenceByMembers cfg w l) (World.init cfg redis) ls := by
  refine AllSteps.iff_of_invariant (I := fun w : World => PresenceInvariant w.app)
    (G := fun w : World => PresenceOfMembers w.app) ?_ ?_ (presenceInvariant_init cfg redis)
  · intro w l w' hw hstep
    rw [← fits_iff_of_step hw.fits hw.noEmptyRoom hstep]
    exact ⟨fun h => h.toPresenceFits, fun h => h.ofMembers⟩
  · intro w l w' hw hstep h
    exact ⟨sound_of_step hw.sound hstep, (members_of_step hw.sound hw.noEmptyRoom hstep).1,
      h.toPresenceFits⟩

/-- A `PRESENCE-UPDATE` with data. -/
def presenceUpdate (room payload : String) : Message :=
  { type_ := .PresenceUpdate, room := some room, payload := some payload }

/-- Presence data is not kept to members: `alice` stores data for a room that
nobody has joined. -/
theorem presence_without_room :
    ¬∀ (cfg : Config) (redis : Redis) (ls : List Label) (w : World),
      run (step cfg) (World.init cfg redis) ls = some w → PresenceFits w.app := by
  intro hall
  have heval : (run (step {}) (World.init {} Redis.empty)
      ([.connect (Params.plain "alice" "tok").ws,
        .say 0 (presenceUpdate "lobby" "away")].map quietly)).map
      (fun w => (w.app.presence.keys, w.app.rooms.keys)) = some ({"lobby"}, ∅) := by
    decide +kernel
  obtain ⟨w, hw, hkeys⟩ := Option.map_eq_some_iff.mp heval
  obtain ⟨hpresence, hrooms⟩ := Prod.mk.inj hkeys
  have hroom := (hall {} Redis.empty _ w hw).rooms "lobby" (by rw [hpresence]; decide)
  rw [hrooms] at hroom
  exact absurd hroom (by decide)

end Dendri
