import Dendri.Properties.Channels
import Dendri.Properties.Replay

/-!
Isolation of tenants. The tenant of a connection is recorded for its id, and
part of the storage key of every room the id joins; a room message goes to the
members of the room under the key of the sender's recorded tenant.

* `RoomEffect`, `roomEffect_receive`: what a room message puts on a channel;
* `Fits`, `TenantsKept`: a connect is admitted only when the tenant it
  authenticated as is the one recorded and the one of all that is left of its
  id, and a cleanup leaves no other open connection of a tenant behind;
* `Separated`: the invariant that ties connections, recorded tenants, stored
  senders and memberships together;
* `separated_of_step`, `tenants_isolated_of_kept`: in every run of such steps,
  room messages go only to channels of connections of the sender's tenant.
-/

namespace Dendri

open AppState Transition

/-! ### What a room message puts on a channel -/

/-- What a message of `id` for `room` may do to the channel `i`: nothing, an
error, or one more frame if the channel is the one of a member of the room. -/
def RoomEffect (s : AppState) (id room : String) (i : ℕ) (s' : AppState) : Prop :=
  (s'.chans i).queue = (s.chans i).queue ∨
    (∃ text, (s'.chans i).queue = (s.chans i).queue ++ [.error text]) ∨
    (isValidIdentifier room = true ∧
      (∃ frame, (s'.chans i).queue = (s.chans i).queue ++ [frame]) ∧
      ∃ m, s.ledger.member m (roomKey s id room) ∧ s.wsSenders.lookup m = some i)

lemma roomEffect_send_error (s : AppState) (id room : String) (c i : ℕ) (text : String) :
    RoomEffect s id room i (s.send c [.error text]) := by
  by_cases hi : i = c ∧ (s.chans c).closed = false
  · refine Or.inr (Or.inl ⟨text, ?_⟩)
    simp only [AppState.send, hi, and_self, if_true]
  · refine Or.inl ?_
    simp only [AppState.send, if_neg hi]

lemma roomEffect_sendTo_error (s : AppState) (id room to_ : String) (i : ℕ) (text : String) :
    RoomEffect s id room i (s.sendTo to_ [.error text]) := by
  cases hc : s.wsSenders.lookup to_ with
  | none =>
      refine Or.inl ?_
      simp only [AppState.sendTo, hc]
  | some c =>
      have hsend := roomEffect_send_error s id room c i text
      have hchans : (s.sendTo to_ [.error text]).chans = (s.send c [.error text]).chans := by
        simp only [AppState.sendTo, hc]
      rw [RoomEffect, ← hchans] at hsend
      exact hsend

/-- The fan-out reaches channels of members only. -/
lemma roomEffect_roomFanOut (s : AppState) {id room : String}
    (hvalid : isValidIdentifier room = true) (frame : Frame) (i : ℕ) :
    RoomEffect s id room i (roomFanOut s id (roomKey s id room) frame) := by
  by_cases hi : (∃ m ∈ ((s.rooms.lookup (roomKey s id room)).getD ∅).erase id,
      s.wsSenders.lookup m = some i) ∧ (s.chans i).closed = false
  · refine Or.inr (Or.inr ⟨hvalid, ⟨frame, ?_⟩, ?_⟩)
    · simp only [roomFanOut, AppState.fanOut, if_pos hi]
    · obtain ⟨⟨m, hm, hsender⟩, -⟩ := hi
      exact ⟨m, mem_getD_empty.mp (Finset.mem_of_mem_erase hm), hsender⟩
  · refine Or.inl ?_
    simp only [roomFanOut, AppState.fanOut, if_neg hi]

lemma roomEffect_handleData (env : Env) (cfg : Config) (s : AppState) (id : String) {room : String}
    {msg : Message} (hroom : msg.room = some room) (i : ℕ) :
    RoomEffect s id room i (handleData env cfg s id msg) := by
  refine handleData_induction (P := fun t => RoomEffect s id room i t) ?_ ?_ ?_ ?_ ?_
  · exact roomEffect_sendTo_error s id room id i _
  · exact Or.inl rfl
  · intro room' hrelays hroom'
    obtain rfl := Option.some.inj (hroom'.symm.trans hroom)
    have hv : isValidIdentifier room' = true := by
      have hvalid := hrelays.room
      rwa [hroom'] at hvalid
    exact roomEffect_roomFanOut { s with seqCounter := s.seqCounter + 1 } hv _ i
  · exact fun _ _ hnone => absurd (hnone.symm.trans hroom) (by simp)
  · exact Or.inl rfl

lemma roomEffect_handlePresenceUpdate (s : AppState) (id : String) {room : String} {msg : Message}
    (hroom : msg.room = some room) (i : ℕ) :
    RoomEffect s id room i (handlePresenceUpdate s id msg) := by
  rw [handlePresenceUpdate, hroom]
  dsimp only
  split_ifs with hvalid
  · exact Or.inl rfl
  · have hv : isValidIdentifier room = true := by simpa using hvalid
    exact roomEffect_roomFanOut { s with presence := _ } hv _ i

/-- The effect depends on the state before through its channels, senders,
tenants and rooms only. -/
lemma RoomEffect.of_eq {s t s' : AppState} {id room : String} {i : ℕ}
    (h : RoomEffect t id room i s') (hchans : t.chans = s.chans)
    (hsenders : t.wsSenders = s.wsSenders) (htenants : t.clientTenants = s.clientTenants)
    (hmaps : t.roomMaps = s.roomMaps) : RoomEffect s id room i s' := by
  have hl : t.ledger = s.ledger := (memberships_of_roomMaps hmaps).1
  rw [RoomEffect, hchans, hsenders, hl, roomKey, htenants] at h
  exact h

lemma roomEffect_handleMessage (env : Env) (cfg : Config) (s : AppState) (id : String)
    {room : String} {msg : Message} (htype : msg.type_ = .DATA ∨ msg.type_ = .PresenceUpdate)
    (hroom : msg.room = some room) (i : ℕ) :
    RoomEffect s id room i (handleMessage env cfg s id msg) := by
  obtain ⟨type_, src, dst, payload, seq, room', timestamp, topicClass⟩ := msg
  dsimp only at htype hroom
  rcases htype with rfl | rfl
  · exact (roomEffect_handleData env cfg (s.recordMessage env.now id) id hroom i).of_eq
      rfl rfl rfl rfl
  · exact (roomEffect_handlePresenceUpdate (s.recordMessage env.now id) id hroom i).of_eq
      rfl rfl rfl rfl

/-- Charging a bucket shows in none of the four. -/
lemma RoomEffect.of_meter {env : Env} {s s' : AppState} {id room : String} {type_ : MessageType}
    {i : ℕ} (h : RoomEffect (meter env s id type_).1 id room i s') : RoomEffect s id room i s' := by
  rw [meter] at h
  cases hb : type_.bucket with
  | none =>
      rw [hb] at h
      exact h
  | some bucket =>
      rw [hb] at h
      exact h.of_eq rfl rfl rfl rfl

/-- A received room message is either handled or only metered. -/
lemma roomEffect_receive (env : Env) (cfg : Config) (s : AppState) (id : String) {room : String}
    {msg : Message} (htype : msg.type_ = .DATA ∨ msg.type_ = .PresenceUpdate)
    (hroom : msg.room = some room) (i : ℕ) :
    RoomEffect s id room i (receive env cfg s id msg).1 ∧
      ((receive env cfg s id msg).2 = false →
        (receive env cfg s id msg).1 = (meter env s id msg.type_).1) := by
  rw [receive]
  dsimp only
  split_ifs with hok
  · refine ⟨?_, fun hc => absurd hc (by simp)⟩
    exact (roomEffect_handleMessage env cfg (meter env s id msg.type_).1 id htype hroom i).of_meter
  · exact ⟨RoomEffect.of_meter (Or.inl rfl), fun _ => rfl⟩

/-- What a step with a room message puts on a channel. -/
lemma roomEffect_of_step {cfg : Config} {w w' : World} {l : Label} {id room : String}
    {msg : Message} (h : step cfg w l = some w')
    (hin : incoming cfg w l.event = some (id, msg))
    (htype : msg.type_ = .DATA ∨ msg.type_ = .PresenceUpdate) (hroom : msg.room = some room)
    (i : ℕ) : RoomEffect w.app id room i w'.app := by
  obtain ⟨env, ev⟩ := l
  cases ev with
  | wsText k len parsed =>
      obtain ⟨K, hK, hw⟩ := Option.map_eq_some_iff.mp h
      obtain ⟨K', hK', hparsed⟩ := Option.bind_eq_some_iff.mp hin
      obtain rfl := Option.some.inj (hK.symm.trans hK')
      split_ifs at hparsed with hlen
      obtain ⟨msg', rfl, hpair⟩ := Option.map_eq_some_iff.mp hparsed
      obtain ⟨rfl, rfl⟩ := Prod.mk.inj hpair
      obtain ⟨heffect, hmetered⟩ := roomEffect_receive env cfg w.app K.id htype hroom i
      rw [← hw, wsText.eq_def, if_neg hlen]
      dsimp only
      split_ifs with hok
      · exact heffect
      · rw [Bool.not_eq_true] at hok
        rw [hmetered hok]
        exact (roomEffect_send_error _ K.id room K.chan i _).of_meter
  | httpSend id' token parsed =>
      obtain ⟨client, hclient, hparsed⟩ := Option.bind_eq_some_iff.mp hin
      obtain ⟨hlookup, htoken⟩ := Option.filter_eq_some_iff.mp hclient
      obtain ⟨msg', rfl, hpair⟩ := Option.map_eq_some_iff.mp hparsed
      obtain ⟨rfl, rfl⟩ := Prod.mk.inj hpair
      have hheffect := (roomEffect_receive env cfg (w.app.touch env.now id') id' htype hroom i).1
      have hw : (sendHandler env cfg w.app id' token (some msg')).1 = w'.app := by
        rw [← Option.some.inj h]
      rw [← hw, sendHandler, hlookup]
      dsimp only
      rw [if_pos (of_decide_eq_true htoken)]
      exact hheffect.of_eq rfl rfl rfl rfl
  | _ => exact absurd hin (by simp [incoming])

/-! ### The steps that keep tenants apart -/

/-- The storage key belongs to a validly named room of the tenant. -/
def InNamespace (tenant : Option String) (key : String) : Prop :=
  ∃ room, isValidIdentifier room = true ∧ key = namespaceRoom tenant room

/-- A request that is admitted as `K` fits what the server has for its id: the
tenant it authenticated as will be the one recorded, the other open connections
of the id have it, and the id is a member of rooms of this tenant only. -/
structure Fits (env : Env) (w : World) (r : Request) (K : Conn) : Prop where
  /-- A request without tenant leaves the recorded one in place. -/
  untenanted : K.tenant = none → w.app.clientTenants.lookup K.id = none
  /-- So does every poll of a registered id. -/
  polled : (∃ q, r = .poll q) → K.id ∈ w.app.clients.keys →
    w.app.clientTenants.lookup K.id = K.tenant
  conns : ∀ K' ∈ w.conns, K'.isOpen = true → K'.id = K.id → K'.tenant = K.tenant
  rooms : ∀ key, w.app.ledger.member K.id key → InNamespace K.tenant key
  /-- The rooms that a reconnect restores. -/
  restored : (∃ q, r = .ws q) → existingToken env w.app K.id ≠ none →
    ∀ key, w.app.ledger.pending K.id key → InNamespace K.tenant key

/-- Admitted requests fit, and when a cleanup removes the recorded tenant of an
id, the other open connections of the id have none. -/
structure TenantsKept (cfg : Config) (w : World) (l : Label) : Prop where
  admitted : ∀ r K s', l.event = .connect r → connect l.env cfg w.app r = .admitted K s' →
    Fits l.env w r K
  cleaned : ∀ k K, cleanedUp w l.event = some (k, K) → ∀ (j : ℕ) (K' : Conn), j ≠ k →
    w.conns[j]? = some K' → K'.isOpen = true → K'.id = K.id → K'.tenant = none

/-! ### The invariant -/

/-- Open connections have the recorded tenant of their id, a stored sender
belongs to connections of its id's recorded tenant, and the members of a room
that have a sender have the room's tenant. -/
structure Separated (w : World) : Prop extends Wired w where
  sound : w.app.ledger.Sound
  recorded : ∀ K ∈ w.conns, K.isOpen = true → w.app.clientTenants.lookup K.id = K.tenant
  tenant : ∀ m c, w.app.wsSenders.lookup m = some c → ∀ K ∈ w.conns, K.chan = c →
    K.tenant = w.app.clientTenants.lookup m
  rooms : ∀ m c key, w.app.wsSenders.lookup m = some c → w.app.ledger.member m key →
    InNamespace (w.app.clientTenants.lookup m) key

/-- A step that stores no sender: a member gained is in the namespace, and the
tenants of those who keep a sender stay. -/
lemma Separated.of_shrink {w w' : World} (h : Separated w) (hwired : Wired w')
    (hs : w'.app.ledger.Sound) (hconns : ConnsLater w.conns w'.conns)
    (hrecorded : ∀ K ∈ w'.conns, K.isOpen = true → w'.app.clientTenants.lookup K.id = K.tenant)
    (hsenders : ∀ m c, w'.app.wsSenders.lookup m = some c →
      w.app.wsSenders.lookup m = some c ∧
        w'.app.clientTenants.lookup m = w.app.clientTenants.lookup m)
    (hmember : ∀ m key, w'.app.ledger.member m key →
      w.app.ledger.member m key ∨ InNamespace (w.app.clientTenants.lookup m) key) :
    Separated w' := by
  refine ⟨hwired, hs, hrecorded, fun m c hm K' hK' hc => ?_, fun m c key hm hkey => ?_⟩
  · obtain ⟨K, hK, hlater⟩ := hconns.mem_back hK'
    obtain ⟨hold, htenant⟩ := hsenders m c hm
    rw [hlater.tenant, htenant]
    exact h.tenant m c hold K hK (hlater.chan.symm.trans hc)
  · obtain ⟨hold, htenant⟩ := hsenders m c hm
    rw [htenant]
    exact (hmember m key hkey).elim (h.rooms m c key hold) fun hin => hin

/-- A step that also leaves the recorded tenants alone. -/
lemma Separated.of_tenants {w w' : World} (h : Separated w) (hwired : Wired w')
    (hs : w'.app.ledger.Sound) (hconns : ConnsLater w.conns w'.conns)
    (htenants : w'.app.clientTenants = w.app.clientTenants)
    (hsenders : ∀ m c, w'.app.wsSenders.lookup m = some c → w.app.wsSenders.lookup m = some c)
    (hmember : ∀ m key, w'.app.ledger.member m key →
      w.app.ledger.member m key ∨ InNamespace (w.app.clientTenants.lookup m) key) :
    Separated w' := by
  refine h.of_shrink hwired hs hconns (fun K' hK' hopen => ?_)
    (fun m c hm => ⟨hsenders m c hm, by rw [htenants]⟩) hmember
  obtain ⟨K, hK, hlater⟩ := hconns.mem_back hK'
  rw [htenants, hlater.id, hlater.tenant]
  exact h.recorded K hK (hlater.isOpen hopen)

/-- A step that also leaves the senders alone and adds no member. -/
lemma Separated.of_frame {w w' : World} (h : Separated w) (hwired : Wired w')
    (hs : w'.app.ledger.Sound) (hconns : ConnsLater w.conns w'.conns)
    (htenants : w'.app.clientTenants = w.app.clientTenants)
    (hsenders : w'.app.wsSenders = w.app.wsSenders)
    (hmember : ∀ m key, w'.app.ledger.member m key → w.app.ledger.member m key) :
    Separated w' :=
  h.of_tenants hwired hs hconns htenants (fun m c hm => by rwa [hsenders] at hm)
    fun m key hkey => Or.inl (hmember m key hkey)

/-- A request that fits records its own tenant. -/
lemma Fits.lookup_insertOpt {env : Env} {w : World} {r : Request} {K : Conn} (h : Fits env w r K)
    (m : String) :
    (FinMap.insertOpt w.app.clientTenants K.id K.tenant).lookup m =
      if m = K.id then K.tenant else w.app.clientTenants.lookup m := by
  rw [FinMap.lookup_insertOpt]
  split_ifs
  · cases ht : K.tenant with
    | none => rw [Option.none_or, h.untenanted ht]
    | some tenant => rw [Option.some_or]
  · rfl

/-- The tenants recorded after an admitted request that fits. -/
lemma Fits.lookup_clientTenants {env : Env} {cfg : Config} {w : World} {r : Request} {K : Conn}
    {s' : AppState} (hfits : Fits env w r K) (hadm : Admits env cfg w.app r K s') (m : String) :
    s'.clientTenants.lookup m = if m = K.id then K.tenant else w.app.clientTenants.lookup m := by
  have hrecords : s'.clientTenants = FinMap.insertOpt w.app.clientTenants K.id K.tenant ∨
      (s'.clientTenants = w.app.clientTenants ∧ w.app.clientTenants.lookup K.id = K.tenant) := by
    cases hadm with
    | reconnect q K s' hK htransport hchan htoken hreg hrest =>
        exact Or.inl (congrArg Registry.tenants hreg)
    | register q K s' hK htransport hchan htoken hslot hreg hmaps =>
        exact Or.inl (congrArg Registry.tenants hreg)
    | stream q K s' hK htransport hchan hslot hreg hmaps =>
        exact Or.inl (congrArg Registry.tenants hreg)
    | poll q K s' hK htransport hchan hslot hreg hmaps =>
        have htenants : s'.clientTenants = if K.id ∈ w.app.clients.keys then w.app.clientTenants
            else FinMap.insertOpt w.app.clientTenants K.id K.tenant :=
          congrArg Registry.tenants hreg
        split_ifs at htenants with hid
        · exact Or.inr ⟨htenants, hfits.polled ⟨q, rfl⟩ hid⟩
        · exact Or.inl htenants
  rcases hrecords with hinsert | ⟨hsame, hK⟩
  · rw [hinsert, hfits.lookup_insertOpt]
  · rw [hsame]
    split_ifs with hm
    · rw [hm, hK]
    · rfl

/-- The members of a room after an admitted request that fits: a reconnect may
have restored a room. -/
lemma Fits.member_of_admits {env : Env} {cfg : Config} {w : World} {r : Request} {K : Conn}
    {s' : AppState} (hfits : Fits env w r K) (hadm : Admits env cfg w.app r K s') {m key : String}
    (hkey : s'.ledger.member m key) :
    w.app.ledger.member m key ∨ (m = K.id ∧ InNamespace K.tenant key) := by
  cases hadm with
  | reconnect q K s' hK htransport hchan htoken hreg hrest =>
      rw [hrest.ledger] at hkey
      split_ifs at hkey
      · refine hkey.imp_right fun hp => ⟨hp.1, ?_⟩
        exact hfits.restored ⟨q, rfl⟩ (by rw [htoken]; simp) key hp.2
      · exact Or.inl hkey
  | register q K s' hK htransport hchan htoken hslot hreg hmaps =>
      exact Or.inl (by rwa [(memberships_of_roomMaps hmaps).1] at hkey)
  | stream q K s' hK htransport hchan hslot hreg hmaps =>
      exact Or.inl (by rwa [(memberships_of_roomMaps hmaps).1] at hkey)
  | poll q K s' hK htransport hchan hslot hreg hmaps =>
      exact Or.inl (by rwa [(memberships_of_roomMaps hmaps).1] at hkey)

/-- After an admitted request that fits, the connections on a sender's channel
have the tenant that is now recorded for its id. -/
lemma Fits.tenant_of_wires {env : Env} {w : World} {r : Request} {K K' : Conn} {s' : AppState}
    (h : Separated w) (hfits : Fits env w r K) (hwires : Wires w.app r K s') {m : String} {c : ℕ}
    (hm : s'.wsSenders.lookup m = some c) (hK' : K' ∈ w.conns ++ [K]) (hc : K'.chan = c) :
    K'.tenant = if m = K.id then K.tenant else w.app.clientTenants.lookup m := by
  cases hwires with
  | fresh hchan hnext hsenders hreceivers hids =>
      -- old connections have old channels, and only the new one has the new channel
      rcases sender_cases hsenders hm with ⟨hid, hnew⟩ | ⟨hid, hold⟩
      · rw [if_pos hid]
        rcases mem_append_conn hK' with hK' | rfl
        · have := h.chans K' hK'
          omega
        · rfl
      · rw [if_neg hid]
        rcases mem_append_conn hK' with hK' | rfl
        · exact h.tenant m c hold K' hK' hc
        · have := h.senders m c hold
          omega
  | pair hpoll hreceiver hsender hnext hsenders hreceivers hids =>
      rw [hsenders] at hm
      obtain ⟨tx, htx⟩ := hsender
      have hK := hfits.polled hpoll (h.registered K.id tx htx)
      have hsame : (if m = K.id then K.tenant else w.app.clientTenants.lookup m) =
          w.app.clientTenants.lookup m := by
        split_ifs with hid
        · rw [hid, hK]
        · rfl
      rw [hsame]
      rcases mem_append_conn hK' with hold | rfl
      · exact h.tenant m c hm K' hold hc
      · -- the receiver and the sender of the pair belong to the same id
        rw [← h.own K'.id m c (Or.inr (by rw [hreceiver, hc])) hm, hK]

/-- An admitted request that fits keeps the tenants separated. -/
lemma separated_of_admits {env : Env} {cfg : Config} {w : World} {r : Request} {K : Conn}
    {s' : AppState} (h : Separated w) (hwired : Wired ⟨s', w.conns ++ [K]⟩)
    (hs : s'.ledger.Sound) (hfits : Fits env w r K) (hadm : Admits env cfg w.app r K s') :
    Separated ⟨s', w.conns ++ [K]⟩ := by
  have htenants := hfits.lookup_clientTenants hadm
  have hwires := wires_of_admits hadm
  refine ⟨hwired, hs, fun K' hK' hopen => ?_, fun m c hm K' hK' hc => ?_,
    fun m c key hm hkey => ?_⟩
  · dsimp only
    rw [htenants]
    rcases mem_append_conn hK' with hold | rfl
    · split_ifs with hid
      · exact (hfits.conns K' hold hopen hid).symm
      · exact h.recorded K' hold hopen
    · exact if_pos rfl
  · dsimp only
    rw [htenants]
    exact hfits.tenant_of_wires h hwires hm hK' hc
  · dsimp only at hm ⊢
    rw [htenants]
    have hkey' := hfits.member_of_admits hadm hkey
    split_ifs with hid
    · rcases hkey' with hold | ⟨-, hin⟩
      · exact hfits.rooms key (hid ▸ hold)
      · exact hin
    · rw [hwires.lookup_of_ne hid] at hm
      exact h.rooms m c key hm (hkey'.resolve_right fun hnew => hid hnew.1)

/-- An accepted join is in the namespace of the sender's recorded tenant. -/
lemma inNamespace_of_joins {cfg : Config} {s : AppState} {id key : String} {msg : Message}
    (h : joins cfg s id msg = some key) : InNamespace (s.clientTenants.lookup id) key := by
  obtain ⟨room, hroom, hkey⟩ := room_of_joins h
  exact ⟨room, (checks_of_joins hroom h).1, hkey⟩

/-- The members of a room after a message: a new one joined. -/
lemma member_of_receives {env : Env} {cfg : Config} {s s' : AppState} {id : String} {msg : Message}
    (hs : s.ledger.Sound) (hrec : Receives env cfg s id msg s') {m key : String}
    (hm : s'.ledger.member m key) :
    s.ledger.member m key ∨ InNamespace (s.clientTenants.lookup m) key := by
  rw [(hrec.moves hs).ledger] at hm
  cases hj : (if allowed env id msg.type_ = true then joins cfg s id msg else none) with
  | some joined =>
      rw [hj] at hm
      rcases hm with hold | ⟨rfl, rfl⟩
      · exact Or.inl hold
      · split_ifs at hj
        exact Or.inr (inNamespace_of_joins hj)
  | none =>
      rw [hj] at hm
      cases hleft : (if allowed env id msg.type_ = true then leaves s id msg else none) with
      | some left =>
          rw [hleft] at hm
          exact Or.inl hm.1
      | none =>
          rw [hleft] at hm
          exact Or.inl hm

/-- A cleanup of the connection at position `k`. -/
lemma Separated.of_cleanup {cfg : Config} {w : World} {s' : AppState} {k : ℕ} {K : Conn}
    {f : Conn → Conn} {receivers : DashMap ℕ} (h : Separated w)
    (hwired : Wired ⟨s', w.conns.modify k f⟩) (hs : s'.ledger.Sound)
    (hlater : ∀ K : Conn, K.Later (f K)) (hclose : ∀ K : Conn, (f K).isOpen = false)
    (hreg : s'.registry = { (w.app.registry.drop K.id).forget K.id with receivers := receivers })
    (hun : Unlists cfg K.id w.app s')
    (hcleaned : ∀ (j : ℕ) (K' : Conn), j ≠ k → w.conns[j]? = some K' → K'.isOpen = true →
      K'.id = K.id → K'.tenant = none) :
    Separated ⟨s', w.conns.modify k f⟩ := by
  have htenants : s'.clientTenants = w.app.clientTenants.erase K.id :=
    congrArg Registry.tenants hreg
  refine h.of_shrink hwired hs (ConnsLater.modify _ k hlater) (fun K' hK' hopen => ?_)
    (fun m c hm => ?_) fun m key hkey => ?_
  · obtain ⟨j, hj⟩ := List.mem_iff_getElem?.mp hK'
    obtain ⟨hjk, hold⟩ := open_of_modify hclose hj hopen
    dsimp only
    rw [htenants, FinMap.lookup_erase_ite]
    split_ifs with hid
    · exact (hcleaned j K' hjk hold hopen hid).symm
    · exact h.recorded K' (List.mem_of_getElem? hold) hopen
  · obtain ⟨hold, -, hid⟩ := senders_of_cleanup h.toWired hreg hm
    refine ⟨hold, ?_⟩
    dsimp only
    rw [htenants, FinMap.lookup_erase_ite, if_neg hid]
  · have hkey' : s'.ledger.member m key := hkey
    rw [hun.ledger] at hkey'
    split_ifs at hkey'
    · exact Or.inl hkey'.1
    · exact Or.inl hkey'

/-- One step that keeps the tenants apart keeps them separated. -/
lemma separated_of_step {cfg : Config} {w w' : World} {l : Label} (hw : Separated w)
    (hkept : TenantsKept cfg w l) (h : step cfg w l = some w') : Separated w' := by
  have hwired := wired_of_step hw.toWired h
  have hs := sound_of_step hw.sound h
  obtain ⟨env, ev⟩ := l
  have ht := step_trans h
  dsimp only at ht
  cases ht with
  | refused r why hout =>
      have hl := (memberships_of_roomMaps (withClaims_frame w.app (storedClaims env cfg r)).2).1
      refine hw.of_frame hwired hs (ConnsLater.refl _) ?_ ?_ (fun m key hm => by rwa [hl] at hm)
      all_goals
        cases storedClaims env cfg r with
        | none => rfl
        | some pair => rfl
  | admitted r K s' hout hadm =>
      exact separated_of_admits hw hwired hs (hkept.admitted r K s' rfl hout) hadm
  | message ev id msg s' hin hrec =>
      have hkeeps := Registry.keepsAuth_afterMessage env w.app id msg s'.replayBuffer
      rw [← hrec.registry] at hkeeps
      exact hw.of_tenants hwired hs (ConnsLater.refl _) hkeeps.tenants
        (fun m c hm => (senders_of_receives hw.toWired hrec hm).1)
        fun m key hm => member_of_receives hw.sound hrec hm
  | socketClosed k K s' hdown hreg hun =>
      exact hw.of_cleanup hwired hs Conn.later_close (fun _ => rfl) hreg (hun hw.sound)
        (hkept.cleaned k K hdown)
  | streamCleaned ev k K s' f hev hdown hlater hclose hreg hun =>
      exact hw.of_cleanup hwired hs hlater hclose hreg (hun hw.sound) (hkept.cleaned k K hdown)
  | evicted =>
      obtain ⟨hreg, hmaps⟩ := registry_evictBroken env cfg w.app
      have hl := (memberships_of_roomMaps hmaps).1
      have hkeeps := Registry.keepsAuth_foldl_drop (toEvict env cfg w.app) w.app.registry
      rw [← hreg] at hkeeps
      exact hw.of_tenants hwired hs (ConnsLater.refl _) hkeeps.tenants
        (fun m c hm => (senders_of_evictBroken hw.toWired hm).1)
        fun m key hm => Or.inl (by rwa [hl] at hm)
  | reconciled =>
      exact hw.of_frame hwired hs (ConnsLater.refl _) rfl rfl fun _ _ hm => hm
  | expired =>
      have hreg := registry_cleanupExpiredSessions env cfg w.app
      exact hw.of_frame hwired hs (ConnsLater.refl _) (congrArg Registry.tenants hreg)
        (congrArg Registry.senders hreg) fun _ _ hm => member_of_cleanupExpiredSessions hw.sound hm
  | replayEvicted =>
      exact hw.of_frame hwired hs (ConnsLater.refl _) rfl rfl fun _ _ hm => hm
  | quiet ev w' hin hdown hconnect hevict hreg hmaps hconns =>
      have hl := (memberships_of_roomMaps hmaps).1
      exact hw.of_frame hwired hs hconns (congrArg Registry.tenants hreg)
        (congrArg Registry.senders hreg) fun _ _ hm => by rwa [hl] at hm

/-! ### Room messages -/

/-- The connections of the channel authenticated as the tenant of `K`. -/
def ServesTenant (w : World) (K : Conn) (i : ℕ) : Prop :=
  (∃ K' ∈ w.conns, K'.chan = i) ∧ ∀ K' ∈ w.conns, K'.chan = i → K'.tenant = K.tenant

/-- Whatever a room message on behalf of `K` puts on a channel is an error, or the channel is
one of connections that authenticated as the tenant of `K`. -/
def Isolated (cfg : Config) (w : World) (l : Label) (w' : World) : Prop :=
  ∀ K msg, Speaks w K l.event → incoming cfg w l.event = some (K.id, msg) →
    msg.type_ = .DATA ∨ msg.type_ = .PresenceUpdate → msg.room ≠ none →
    ∀ i, ∃ added, (w'.app.chans i).queue = (w.app.chans i).queue ++ added ∧
      ∀ frame ∈ added, (∃ text, frame = .error text) ∨ ServesTenant w K i

/-- With separated tenants, room messages are isolated. -/
lemma isolated_of_step {cfg : Config} {w w' : World} {l : Label} (hw : Separated w)
    (h : step cfg w l = some w') : Isolated cfg w l w' := by
  intro K msg hspeaks hin htype hroom i
  obtain ⟨-, hK, hopen⟩ := hspeaks.incoming hin
  obtain ⟨room, hroom⟩ := Option.ne_none_iff_exists'.mp hroom
  rcases roomEffect_of_step h hin htype hroom i with
    hsame | ⟨text, herror⟩ | ⟨hvalid, ⟨frame, hframe⟩, m, hm, hsender⟩
  · exact ⟨[], by rw [hsame, List.append_nil], fun frame hf => absurd hf (by simp)⟩
  · exact ⟨[.error text], herror, fun frame hf => Or.inl ⟨text, List.mem_singleton.mp hf⟩⟩
  · refine ⟨[frame], hframe, fun _ _ => Or.inr ⟨hw.served m i hsender, fun K' hK' hi => ?_⟩⟩
    obtain ⟨room', hvalid', hkey⟩ := hw.rooms m i _ hsender hm
    have htenant : w.app.clientTenants.lookup K.id = w.app.clientTenants.lookup m :=
      (namespaceRoom_inj hvalid hvalid' hkey).1
    calc K'.tenant = w.app.clientTenants.lookup m := hw.tenant m i hsender K' hK' hi
      _ = w.app.clientTenants.lookup K.id := htenant.symm
      _ = K.tenant := hw.recorded K hK hopen

lemma separated_init (cfg : Config) (redis : Redis) : Separated (World.init cfg redis) where
  toWired := wired_init cfg redis
  sound := sound_init cfg redis
  recorded K hK := absurd hK (by simp [World.init])
  tenant m c hm := absurd hm (by simp [World.init, AppState.new])
  rooms m c key hm := absurd hm (by simp [World.init, AppState.new])

/-- In every run whose connects fit and whose cleanups leave no connection of a
tenant behind, room messages go only to channels of connections that
authenticated as the sender's tenant. -/
theorem tenants_isolated_of_kept {cfg : Config} {redis : Redis} {ls : List Label}
    (hkept : AllSteps (step cfg) (fun w l _ => TenantsKept cfg w l) (World.init cfg redis) ls) :
    AllSteps (step cfg) (Isolated cfg) (World.init cfg redis) ls := by
  refine AllSteps.of_invariant (I := Separated) (fun w l w' hw h hP => ?_)
    (separated_init cfg redis) hkept
  exact ⟨separated_of_step hw hP h, isolated_of_step hw h⟩

/-- An API key of the tenant `t1`, and no other. -/
def tenantEnv : Env :=
  { Env.quiet 0 with
    resolveApiKey := fun key => if key = "k1" then some { id := "t1", name := "one" } else none }

/-- A WebSocket of the tenant `t1` connects. -/
def tenantConnects (id : String) : Label :=
  ⟨tenantEnv, .connect (Params.ws { Params.plain id "tok" with apiKey := some "k1" })⟩

/-- A connect for an id that nothing is known of fits. -/
lemma fits_of_unseen {env : Env} {w : World} {r : Request} {K : Conn}
    (htenant : w.app.clientTenants.lookup K.id = none) (hclient : K.id ∉ w.app.clients.keys)
    (hconns : K.id ∉ w.conns.map Conn.id) (hrooms : w.app.rooms.keys = ∅)
    (hpending : w.app.pendingRemovals.keys = ∅) : Fits env w r K where
  untenanted _ := htenant
  polled _ hid := absurd hid hclient
  conns K' hK' _ hid := absurd (hid ▸ List.mem_map_of_mem hK') hconns
  rooms key := by
    rintro ⟨members, hl, -⟩
    have hkey : key ∈ w.app.rooms.keys := Finmap.mem_keys.mpr (Finmap.mem_of_lookup_eq_some hl)
    rw [hrooms] at hkey
    exact absurd hkey (Finset.notMem_empty _)
  restored _ _ key := by
    rintro ⟨pending, hl, -⟩
    have hid : K.id ∈ w.app.pendingRemovals.keys :=
      Finmap.mem_keys.mpr (Finmap.mem_of_lookup_eq_some hl)
    rw [hpending] at hid
    exact absurd hid (Finset.notMem_empty _)

/-- `alice` and `bob` of one tenant, and a message in their room. -/
theorem tenants_isolated_alice :
    AllSteps (step relayConfig) (Isolated relayConfig) (World.init relayConfig Redis.empty)
      [tenantConnects "alice", tenantConnects "bob", quietly (.say 1 (roomJoin "lobby")),
        quietly (.say 0 (dataIn "lobby"))] := by
  have hconnect : ∀ (w : World) (id : String),
      w.app.clientTenants.lookup id = none ∧ id ∉ w.app.clients.keys ∧
        id ∉ w.conns.map Conn.id ∧ w.app.rooms.keys = ∅ ∧ w.app.pendingRemovals.keys = ∅ →
      TenantsKept relayConfig w (tenantConnects id) := by
    rintro w id ⟨htenant, hclient, hconns, hrooms, hpending⟩
    refine ⟨fun r K s' hev hout => ?_,
      fun k K hK => absurd hK (by simp [tenantConnects, cleanedUp])⟩
    have hid : some id = some K.id := by
      rw [← (connect_admitted hout).admittedFor.id, ← Event.connect.inj hev]
      rfl
    obtain rfl := Option.some.inj hid
    exact fits_of_unseen htenant hclient hconns hrooms hpending
  have hsay : ∀ (w : World) (k : ℕ) (msg : Message),
      TenantsKept relayConfig w (quietly (.say k msg)) := fun w k msg =>
    ⟨fun r K s' hev => absurd hev (by simp [quietly, Event.say]),
      fun k K hK => absurd hK (by simp [quietly, Event.say, cleanedUp])⟩
  refine tenants_isolated_of_kept fun w₁ h₁ => ⟨hconnect _ "alice" (by decide), fun w₂ _ =>
    ⟨hconnect w₁ "bob" ?_, fun w₃ _ => ⟨hsay w₂ _ _, fun w₄ _ => ⟨hsay w₃ _ _, trivial⟩⟩⟩⟩
  have heval : (step relayConfig (World.init relayConfig Redis.empty) (tenantConnects "alice")).map
      (fun w => decide (w.app.clientTenants.lookup "bob" = none ∧ "bob" ∉ w.app.clients.keys ∧
        "bob" ∉ w.conns.map Conn.id ∧ w.app.rooms.keys = ∅ ∧ w.app.pendingRemovals.keys = ∅)) =
      some true := by decide +kernel
  rw [h₁, Option.map_some, Option.some.injEq] at heval
  exact of_decide_eq_true heval

/-- Tenants are not isolated in every run: `alice` reconnects without an API
key, is still recorded for the tenant `t1`, and her message reaches `bob` of
that tenant. -/
theorem untenanted_reconnect_reaches_tenant :
    ¬∀ (cfg : Config) (redis : Redis) (ls : List Label),
      AllSteps (step cfg) (Isolated cfg) (World.init cfg redis) ls := by
  intro hall
  let ls := [tenantConnects "alice", tenantConnects "bob", quietly (.say 1 (roomJoin "lobby")),
    quietly (.connect (Params.plain "alice" "tok").ws)]
  let out : Message :=
    { dataIn "lobby" with src := some "alice", seq := some 1, timestamp := some 0 }
  have hrun := hall relayConfig Redis.empty (ls ++ [quietly (.say 2 (dataIn "lobby"))])
  have heval : (run (step relayConfig) (World.init relayConfig Redis.empty) ls).bind (fun w =>
      (step relayConfig w (quietly (.say 2 (dataIn "lobby")))).map fun w' =>
        decide ((w.openConn 2 .WebSocket).map (fun K => (K.id, K.tenant)) = some ("alice", none) ∧
          (w.conns[1]?).map (fun K => (K.chan, K.tenant)) = some (1, some "t1") ∧
          (w'.app.chans 1).queue = (w.app.chans 1).queue ++ [.relay out])) = some true := by
    decide +kernel
  obtain ⟨w, hw, hstep⟩ := Option.bind_eq_some_iff.mp heval
  obtain ⟨w', hw', hobs⟩ := Option.map_eq_some_iff.mp hstep
  obtain ⟨hconn, hpeer, hqueue⟩ := of_decide_eq_true hobs
  obtain ⟨K, hK, hfields⟩ := Option.map_eq_some_iff.mp hconn
  obtain ⟨K', hK', hfields'⟩ := Option.map_eq_some_iff.mp hpeer
  obtain ⟨-, htenant⟩ := Prod.mk.inj hfields
  obtain ⟨hchan, htenant'⟩ := Prod.mk.inj hfields'
  have hin : incoming relayConfig w (.say 2 (dataIn "lobby")) = some (K.id, dataIn "lobby") := by
    simp [incoming, Event.say, hK]
  obtain ⟨added, hadded, hframes⟩ := AllSteps.last hrun hw hw' K (dataIn "lobby") hK hin
    (Or.inl rfl) (by simp [dataIn]) 1
  have hout : added = [.relay out] := List.append_cancel_left (hadded.symm.trans hqueue)
  rcases hframes (.relay out) (by rw [hout]; exact List.mem_singleton_self _) with
    ⟨text, htext⟩ | ⟨-, hsame⟩
  · exact absurd htext (by simp)
  · have heq := hsame K' (List.mem_of_getElem? hK') hchan
    rw [htenant, htenant'] at heq
    exact absurd heq (by simp)

end Dendri
