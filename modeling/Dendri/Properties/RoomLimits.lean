import Dendri.Properties.RoomIndex

/-!
The limits on rooms, over whole runs. `ROOM-JOIN` checks the size of the room,
the number of rooms and the number of rooms of the client. It counts the last in
the reverse index, which does not list the rooms that a client is kept in after
a disconnect, and a reconnect that restores a session checks nothing.

* `roomsOf`: the rooms a client is a member of;
* `WithinLimits`: the three limits hold;
* `MemberStep`, `members_of_step`: a step makes nobody a member of a room, or is
  an accepted join, or restores a session;
* `LimitsSeeAll`: whoever joins has all its rooms in the reverse index, and a
  restored session names only rooms that the client is still in;
* `room_limits_hold`: in a run of such steps the limits hold in all states;
* `rejoin_exceeds_limit`: without the condition they do not.
-/

namespace Dendri

open AppState Transition

/-! ### The limits -/

/-- The rooms a client is a member of. -/
def AppState.roomsOf (s : AppState) (id : String) : Finset String :=
  s.rooms.keys.filter fun key => id ∈ (s.rooms.lookup key).getD ∅

/-- Every room, the server and every client are within the configured limits,
`0` being no limit. -/
structure WithinLimits (cfg : Config) (s : AppState) : Prop where
  size : 0 < cfg.maxRoomSize → ∀ key members, s.rooms.lookup key = some members →
    members.card ≤ cfg.maxRoomSize
  total : 0 < cfg.maxTotalRooms → s.rooms.keys.card ≤ cfg.maxTotalRooms
  perClient : 0 < cfg.maxRoomsPerClient → ∀ id, (s.roomsOf id).card ≤ cfg.maxRoomsPerClient

lemma mem_keys_of_member {s : AppState} {id key : String} (h : s.ledger.member id key) :
    key ∈ s.rooms.keys := by
  obtain ⟨members, hl, -⟩ := h
  exact Finmap.mem_keys.mpr (Finmap.mem_of_lookup_eq_some hl)

lemma mem_roomsOf {s : AppState} {id key : String} :
    key ∈ s.roomsOf id ↔ s.ledger.member id key := by
  rw [AppState.roomsOf, Finset.mem_filter, mem_getD_empty]
  exact ⟨fun h => h.2, fun h => ⟨mem_keys_of_member h, h⟩⟩

/-- A room that is not empty has a member. -/
lemma exists_member {s : AppState} (h : NoEmptyRoom s) {key : String}
    (hkey : key ∈ s.rooms.keys) : ∃ id, s.ledger.member id key := by
  obtain ⟨members, hl⟩ := Finmap.mem_iff.mp (Finmap.mem_keys.mp hkey)
  obtain ⟨id, hid⟩ := Finset.nonempty_iff_ne_empty.mpr (h key members hl)
  exact ⟨id, members, hl, hid⟩

lemma member_of_mem {s : AppState} {id key : String} {members : Finset String}
    (hl : s.rooms.lookup key = some members) : s.ledger.member id key ↔ id ∈ members := by
  constructor
  · rintro ⟨members', hl', hid⟩
    rwa [Option.some.inj (hl.symm.trans hl')]
  · exact fun hid => ⟨members, hl, hid⟩

/-- Nobody becomes a member. -/
lemma WithinLimits.of_subset {cfg : Config} {s t : AppState} (h : WithinLimits cfg s)
    (hne : NoEmptyRoom t)
    (hsub : ∀ id key, t.ledger.member id key → s.ledger.member id key) :
    WithinLimits cfg t where
  size hpos key members hl := by
    obtain ⟨id, hid⟩ := Finset.nonempty_iff_ne_empty.mpr (hne key members hl)
    obtain ⟨members', hl', -⟩ := hsub id key ⟨members, hl, hid⟩
    have hsubset : members ⊆ members' := fun d hd =>
      (member_of_mem hl').mp (hsub d key ⟨members, hl, hd⟩)
    exact (Finset.card_le_card hsubset).trans (h.size hpos key members' hl')
  total hpos := by
    have hsubset : t.rooms.keys ⊆ s.rooms.keys := by
      intro key hkey
      obtain ⟨id, hid⟩ := exists_member hne hkey
      exact mem_keys_of_member (hsub id key hid)
    exact (Finset.card_le_card hsubset).trans (h.total hpos)
  perClient hpos id := by
    have hsubset : t.roomsOf id ⊆ s.roomsOf id := fun key hkey =>
      mem_roomsOf.mpr (hsub id key (mem_roomsOf.mp hkey))
    exact (Finset.card_le_card hsubset).trans (h.perClient hpos id)

/-! ### Joining -/

/-- What the checks of an accepted join say about the limits. -/
structure JoinFits (cfg : Config) (s : AppState) (id key : String) : Prop where
  size : 0 < cfg.maxRoomSize → ((s.rooms.lookup key).getD ∅).card < cfg.maxRoomSize
  total : 0 < cfg.maxTotalRooms → key ∈ s.rooms.keys ∨ s.rooms.keys.card < cfg.maxTotalRooms
  perClient : 0 < cfg.maxRoomsPerClient → s.ledger.index id key ∨
    ((s.clientRooms.lookup id).getD ∅).card < cfg.maxRoomsPerClient

lemma joinFits_of_joins {cfg : Config} {s : AppState} {id key : String} {msg : Message}
    (hs : s.ledger.Sound) (h : joins cfg s id msg = some key) : JoinFits cfg s id key := by
  obtain ⟨room, hroom, rfl⟩ := room_of_joins h
  have hdenial : joinDenial cfg s id room = none := by
    by_contra hne
    rw [joins, hroom, Option.bind_some, if_neg hne, ite_self] at h
    exact absurd h (by simp)
  rw [joinDenial] at hdenial
  split_ifs at hdenial with hvalid hclaims hclient htotal hsize
  rw [mem_getD_empty] at hclient htotal
  refine ⟨fun hpos => ?_, fun hpos => ?_, fun hpos => ?_⟩
  · exact Nat.lt_of_not_le fun hle => hsize ⟨hpos, hle⟩
  · by_cases hkey : roomKey s id room ∈ s.rooms.keys
    · exact Or.inl hkey
    · refine Or.inr (Nat.lt_of_not_le fun hle => htotal ⟨fun hi => ?_, hpos, fun hm => ?_, hle⟩)
      · exact hkey (mem_keys_of_member (hs id _ hi))
      · exact hkey (Finmap.mem_keys.mpr hm)
  · by_cases hi : s.ledger.index id (roomKey s id room)
    · exact Or.inl hi
    · exact Or.inr (Nat.lt_of_not_le fun hle => hclient ⟨hi, hpos, hle⟩)

/-- An accepted join, of a client whose rooms are all in the reverse index. -/
lemma WithinLimits.of_join {cfg : Config} {s t : AppState} {id key : String}
    (h : WithinLimits cfg s) (hne : NoEmptyRoom t) (hfits : JoinFits cfg s id key)
    (hs : s.ledger.Sound) (hledger : t.ledger = s.ledger.join id key)
    (hindex : 0 < cfg.maxRoomsPerClient →
      ∀ room, s.ledger.member id room → s.ledger.index id room) :
    WithinLimits cfg t where
  size hpos key' members hl := by
    have hmember : ∀ d, d ∈ members ↔ s.ledger.member d key' ∨ (d = id ∧ key' = key) := by
      intro d
      rw [← member_of_mem hl, hledger]
      rfl
    by_cases hkey : key' = key
    · subst hkey
      have hsubset : members ⊆ insert id ((s.rooms.lookup key').getD ∅) := by
        intro d hd
        rw [Finset.mem_insert, mem_getD_empty]
        rcases (hmember d).mp hd with hold | ⟨hd, -⟩
        · exact Or.inr hold
        · exact Or.inl hd
      have hcard := (Finset.card_le_card hsubset).trans (Finset.card_insert_le _ _)
      have hroom := hfits.size hpos
      omega
    · obtain ⟨d, hd⟩ := Finset.nonempty_iff_ne_empty.mpr (hne key' members hl)
      have hold : ∀ d ∈ members, s.ledger.member d key' := fun d hd =>
        ((hmember d).mp hd).resolve_right fun hnew => hkey hnew.2
      obtain ⟨members', hl', -⟩ := hold d hd
      have hsubset : members ⊆ members' := fun d hd => (member_of_mem hl').mp (hold d hd)
      exact (Finset.card_le_card hsubset).trans (h.size hpos key' members' hl')
  total hpos := by
    have hsubset : t.rooms.keys ⊆ insert key s.rooms.keys := by
      intro key' hkey'
      obtain ⟨d, hd⟩ := exists_member hne hkey'
      rw [hledger] at hd
      rcases hd with hold | ⟨-, hnew⟩
      · exact Finset.mem_insert_of_mem (mem_keys_of_member hold)
      · exact Finset.mem_insert.mpr (Or.inl hnew)
    rcases hfits.total hpos with hkey | hlt
    · rw [Finset.insert_eq_of_mem hkey] at hsubset
      exact (Finset.card_le_card hsubset).trans (h.total hpos)
    · have hcard := (Finset.card_le_card hsubset).trans (Finset.card_insert_le _ _)
      omega
  perClient hpos d := by
    by_cases hd : d = id
    · subst hd
      have hsubset : t.roomsOf d ⊆ insert key (s.roomsOf d) := by
        intro key' hkey'
        have hm := mem_roomsOf.mp hkey'
        rw [hledger] at hm
        rcases hm with hold | ⟨-, hnew⟩
        · exact Finset.mem_insert_of_mem (mem_roomsOf.mpr hold)
        · exact Finset.mem_insert.mpr (Or.inl hnew)
      rcases hfits.perClient hpos with hi | hlt
      · rw [Finset.insert_eq_of_mem (mem_roomsOf.mpr (hs d key hi))] at hsubset
        exact (Finset.card_le_card hsubset).trans (h.perClient hpos d)
      · have hlisted : s.roomsOf d ⊆ (s.clientRooms.lookup d).getD ∅ := fun key' hkey' =>
          mem_getD_empty.mpr (hindex hpos key' (mem_roomsOf.mp hkey'))
        have hcard := (Finset.card_le_card hsubset).trans (Finset.card_insert_le _ _)
        have hle := Finset.card_le_card hlisted
        omega
    · have hsubset : t.roomsOf d ⊆ s.roomsOf d := by
        intro key' hkey'
        have hm := mem_roomsOf.mp hkey'
        rw [hledger] at hm
        exact mem_roomsOf.mpr (hm.resolve_right fun hnew => hd hnew.1)
      exact (Finset.card_le_card hsubset).trans (h.perClient hpos d)

/-! ### What a step does to memberships -/

/-- A step makes nobody a member of a room, or is an accepted join, or restores
a session. -/
inductive MemberStep (cfg : Config) (w : World) (l : Label) (w' : World) : Prop
  | fewer (h : ∀ id key, w'.app.ledger.member id key → w.app.ledger.member id key) :
      MemberStep cfg w l w'
  | joined (id : String) (msg : Message) (key : String)
      (hin : incoming cfg w l.event = some (id, msg)) (hjoins : joins cfg w.app id msg = some key)
      (hledger : w'.app.ledger = w.app.ledger.join id key) : MemberStep cfg w l w'
  | restored (p : Params) (hev : l.event = .connect p.ws)
      (hrestores : RestoresSession l.env cfg w.app p)
      (hledger : w'.app.ledger = w.app.ledger.restore p.id) : MemberStep cfg w l w'

lemma MemberStep.of_ledger {cfg : Config} {w w' : World} {l : Label}
    (h : w'.app.ledger = w.app.ledger) : MemberStep cfg w l w' :=
  .fewer fun id key hm => by rwa [h] at hm

/-- An admitted request leaves the memberships alone, or restores a session. -/
lemma ledger_of_admits {env : Env} {cfg : Config} {s s' : AppState} {r : Request} {K : Conn}
    (hout : connect env cfg s r = .admitted K s') (hadm : Admits env cfg s r K s') :
    (NoEmptyRoom s → NoEmptyRoom s') ∧ (s'.ledger = s.ledger ∨
      ∃ p : Params, r = p.ws ∧ RestoresSession env cfg s p ∧
        s'.ledger = s.ledger.restore p.id) := by
  cases hadm with
  | reconnect q K s' hK htransport hchan htoken hreg hrest =>
      refine ⟨hrest.noEmptyRoom, ?_⟩
      obtain ⟨p, hp, hid, htok⟩ := exists_params hK
      have hadmitted : (connect env cfg s p.ws).isAdmitted = true := by rw [← hp, hout]; rfl
      obtain ⟨hauth, hvalid, -⟩ := (isAdmitted_ws_iff env cfg s p).mp hadmitted
      have hledger := hrest.ledger
      split_ifs at hledger with hpending
      · rw [← hid] at hpending htoken hledger
        exact Or.inr ⟨p, hp, ⟨hauth, hvalid, by rw [htok]; exact htoken, hpending⟩, hledger⟩
      · exact Or.inl hledger
  | register q K s' hK htransport hchan htoken hslot hreg hmaps =>
      obtain ⟨hl, -, hn⟩ := memberships_of_roomMaps hmaps
      exact ⟨hn, Or.inl hl⟩
  | stream q K s' hK htransport hchan hslot hreg hmaps =>
      obtain ⟨hl, -, hn⟩ := memberships_of_roomMaps hmaps
      exact ⟨hn, Or.inl hl⟩
  | poll q K s' hK htransport hchan hslot hreg hmaps =>
      obtain ⟨hl, -, hn⟩ := memberships_of_roomMaps hmaps
      exact ⟨hn, Or.inl hl⟩

lemma members_of_step {cfg : Config} {w w' : World} {l : Label} (hw : w.app.ledger.Sound)
    (hn : NoEmptyRoom w.app) (h : step cfg w l = some w') :
    NoEmptyRoom w'.app ∧ MemberStep cfg w l w' := by
  have hframe : ∀ t : World, t.app.roomMaps = w.app.roomMaps →
      NoEmptyRoom t.app ∧ MemberStep cfg w l t := by
    intro t hmaps
    obtain ⟨hl, -, hne⟩ := memberships_of_roomMaps hmaps
    exact ⟨hne hn, .of_ledger hl⟩
  have hunlists : ∀ (id : String) (t : World), Unlists cfg id w.app t.app →
      NoEmptyRoom t.app ∧ MemberStep cfg w l t := by
    intro id t hun
    refine ⟨hun.noEmptyRoom hn, .fewer fun d key hm => ?_⟩
    rw [hun.ledger] at hm
    split_ifs at hm
    · exact hm.1
    · exact hm
  obtain ⟨env, ev⟩ := l
  have ht := step_trans h
  dsimp only at ht
  cases ht with
  | refused r why hout => exact hframe _ (withClaims_frame _ _).2
  | admitted r K s' hout hadm =>
      obtain ⟨hne, hledger⟩ := ledger_of_admits hout hadm
      refine ⟨hne hn, ?_⟩
      rcases hledger with heq | ⟨p, hp, hrestores, heq⟩
      · exact .of_ledger heq
      · exact .restored p (congrArg Event.connect hp) hrestores heq
  | message ev id msg s' hin hrec =>
      obtain ⟨hledger, -, hne⟩ := hrec.moves hw
      refine ⟨hne hn, ?_⟩
      cases hjoins : (if allowed env id msg.type_ = true then joins cfg w.app id msg else none) with
      | some key =>
          rw [hjoins] at hledger
          split_ifs at hjoins
          exact .joined id msg key hin hjoins hledger
      | none =>
          rw [hjoins] at hledger
          refine .fewer fun d key hm => ?_
          rw [hledger] at hm
          cases hleft : (if allowed env id msg.type_ = true then leaves w.app id msg
              else none) with
          | none =>
              rw [hleft] at hm
              exact hm
          | some left =>
              rw [hleft] at hm
              exact hm.1
  | socketClosed k K s' hdown hreg hun => exact hunlists K.id _ (hun hw)
  | streamCleaned ev k K s' f hev hdown hlater hclose hreg hun => exact hunlists K.id _ (hun hw)
  | evicted => exact hframe _ (registry_evictBroken env cfg w.app).2
  | reconciled => exact hframe _ rfl
  | expired =>
      refine ⟨?_, .fewer fun id key hm => member_of_cleanupExpiredSessions hw hm⟩
      exact cleanupExpiredSessions_induction (P := NoEmptyRoom) env cfg hn fun t id ht =>
        noEmptyRoom_expireSession ht id
  | replayEvicted => exact hframe _ rfl
  | quiet ev w' hin hdown hconnect hevict hreg hmaps hconns => exact hframe _ hmaps

/-! ### Runs -/

/-- The checks see all memberships: whoever joins has all its rooms in the
reverse index, and a restored session names only rooms the client is in. -/
structure LimitsSeeAll (cfg : Config) (w : World) (l : Label) : Prop where
  join : 0 < cfg.maxRoomsPerClient → ∀ id msg key, incoming cfg w l.event = some (id, msg) →
    joins cfg w.app id msg = some key → ∀ room, w.app.ledger.member id room →
      w.app.ledger.index id room
  restore : ∀ p : Params, l.event = .connect p.ws → RestoresSession l.env cfg w.app p →
    ∀ room, w.app.ledger.pending p.id room → w.app.ledger.member p.id room

/-- The invariant: the limits, with the soundness of the index and the absence
of empty rooms. -/
structure Limited (cfg : Config) (s : AppState) : Prop where
  sound : s.ledger.Sound
  noEmptyRoom : NoEmptyRoom s
  within : WithinLimits cfg s

lemma limited_of_step {cfg : Config} {w w' : World} {l : Label} (hw : Limited cfg w.app)
    (h : step cfg w l = some w') (hsee : LimitsSeeAll cfg w l) : Limited cfg w'.app := by
  obtain ⟨hne, hmembers⟩ := members_of_step hw.sound hw.noEmptyRoom h
  refine ⟨sound_of_step hw.sound h, hne, ?_⟩
  cases hmembers with
  | fewer hsub => exact hw.within.of_subset hne hsub
  | joined id msg key hin hjoins hledger =>
      exact hw.within.of_join hne (joinFits_of_joins hw.sound hjoins) hw.sound hledger
        fun hpos => hsee.join hpos id msg key hin hjoins
  | restored p hev hrestores hledger =>
      refine hw.within.of_subset hne fun d key hm => ?_
      rw [hledger] at hm
      rcases hm with hold | ⟨rfl, hpending⟩
      · exact hold
      · exact hsee.restore p hev hrestores key hpending

lemma limited_init (cfg : Config) (redis : Redis) : Limited cfg (World.init cfg redis).app := by
  refine ⟨sound_init cfg redis, fun room members h => ?_, ⟨fun _ key members h => ?_, ?_, ?_⟩⟩
  · exact absurd h (by simp [World.init, AppState.new])
  · exact absurd h (by simp [World.init, AppState.new])
  · intro _
    simp [World.init, AppState.new]
  · intro _ id
    simp [World.init, AppState.new, AppState.roomsOf]

/-- In every run from an empty server in which the checks see all memberships,
the limits hold in all states. -/
theorem room_limits_hold {cfg : Config} {redis : Redis} {ls : List Label} {w : World}
    (hsee : AllSteps (step cfg) (fun w l _ => LimitsSeeAll cfg w l) (World.init cfg redis) ls)
    (hrun : run (step cfg) (World.init cfg redis) ls = some w) : WithinLimits cfg w.app := by
  have hlimited : Limited cfg w.app :=
    run_invariant (I := fun w : World => Limited cfg w.app)
      (fun _ _ _ hw h hP => limited_of_step hw h hP) (limited_init cfg redis) hsee hrun
  exact hlimited.within

/-- With nothing pending, and the rooms of the sender in its reverse index, the
checks see all memberships. -/
lemma limitsSeeAll_of_listed {cfg : Config} {w : World} {l : Label}
    (hpending : w.app.pendingRemovals.keys = ∅)
    (hlisted : ∀ p ∈ incoming cfg w l.event,
      w.app.roomsOf p.1 ⊆ (w.app.clientRooms.lookup p.1).getD ∅) : LimitsSeeAll cfg w l where
  join _ id msg _ hin _ room hm :=
    mem_getD_empty.mp (hlisted (id, msg) hin (mem_roomsOf.mpr hm))
  restore p _ hrestores := by
    have hkey : p.id ∈ w.app.pendingRemovals.keys :=
      Finmap.mem_keys.mpr (Finmap.lookup_isSome.mp hrestores.2.2.2)
    rw [hpending] at hkey
    exact absurd hkey (Finset.notMem_empty _)

/-- One room for each client. -/
def oneRoomEach : Config := { maxRoomsPerClient := 1 }

/-- `alice` joins a room, and asks for another one. -/
theorem room_limits_hold_alice :
    ∃ w, run (step oneRoomEach) (World.init oneRoomEach Redis.empty)
        ([.connect (Params.plain "alice" "tok").ws, .say 0 (roomJoin "lobby"),
          .say 0 (roomJoin "vip")].map quietly) = some w ∧
      w.app.roomsOf "alice" = {"lobby"} ∧ WithinLimits oneRoomEach w.app := by
  have heval : (run (step oneRoomEach) (World.init oneRoomEach Redis.empty)
      ([.connect (Params.plain "alice" "tok").ws, .say 0 (roomJoin "lobby"),
        .say 0 (roomJoin "vip")].map quietly)).map (fun w => w.app.roomsOf "alice") =
      some {"lobby"} := by decide +kernel
  obtain ⟨w, hw, hrooms⟩ := Option.map_eq_some_iff.mp heval
  have hlisted : AllSteps (step oneRoomEach) (fun w l _ => w.app.pendingRemovals.keys = ∅ ∧
      ∀ p ∈ incoming oneRoomEach w l.event,
        w.app.roomsOf p.1 ⊆ (w.app.clientRooms.lookup p.1).getD ∅)
      (World.init oneRoomEach Redis.empty)
      ([.connect (Params.plain "alice" "tok").ws, .say 0 (roomJoin "lobby"),
        .say 0 (roomJoin "vip")].map quietly) := by decide +kernel
  refine ⟨w, hw, hrooms, room_limits_hold ?_ hw⟩
  exact AllSteps.of_invariant (I := fun _ => True)
    (fun _ _ _ _ _ hP => ⟨trivial, limitsSeeAll_of_listed hP.1 hP.2⟩) trivial hlisted

/-- The limit on the rooms of a client does not hold over runs: after a
disconnect and a plain reconnect `alice` joins a second room while it is still
in the first. -/
theorem rejoin_exceeds_limit :
    ¬∀ (cfg : Config) (redis : Redis) (ls : List Label) (w : World),
      run (step cfg) (World.init cfg redis) ls = some w → WithinLimits cfg w.app := by
  intro hall
  have heval : (run (step oneRoomEach) (World.init oneRoomEach Redis.empty)
      ([.connect (Params.plain "alice" "tok").ws, .say 0 (roomJoin "lobby"), .wsClose 0,
        .connect (Params.plain "alice" "tok").ws, .say 1 (roomJoin "vip")].map quietly)).map
      (fun w => w.app.roomsOf "alice") = some {"lobby", "vip"} := by decide +kernel
  obtain ⟨w, hw, hrooms⟩ := Option.map_eq_some_iff.mp heval
  have hlimit := (hall oneRoomEach Redis.empty _ w hw).perClient (by decide) "alice"
  rw [hrooms] at hlimit
  exact absurd hlimit (by decide)

end Dendri
