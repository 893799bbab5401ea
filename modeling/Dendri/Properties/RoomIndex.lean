import Dendri.System
import Dendri.Properties.Admission

/-!
The three records of room membership: `rooms`, the reverse index
`client_rooms`, and the lists of `pending_removals`.

* `Indexed`: membership is recorded exactly in the index or in the pending
  list, and no room is empty;
* `ListsMerge`: the conditions under which the operations that replace a list,
  or look at one list only, lose nothing: a disconnect replaces the pending
  list by the index, a reconnect replaces the index by the pending list, and
  `ROOM-LEAVE` does not look at the pending list;
* `indexed_iff_of_step`, `rooms_indexed_iff`: a step, and then a run, keeps
  `Indexed` just when these conditions hold;
* `Mirrored`, `mirrored_of_step`, `rooms_mirrored`: without a session TTL
  nothing is ever pending, the conditions hold by themselves, and `client_rooms`
  mirrors `rooms` in every reachable state.
-/

namespace Dendri

open AppState Transition

/-- Membership is recorded exactly in the reverse index or in the pending list,
and no room is empty. -/
structure Indexed (s : AppState) : Prop where
  coherent : s.ledger.Coherent
  noEmptyRoom : NoEmptyRoom s

lemma Indexed.of_roomMaps {s t : AppState} (h : Indexed s) (hmaps : t.roomMaps = s.roomMaps) :
    Indexed t := by
  obtain ⟨hl, -, hn⟩ := memberships_of_roomMaps hmaps
  exact ⟨by rw [hl]; exact h.coherent, hn h.noEmptyRoom⟩

/-- The disconnect of `id` loses no list: without a session TTL, no room of the
index is pending; with one, the list it replaces is part of the index, unless
there is nothing to replace it by. -/
def DisconnectMerges (cfg : Config) (s : AppState) (id : String) : Prop :=
  if cfg.sessionTtl = 0 then ∀ room, s.ledger.index id room → ¬s.ledger.pending id room
  else (∃ room, s.ledger.index id room) →
    ∀ room, s.ledger.pending id room → s.ledger.index id room

/-- A WebSocket request that takes the reconnect branch and finds a pending
removal. -/
def RestoresSession (env : Env) (cfg : Config) (s : AppState) (p : Params) : Prop :=
  p.Authenticates env cfg ∧ p.Valid ∧ existingToken env s p.id = some p.token ∧ HasPending s p.id

/-- No step loses a list. -/
structure ListsMerge (cfg : Config) (w : World) (l : Label) : Prop where
  /-- A room that is left is not pending. -/
  leave : ∀ id msg key, incoming cfg w l.event = some (id, msg) → leaves w.app id msg = some key →
    ¬w.app.ledger.pending id key
  disconnect : ∀ k K, cleanedUp w l.event = some (k, K) → DisconnectMerges cfg w.app K.id
  /-- The index that a restored list replaces is part of it. -/
  restore : ∀ p : Params, l.event = .connect p.ws → RestoresSession l.env cfg w.app p →
    ∀ room, w.app.ledger.index p.id room → w.app.ledger.pending p.id room

/-- Only `ROOM-LEAVE` leaves, and then it joins nothing and is not metered. -/
lemma leaves_some (cfg : Config) (env : Env) {s : AppState} {id : String} {msg : Message}
    {key : String} (h : leaves s id msg = some key) :
    joins cfg s id msg = none ∧ allowed env id msg.type_ = true := by
  have htype : msg.type_ = .RoomLeave := by
    by_contra hne
    rw [leaves, if_neg hne] at h
    exact absurd h (by simp)
  rw [joins, allowed, htype]
  exact ⟨rfl, rfl⟩

/-- A message keeps the lists just when the room it leaves is not pending. -/
lemma indexed_iff_of_receives {env : Env} {cfg : Config} {s s' : AppState} {id : String}
    {msg : Message} (hs : Indexed s) (hrec : Receives env cfg s id msg s') :
    Indexed s' ↔ ∀ key, leaves s id msg = some key → ¬s.ledger.pending id key := by
  obtain ⟨hledger, -, hnoEmpty⟩ := hrec.moves hs.coherent.sound
  have hiff : Indexed s' ↔ s'.ledger.Coherent :=
    ⟨fun h => h.coherent, fun h => ⟨h, hnoEmpty hs.noEmptyRoom⟩⟩
  rw [hiff, hledger]
  cases hleaves : leaves s id msg with
  | some key =>
      obtain ⟨hjoins, hallowed⟩ := leaves_some cfg env hleaves
      rw [hjoins, hallowed]
      simp only [if_true, movedBy, Option.some.injEq, forall_eq']
      exact Ledger.coherent_leave_iff hs.coherent
  | none =>
      simp only [ite_self, reduceCtorEq, false_imp_iff, implies_true, iff_true]
      cases (if allowed env id msg.type_ = true then joins cfg s id msg else none) with
      | none => exact hs.coherent
      | some key => exact hs.coherent.join

/-- A complete removal keeps the lists just when it merges them. -/
lemma indexed_iff_of_unlists {cfg : Config} {s s' : AppState} {id : String} (hs : Indexed s)
    (hun : s.ledger.Sound → Unlists cfg id s s') : Indexed s' ↔ DisconnectMerges cfg s id := by
  obtain ⟨hledger, -, -, hnoEmpty⟩ := hun hs.coherent.sound
  have hiff : Indexed s' ↔ s'.ledger.Coherent :=
    ⟨fun h => h.coherent, fun h => ⟨h, hnoEmpty hs.noEmptyRoom⟩⟩
  rw [hiff, hledger, DisconnectMerges]
  split_ifs
  · exact Ledger.coherent_removeAll_iff hs.coherent
  · exact Ledger.coherent_defer_iff hs.coherent

/-- An admitted request keeps the lists just when the list it restores contains
the index it replaces. -/
lemma indexed_iff_of_admits {env : Env} {cfg : Config} {s s' : AppState} {r : Request} {K : Conn}
    (hs : Indexed s) (hout : connect env cfg s r = .admitted K s')
    (hadm : Admits env cfg s r K s') :
    Indexed s' ↔ ∀ p : Params, r = p.ws → RestoresSession env cfg s p →
      ∀ room, s.ledger.index p.id room → s.ledger.pending p.id room := by
  cases hadm with
  | reconnect q K s' hK htransport hchan htoken hreg hrest =>
      obtain ⟨p, hp, hid, htok⟩ := exists_params hK
      have hadmitted : (connect env cfg s p.ws).isAdmitted = true := by rw [← hp, hout]; rfl
      obtain ⟨hauth, hvalid, -⟩ := (isAdmitted_ws_iff env cfg s p).mp hadmitted
      have hiff : Indexed s' ↔ s'.ledger.Coherent :=
        ⟨fun h => h.coherent, fun h => ⟨h, hrest.noEmptyRoom hs.noEmptyRoom⟩⟩
      have honly : (∀ p' : Params, Request.ws q = p'.ws → RestoresSession env cfg s p' →
          ∀ room, s.ledger.index p'.id room → s.ledger.pending p'.id room) ↔
          (HasPending s K.id → ∀ room, s.ledger.index K.id room → s.ledger.pending K.id room) := by
        constructor
        · intro h hpending
          rw [← hid] at hpending ⊢
          exact h p hp ⟨hauth, hvalid, by rw [hid, htok]; exact htoken, hpending⟩
        · rintro h p' hp' ⟨-, -, -, hpending⟩
          rw [← (Params.ws_inj (hp.symm.trans hp')).1, hid] at hpending ⊢
          exact h hpending
      rw [hiff, honly, hrest.ledger]
      split_ifs with hpending
      · rw [Ledger.coherent_restore_iff hs.coherent]
        exact ⟨fun h _ => h, fun h => h hpending⟩
      · exact ⟨fun _ h => absurd h hpending, fun _ => hs.coherent⟩
  | register q K s' hK htransport hchan htoken hslot hreg hmaps =>
      obtain ⟨p, hp, hid, htok⟩ := exists_params hK
      refine ⟨fun _ p' hp' hr => ?_, fun _ => hs.of_roomMaps hmaps⟩
      have htoken' := hr.2.2.1
      rw [← (Params.ws_inj (hp.symm.trans hp')).1, hid, htoken] at htoken'
      exact absurd htoken' (by simp)
  | stream q K s' hK htransport hchan hslot hreg hmaps =>
      exact ⟨fun _ p hp => absurd hp (by simp [Params.ws]), fun _ => hs.of_roomMaps hmaps⟩
  | poll q K s' hK htransport hchan hslot hreg hmaps =>
      exact ⟨fun _ p hp => absurd hp (by simp [Params.ws]), fun _ => hs.of_roomMaps hmaps⟩

lemma indexed_cleanupExpiredSessions (env : Env) (cfg : Config) {s : AppState} (hs : Indexed s) :
    Indexed (cleanupExpiredSessions env cfg s) := by
  refine cleanupExpiredSessions_induction (P := Indexed) env cfg hs fun t id ht => ?_
  refine ⟨?_, noEmptyRoom_expireSession ht.noEmptyRoom id⟩
  rw [ledger_expireSession ht.coherent.sound id]
  exact ht.coherent.expire

/-- A step of none of the three kinds. -/
lemma ListsMerge.of_none {cfg : Config} {w : World} {l : Label}
    (hin : incoming cfg w l.event = none) (hdown : cleanedUp w l.event = none)
    (hconnect : ∀ r, l.event ≠ .connect r) : ListsMerge cfg w l where
  leave id msg key hmsg := absurd (hin.symm.trans hmsg) (by simp)
  disconnect k K hK := absurd (hdown.symm.trans hK) (by simp)
  restore p hp := absurd hp (hconnect _)

/-- A cleanup is about its disconnect only. -/
lemma listsMerge_iff_of_cleanedUp {cfg : Config} {w : World} {l : Label} {k : ℕ} {K : Conn}
    (hdown : cleanedUp w l.event = some (k, K)) :
    ListsMerge cfg w l ↔ DisconnectMerges cfg w.app K.id := by
  obtain ⟨hin, hconnect, -⟩ := only_of_cleanedUp cfg hdown
  refine ⟨fun hm => hm.disconnect k K hdown, fun hm => ⟨fun id msg key hmsg => ?_, ?_, ?_⟩⟩
  · exact absurd (hin.symm.trans hmsg) (by simp)
  · intro k' K' hK'
    obtain ⟨-, rfl⟩ := Prod.mk.inj (Option.some.inj (hdown.symm.trans hK'))
    exact hm
  · exact fun p hp => absurd hp (hconnect _)

/-- One step keeps the lists just when it merges them. -/
lemma indexed_iff_of_step {cfg : Config} {w w' : World} {l : Label} (hw : Indexed w.app)
    (h : step cfg w l = some w') : Indexed w'.app ↔ ListsMerge cfg w l := by
  obtain ⟨env, ev⟩ := l
  have hother : incoming cfg w ev = none → cleanedUp w ev = none → (∀ r, ev ≠ .connect r) →
      Indexed w'.app → (Indexed w'.app ↔ ListsMerge cfg w ⟨env, ev⟩) := by
    intro hin hdown hconnect hw'
    exact ⟨fun _ => ListsMerge.of_none hin hdown hconnect, fun _ => hw'⟩
  have ht := step_trans h
  dsimp only at ht
  cases ht with
  | refused r why hout =>
      have hsame := hw.of_roomMaps (withClaims_frame w.app (storedClaims env cfg r)).2
      refine ⟨fun _ => ⟨fun id msg key hsome => ?_, fun k K hsome => ?_, fun p hp hr => ?_⟩,
        fun _ => hsame⟩
      · exact absurd hsome (by simp [incoming])
      · exact absurd hsome (by simp [cleanedUp])
      · obtain ⟨hauth, hvalid, htoken, -⟩ := hr
        have hadmitted : (connect env cfg w.app p.ws).isAdmitted = true := by
          refine (isAdmitted_ws_iff env cfg w.app p).mpr ⟨hauth, hvalid, ?_⟩
          rw [OwnsId, htoken]
        rw [← Event.connect.inj hp, hout] at hadmitted
        exact absurd hadmitted (by simp [Outcome.isAdmitted])
  | admitted r K s' hout hadm =>
      rw [indexed_iff_of_admits hw hout hadm]
      refine ⟨fun hm => ⟨fun id msg key hsome => ?_, fun k K hsome => ?_, fun p hp => ?_⟩,
        fun hm p hp => hm.restore p (by rw [hp])⟩
      · exact absurd hsome (by simp [incoming])
      · exact absurd hsome (by simp [cleanedUp])
      · exact hm p (Event.connect.inj hp)
  | message ev id msg s' hin hrec =>
      obtain ⟨hnotdown, hconnect, -⟩ := only_of_incoming hin
      rw [indexed_iff_of_receives hw hrec]
      refine ⟨fun hm => ⟨fun id' msg' key hsome => ?_, fun k K hsome => ?_, fun p hp => ?_⟩,
        fun hm key => hm.leave id msg key hin⟩
      · obtain ⟨rfl, rfl⟩ := Prod.mk.inj (Option.some.inj (hin.symm.trans hsome))
        exact hm key
      · exact absurd (hnotdown.symm.trans hsome) (by simp)
      · exact absurd hp (hconnect _)
  | socketClosed k K s' hdown hreg hun =>
      rw [listsMerge_iff_of_cleanedUp hdown]
      exact indexed_iff_of_unlists hw hun
  | streamCleaned ev k K s' f hev hdown hlater hclose hreg hun =>
      rw [listsMerge_iff_of_cleanedUp hdown]
      exact indexed_iff_of_unlists hw hun
  | evicted =>
      exact hother rfl rfl (by simp) (hw.of_roomMaps (registry_evictBroken env cfg w.app).2)
  | reconciled => exact hother rfl rfl (by simp) (hw.of_roomMaps rfl)
  | expired => exact hother rfl rfl (by simp) (indexed_cleanupExpiredSessions env cfg hw)
  | replayEvicted => exact hother rfl rfl (by simp) (hw.of_roomMaps rfl)
  | quiet ev w' hin hdown hconnect hevict hreg hmaps hconns =>
      exact hother hin hdown hconnect (hw.of_roomMaps hmaps)

lemma indexed_init (cfg : Config) (redis : Redis) : Indexed (World.init cfg redis).app := by
  refine ⟨fun id room => ⟨?_, ?_⟩, fun room members h => ?_⟩
  · rintro ⟨members, h, -⟩
    exact absurd h (by simp [World.init, AppState.new])
  · rintro (⟨rooms, h, -⟩ | ⟨pending, h, -⟩)
    · exact absurd h (by simp [World.init, AppState.new])
    · exact absurd h (by simp [World.init, AppState.new])
  · exact absurd h (by simp [World.init, AppState.new])

/-- In every run from an empty server: a client is in a room just when the room
is in its reverse index or in its pending list, and no room is empty, in all
states just when every step merges the lists. -/
theorem rooms_indexed_iff (cfg : Config) (redis : Redis) (ls : List Label) :
    AllSteps (step cfg) (fun _ _ w' => Indexed w'.app) (World.init cfg redis) ls ↔
      AllSteps (step cfg) (fun w l _ => ListsMerge cfg w l) (World.init cfg redis) ls :=
  AllSteps.iff_of_invariant (I := fun w : World => Indexed w.app)
    (fun _ _ _ => indexed_iff_of_step) (fun _ _ _ _ _ hG => hG) (indexed_init cfg redis)

/-- `alice` joins a room and disconnects, connects again, joins another room
and disconnects again. -/
def twoDisconnects : List Label :=
  [.connect (Params.plain "alice" "tok").ws, .say 0 (roomJoin "lobby"), .wsClose 0,
    .connect (Params.plain "alice" "tok").ws, .say 1 (roomJoin "vip"), .wsClose 1].map quietly

/-- With a session TTL membership is not always recorded: after the second
disconnect the first room is in neither list of `alice`, who is still one of
its members. -/
theorem second_disconnect_orphans_room :
    ¬∀ (cfg : Config) (redis : Redis) (ls : List Label), 0 < cfg.sessionTtl →
      AllSteps (step cfg) (fun _ _ w' => Indexed w'.app) (World.init cfg redis) ls := by
  intro hall
  have hrun := hall {} Redis.empty twoDisconnects (by decide)
  have heval : (run (step {}) (World.init {} Redis.empty) twoDisconnects).map (fun w =>
      (w.app.rooms.lookup "lobby", w.app.clientRooms.lookup "alice",
        (w.app.pendingRemovals.lookup "alice").map PendingRemoval.rooms)) =
      some (some {"alice"}, none, some ["vip"]) := by decide +kernel
  obtain ⟨w, hw, hobs⟩ := Option.map_eq_some_iff.mp heval
  rw [Prod.mk.injEq, Prod.mk.injEq] at hobs
  obtain ⟨hrooms, hindex, hpending⟩ := hobs
  have hindexed := AllSteps.of_run (G := fun w : World => Indexed w.app)
    (indexed_init {} Redis.empty) hrun hw
  have hmember : w.app.ledger.member "alice" "lobby" := ⟨_, hrooms, by decide⟩
  rcases (hindexed.coherent "alice" "lobby").mp hmember with ⟨rooms, h, -⟩ | ⟨pending, h, hmem⟩
  · rw [hindex] at h
    exact absurd h (by simp)
  · rw [h, Option.map_some, Option.some.injEq] at hpending
    rw [hpending] at hmem
    exact absurd hmem (by decide)

/-! ### Without a session TTL -/

/-- `client_rooms` is the reverse of `rooms`, and no room is empty. -/
structure Mirrored (s : AppState) : Prop where
  mirror : ∀ c room, (∃ members, s.rooms.lookup room = some members ∧ c ∈ members) ↔
    ∃ rooms, s.clientRooms.lookup c = some rooms ∧ room ∈ rooms
  noEmptyRoom : ∀ room members, s.rooms.lookup room = some members → members ≠ ∅

/-- Membership is recorded, and no client waits for its removal. -/
structure Immediate (s : AppState) : Prop where
  indexed : Indexed s
  waiting : s.entries.waiting = ∅

lemma Immediate.not_hasPending {s : AppState} (h : Immediate s) (c : String) :
    ¬HasPending s c := by
  intro hp
  have hmem := mem_waiting_iff.mpr hp
  rw [h.waiting] at hmem
  exact absurd hmem (Finset.notMem_empty c)

lemma Immediate.not_pending {s : AppState} (h : Immediate s) (c room : String) :
    ¬s.ledger.pending c room := by
  rintro ⟨pending, hl, -⟩
  exact h.not_hasPending c (by rw [HasPending, hl]; rfl)

lemma Immediate.mirrored {s : AppState} (h : Immediate s) : Mirrored s where
  mirror c room := by
    have hc := h.indexed.coherent c room
    exact ⟨fun hm => (hc.mp hm).resolve_right (h.not_pending c room), fun hi => hc.mpr (Or.inl hi)⟩
  noEmptyRoom := h.indexed.noEmptyRoom

/-- Without a session TTL no step makes a client wait. -/
lemma waiting_of_step {cfg : Config} {w w' : World} {l : Label} (hcfg : cfg.sessionTtl = 0)
    (hs : w.app.ledger.Sound) (h : step cfg w l = some w') :
    w'.app.entries.waiting ⊆ w.app.entries.waiting := by
  have hframe : ∀ s' : AppState, s'.roomMaps = w.app.roomMaps →
      s'.entries.waiting ⊆ w.app.entries.waiting := by
    intro s' hmaps
    rw [(memberships_of_roomMaps hmaps).2.1]
  have hdown : ∀ (id : String) (s' : AppState), Unlists cfg id w.app s' →
      s'.entries.waiting ⊆ w.app.entries.waiting := by
    intro id s' hun
    have hwait := hun.waiting
    rwa [if_pos hcfg] at hwait
  obtain ⟨env, ev⟩ := l
  have ht := step_trans h
  dsimp only at ht
  cases ht with
  | refused r why hout => exact hframe _ (withClaims_frame _ _).2
  | admitted r K s' hout hadm => exact waiting_of_admits hadm
  | message ev id msg s' hin hrec =>
      dsimp only
      rw [(hrec.moves hs).entries]
      cases (if allowed env id msg.type_ = true then joins cfg w.app id msg else none) with
      | none => exact Finset.Subset.refl _
      | some key => exact Finset.Subset.refl _
  | socketClosed k K s' hdown' hreg hun => exact hdown K.id s' (hun hs)
  | streamCleaned ev k K s' f hev hdown' hlater hclose hreg hun => exact hdown K.id s' (hun hs)
  | evicted => exact hframe _ (registry_evictBroken env cfg w.app).2
  | reconciled => exact hframe _ rfl
  | expired => exact waiting_cleanupExpiredSessions env cfg w.app
  | replayEvicted => exact hframe _ rfl
  | quiet ev w' hin hdown' hconnect hevict hreg hmaps hconns => exact hframe _ hmaps

/-- Where nothing is pending, every step merges the lists. -/
lemma listsMerge_of_immediate {cfg : Config} {w : World} {l : Label} (hcfg : cfg.sessionTtl = 0)
    (hw : Immediate w.app) : ListsMerge cfg w l where
  leave id _ key _ _ := hw.not_pending id key
  disconnect k K _ := by
    rw [DisconnectMerges, if_pos hcfg]
    exact fun room _ => hw.not_pending K.id room
  restore p _ hr := absurd hr.2.2.2 (hw.not_hasPending p.id)

lemma immediate_of_step {cfg : Config} {w w' : World} {l : Label} (hcfg : cfg.sessionTtl = 0)
    (hw : Immediate w.app) (h : step cfg w l = some w') : Immediate w'.app := by
  refine ⟨(indexed_iff_of_step hw.indexed h).mpr (listsMerge_of_immediate hcfg hw), ?_⟩
  have hsub := waiting_of_step hcfg hw.indexed.coherent.sound h
  rw [hw.waiting] at hsub
  exact Finset.subset_empty.mp hsub

/-- Without a session TTL, in every state reachable from an empty server: a
client is in a room just when the room is in its reverse index, and no room is
empty. -/
theorem rooms_mirrored {cfg : Config} (hcfg : cfg.sessionTtl = 0) (redis : Redis)
    {ls : List Label} {w : World} (hrun : run (step cfg) (World.init cfg redis) ls = some w) :
    Mirrored w.app := by
  have hall : AllSteps (step cfg) (fun _ _ _ => True) (World.init cfg redis) ls :=
    AllSteps.of_mem _ fun _ _ _ _ _ => trivial
  have himmediate : Immediate w.app :=
    run_invariant (I := fun w : World => Immediate w.app)
      (fun _ _ _ hw h _ => immediate_of_step hcfg hw h) ⟨indexed_init cfg redis, rfl⟩ hall hrun
  exact himmediate.mirrored

/-- `alice` joins two rooms and leaves one, and `bob` joins the other one and disconnects,
without a session TTL. -/
theorem rooms_mirrored_alice :
    ∃ w, run (step { sessionTtl := 0 }) (World.init { sessionTtl := 0 } Redis.empty)
        ([.connect (Params.plain "alice" "tok").ws, .say 0 (roomJoin "lobby"),
          .say 0 (roomJoin "vip"), .say 0 { type_ := .RoomLeave, room := some "vip" },
          .connect (Params.plain "bob" "tok").ws, .say 1 (roomJoin "lobby"),
          .wsClose 1].map quietly) = some w ∧
      w.app.rooms.lookup "lobby" = some {"alice"} ∧ Mirrored w.app := by
  have heval : (run (step { sessionTtl := 0 }) (World.init { sessionTtl := 0 } Redis.empty)
      ([.connect (Params.plain "alice" "tok").ws, .say 0 (roomJoin "lobby"),
        .say 0 (roomJoin "vip"), .say 0 { type_ := .RoomLeave, room := some "vip" },
        .connect (Params.plain "bob" "tok").ws, .say 1 (roomJoin "lobby"),
        .wsClose 1].map quietly)).map
      (fun w => w.app.rooms.lookup "lobby") = some (some {"alice"}) := by decide +kernel
  obtain ⟨w, hw, hlobby⟩ := Option.map_eq_some_iff.mp heval
  exact ⟨w, hw, hlobby, rooms_mirrored rfl Redis.empty hw⟩

end Dendri
