import Dendri.Concurrent.Ownership
import Dendri.System

/-!
Connection slots under concurrency: the counter `active_connections`, which
`try_reserve_connection_slot` raises and lowers again when the limit was
reached, and which `check_broken` overwrites with the number of clients.

* `slotCall`: a reservation and, if it succeeds, its release, with the
  `fetch_add` and each `fetch_sub` as one step; alone it is
  `tryReserveConnectionSlot` (`alone_reserve`);
* `slots_within_limit`: any number of such calls never hold more slots than the
  limit, and the counter is off by the calls that have not undone their
  increment;
* `taskStep`, `slotTasks`: connects of new clients, by the steps of
  `socketStep` but with the two operations of a refused reservation apart
  (`alone_socket`), closes and reconciliations, in any interleaving;
* `SlotsKept`: the counter counts the clients and the slots held without one;
* `counter_matches_clients`: it does so as long as no reconciliation stores
  another number and no increment overflows; `reconcile_loses_slot`: a
  reconciliation can.
-/

namespace Dendri

open AppState Transition Interleave

/-! ### Reserving and releasing -/

/-- How far a call of `try_reserve_connection_slot` and the release of what it
reserved have come. -/
inductive SlotPhase where
  | start
  /-- The limit was reached: the increment has to be undone. -/
  | overshot
  | refused
  | reserved
  | released
  deriving DecidableEq

/-- One atomic operation on the counter. -/
def slotCall (limit : UInt64) (counter : UInt64) : SlotPhase → Option (UInt64 × SlotPhase)
  | .start => some (counter + 1, if limit ≤ counter then .overshot else .reserved)
  | .overshot => some (counter - 1, .refused)
  | .reserved => some (counter - 1, .released)
  | .refused | .released => none

/-- A call that is not interrupted is `tryReserveConnectionSlot`. -/
lemma alone_reserve (limit : UInt64) (s : AppState) :
    Alone (slotCall limit) (s.activeConnections, .start)
      ((s.tryReserveConnectionSlot limit).1.activeConnections,
        if (s.tryReserveConnectionSlot limit).2 then .reserved else .refused) := by
  rw [tryReserveConnectionSlot]
  by_cases hfull : limit ≤ s.activeConnections
  · have hadd : slotCall limit s.activeConnections .start =
        some (s.activeConnections + 1, .overshot) := by rw [slotCall, if_pos hfull]
    rw [if_pos hfull]
    exact .head hadd (.head rfl (.refl _))
  · have hadd : slotCall limit s.activeConnections .start =
        some (s.activeConnections + 1, .reserved) := by rw [slotCall, if_neg hfull]
    rw [if_neg hfull]
    exact .head hadd (.refl _)

/-- The release of a reserved slot is `releaseConnectionSlot`. -/
lemma alone_release (limit : UInt64) (s : AppState) :
    Alone (slotCall limit) (s.activeConnections, .reserved)
      (s.releaseConnectionSlot.activeConnections, .released) :=
  .head rfl (.refl _)

section Calls

variable {ι : Type} {limit : UInt64} {w w' : UInt64 × (ι → SlotPhase)} {i : ι}

/-- Any number of calls on one counter. -/
def slotStep [DecidableEq ι] (limit : UInt64) :
    UInt64 × (ι → SlotPhase) → ι → Option (UInt64 × (ι → SlotPhase)) :=
  Interleave.step id fun _ => slotCall limit

/-- No call has been made, and the counter is `0`. -/
def noCalls : UInt64 × (ι → SlotPhase) := (0, fun _ => .start)

/-- The successful reservations that are not yet released. -/
noncomputable def held (ps : ι → SlotPhase) : ℕ := numberOf (· = .reserved) ps

/-- The failed calls that have not yet undone their increment. -/
noncomputable def overshooting (ps : ι → SlotPhase) : ℕ := numberOf (· = .overshot) ps

/-- The counter counts the slots and the calls that overshot, and there are not
more slots than the limit. -/
structure SlotsCounted (limit : UInt64) (w : UInt64 × (ι → SlotPhase)) : Prop where
  finite : {j | w.2 j ≠ .start}.Finite
  within : held w.2 ≤ limit.toNat
  counter : w.1.toNat = held w.2 + overshooting w.2

lemma SlotsCounted.finite_of (h : SlotsCounted limit w) {p : SlotPhase} (hp : p ≠ .start) :
    {j | w.2 j = p}.Finite :=
  h.finite.subset fun _ hj hstart => hp (hj.symm.trans hstart)

lemma slotsCounted_noCalls (limit : UInt64) : SlotsCounted limit (noCalls (ι := ι)) where
  finite := by simp [noCalls]
  within := by simp [noCalls, held, numberOf]
  counter := by simp [noCalls, held, overshooting, numberOf]

/-- The counter after `fetch_add`, if it does not overflow. -/
lemma toNat_add_one {c : UInt64} (h : c.toNat + 1 < 2 ^ 64) : (c + 1).toNat = c.toNat + 1 := by
  rw [UInt64.toNat_add, UInt64.toNat_one, Nat.mod_eq_of_lt h]

/-- The counter after `fetch_sub`, if it was not `0`. -/
lemma toNat_sub_one {c : UInt64} (h : 0 < c.toNat) : (c - 1).toNat + 1 = c.toNat := by
  have hle : (1 : UInt64) ≤ c := by
    rw [UInt64.le_iff_toNat_le, UInt64.toNat_one]
    exact h
  rw [UInt64.toNat_sub_of_le _ _ hle, UInt64.toNat_one]
  omega

variable [DecidableEq ι]

/-- A step keeps the count, as long as the calls that overshot are fewer than
`2 ^ 64 - limit`. -/
lemma SlotsCounted.step (h : SlotsCounted limit w) (hstep : slotStep limit w i = some w')
    (hfew : overshooting w'.2 < 2 ^ 64 - limit.toNat) : SlotsCounted limit w' := by
  obtain ⟨c', p', hact, rfl⟩ := step_eq_some hstep
  have hreserved := h.finite_of (p := .reserved) (by decide)
  have hovershot := h.finite_of (p := .overshot) (by decide)
  have hfinite : {j | Function.update w.2 i p' j ≠ .start}.Finite :=
    finite_update (P := (· ≠ SlotPhase.start)) h.finite
  have hcount := h.counter
  have hle := h.within
  rw [id] at hact
  cases hp : w.2 i with
  | start =>
      rw [hp, slotCall, Option.some.injEq, Prod.mk.injEq] at hact
      obtain ⟨rfl, hp'⟩ := hact
      by_cases hfull : limit ≤ w.1
      · rw [if_pos hfull] at hp'
        subst hp'
        have hover : overshooting (Function.update w.2 i .overshot) = overshooting w.2 + 1 :=
          numberOf_enter hovershot (by rw [hp]; decide) rfl
        have hheld : held (Function.update w.2 i .overshot) = held w.2 :=
          numberOf_stay (by rw [hp]; decide)
        dsimp only [id] at hfew
        refine ⟨hfinite, ?_, ?_⟩
        · dsimp only [id]
          omega
        · dsimp only [id]
          rw [toNat_add_one (by omega)]
          omega
      · rw [if_neg hfull] at hp'
        subst hp'
        have hover : overshooting (Function.update w.2 i .reserved) = overshooting w.2 :=
          numberOf_stay (by rw [hp]; decide)
        have hheld : held (Function.update w.2 i .reserved) = held w.2 + 1 :=
          numberOf_enter hreserved (by rw [hp]; decide) rfl
        have hlt : w.1.toNat < limit.toNat := by
          rw [UInt64.le_iff_toNat_le] at hfull
          omega
        have hlimit := limit.toNat_lt
        refine ⟨hfinite, ?_, ?_⟩
        · dsimp only [id]
          omega
        · dsimp only [id]
          rw [toNat_add_one (by omega)]
          omega
  | overshot =>
      rw [hp, slotCall, Option.some.injEq, Prod.mk.injEq] at hact
      obtain ⟨rfl, rfl⟩ := hact
      have hover : overshooting (Function.update w.2 i .refused) + 1 = overshooting w.2 :=
        numberOf_leave hovershot hp (by decide)
      have hheld : held (Function.update w.2 i .refused) = held w.2 :=
        numberOf_stay (by rw [hp]; decide)
      have hsub := toNat_sub_one (c := w.1) (by omega)
      refine ⟨hfinite, ?_, ?_⟩
      · dsimp only [id]
        omega
      · dsimp only [id]
        omega
  | reserved =>
      rw [hp, slotCall, Option.some.injEq, Prod.mk.injEq] at hact
      obtain ⟨rfl, rfl⟩ := hact
      have hover : overshooting (Function.update w.2 i .released) = overshooting w.2 :=
        numberOf_stay (by rw [hp]; decide)
      have hheld : held (Function.update w.2 i .released) + 1 = held w.2 :=
        numberOf_leave hreserved hp (by decide)
      have hsub := toNat_sub_one (c := w.1) (by omega)
      refine ⟨hfinite, ?_, ?_⟩
      · dsimp only [id]
        omega
      · dsimp only [id]
        omega
  | refused | released =>
      rw [hp, slotCall] at hact
      exact absurd hact (by simp)

/-- In every interleaving with fewer than `2 ^ 64 - limit` calls in progress, the
reservations that are not released are at most `limit`, the counter is their
number and that of the calls in progress, and it is their number alone just when
no call is in progress. -/
theorem slots_within_limit {es : List ι}
    (hfew : AllSteps (slotStep limit) (fun _ _ w' => overshooting w'.2 < 2 ^ 64 - limit.toNat)
      noCalls es)
    (hrun : run (slotStep limit) noCalls es = some w) :
    held w.2 ≤ limit.toNat ∧ w.1.toNat = held w.2 + overshooting w.2 ∧
      (w.1.toNat = held w.2 ↔ ∀ j, w.2 j ≠ .overshot) := by
  have hw : SlotsCounted limit w :=
    run_invariant (I := SlotsCounted limit) (fun _ _ _ h hstep hP => h.step hstep hP)
      (slotsCounted_noCalls limit) hfew hrun
  refine ⟨hw.within, hw.counter, ?_⟩
  rw [hw.counter, Nat.add_eq_left, overshooting,
    numberOf_eq_zero_iff (hw.finite_of (p := .overshot) (by decide))]

end Calls

/-- Two calls for one slot: the second one overshoots, and undoes its increment
after the first has released its slot. -/
theorem slots_within_limit_two :
    ∃ w : UInt64 × (Bool → SlotPhase),
      run (slotStep 1) noCalls [false, true, false, true] = some w ∧ w.1 = 0 ∧
        held w.2 ≤ (1 : UInt64).toNat := by
  have heval : (run (slotStep 1) (noCalls (ι := Bool)) [false, true, false, true]).map Prod.fst =
      some 0 := by decide +kernel
  obtain ⟨w, hw, hcounter⟩ := Option.map_eq_some_iff.mp heval
  refine ⟨w, hw, hcounter, (slots_within_limit (AllSteps.of_mem _ fun _ _ _ w' _ => ?_) hw).1⟩
  have hcard := numberOf_le_card (· = .overshot) w'.2
  rw [overshooting]
  exact lt_of_le_of_lt hcard (by decide)

/-! ### Reconciliation -/

/-- What happens to the counter and the clients: connects of new clients, closes
and reconciliations. -/
inductive SlotTask where
  | connect (id token : String) (tenantId : Option String)
  | close (id : String)
  | reconcile

/-- How far a task has come. -/
inductive TaskPhase where
  | start
  | socket (p : SocketPhase)
  /-- The limit was reached: the connect has to undo its increment. -/
  | overshot
  /-- The close has removed the client and will release its slot. -/
  | removed
  /-- The reconciliation has read the number of clients. -/
  | counted (actual : ℕ)
  /-- It has also loaded the counter. -/
  | loaded (actual : ℕ) (counter : UInt64)
  | ended
  deriving DecidableEq

/-- The phase in which a task begins. -/
def SlotTask.begin : SlotTask → TaskPhase
  | .connect _ _ _ => .socket .start
  | .close _ | .reconcile => .start

/-- One access of a task to the shared state. A reservation is its `fetch_add`, and where the
limit was reached a `fetch_sub` after it. -/
def taskStep (env : Env) (cfg : Config) (s : AppState) :
    SlotTask → TaskPhase → Option (AppState × TaskPhase)
  | .connect _ _ _, .socket .unknown =>
      some ({ s with activeConnections := s.activeConnections + 1 },
        if cfg.concurrentLimit ≤ s.activeConnections then .overshot else .socket .reserved)
  | .connect _ _ _, .overshot =>
      some ({ s with activeConnections := s.activeConnections - 1 },
        .socket (.refused (.error .ConnectionLimitExceed)))
  | .connect id token tenantId, .socket p =>
      (socketStep env cfg id token tenantId s p).map fun r => (r.1, .socket r.2)
  | .close id, .start =>
      some ({ s with wsSenders := s.wsSenders.erase id, clients := s.clients.erase id },
        if (s.clients.lookup id).isSome then .removed else .ended)
  | .close _, .removed => some (s.releaseConnectionSlot, .ended)
  | .reconcile, .start => some (s, .counted s.clients.keys.card)
  | .reconcile, .counted actual => some (s, .loaded actual s.activeConnections)
  | .reconcile, .loaded actual counter =>
      some (if UInt64.ofNat actual ≠ counter then
        { s with activeConnections := UInt64.ofNat actual } else s, .ended)
  | _, _ => none

/-- A step of `socketStep` is made by the steps of a connect that is not interrupted. -/
lemma alone_socket {env : Env} {cfg : Config} {s s' : AppState} {id token : String}
    {tenantId : Option String} {p p' : SocketPhase}
    (h : socketStep env cfg id token tenantId s p = some (s', p')) :
    Alone (fun s => taskStep env cfg s (.connect id token tenantId)) (s, .socket p)
      (s', .socket p') := by
  cases p with
  | unknown =>
      rw [socketStep, tryReserveConnectionSlot] at h
      by_cases hfull : cfg.concurrentLimit ≤ s.activeConnections
      · rw [if_pos hfull] at h
        obtain ⟨rfl, rfl⟩ := Prod.mk.inj (Option.some.inj h)
        have hadd : taskStep env cfg s (.connect id token tenantId) (.socket .unknown) =
            some ({ s with activeConnections := s.activeConnections + 1 }, .overshot) := by
          rw [taskStep, if_pos hfull]
        exact .head hadd (.head rfl (.refl _))
      · rw [if_neg hfull] at h
        obtain ⟨rfl, rfl⟩ := Prod.mk.inj (Option.some.inj h)
        have hadd : taskStep env cfg s (.connect id token tenantId) (.socket .unknown) =
            some ({ s with activeConnections := s.activeConnections + 1 }, .socket .reserved) := by
          rw [taskStep, if_neg hfull]
        exact .head hadd (.refl _)
  | _ =>
      refine .head (w := (s', .socket p')) ?_ (.refl _)
      simp only [taskStep, h, Option.map_some]

/-- A close that is not interrupted is `dropClient`. -/
lemma alone_close (env : Env) (cfg : Config) (s : AppState) (id : String) :
    Alone (fun s => taskStep env cfg s (.close id)) (s, .start) (s.dropClient id, .ended) := by
  rw [dropClient]
  cases hc : s.clients.lookup id with
  | none =>
      have hremove : taskStep env cfg s (.close id) .start = some
          ({ s with wsSenders := s.wsSenders.erase id, clients := s.clients.erase id },
            .ended) := by
        simp [taskStep, hc]
      exact .head hremove (.refl _)
  | some client =>
      have hremove : taskStep env cfg s (.close id) .start = some
          ({ s with wsSenders := s.wsSenders.erase id, clients := s.clients.erase id },
            .removed) := by
        simp [taskStep, hc]
      exact .head hremove (.head rfl (.refl _))

/-- A reconciliation that is not interrupted is `reconcile`. -/
lemma alone_reconcile (env : Env) (cfg : Config) (s : AppState) :
    Alone (fun s => taskStep env cfg s .reconcile) (s, .start) (reconcile s, .ended) := by
  have hstore : taskStep env cfg s .reconcile
      (.loaded s.clients.keys.card s.activeConnections) = some (reconcile s, .ended) := by
    by_cases hdrift : UInt64.ofNat s.clients.keys.card ≠ s.activeConnections
    · simp only [taskStep, if_pos hdrift, reconcile]
    · rw [not_not] at hdrift
      simp only [taskStep, hdrift, reconcile, ne_eq, not_true_eq_false, if_false]
  exact .head rfl (.head rfl (.head hstore (.refl _)))

/-- What the steps of a connect do when the id is neither in `clients` nor in
Redis. -/
inductive NewConnect (limit : UInt64) (id : String) (s : AppState) :
    TaskPhase → AppState → TaskPhase → Prop
  | notInMemory : NewConnect limit id s (.socket .start) s (.socket .notInMemory)
  | unknown : NewConnect limit id s (.socket .notInMemory) s (.socket .unknown)
  | overshot (h : limit ≤ s.activeConnections) : NewConnect limit id s (.socket .unknown)
      { s with activeConnections := s.activeConnections + 1 } .overshot
  | full : NewConnect limit id s .overshot
      { s with activeConnections := s.activeConnections - 1 }
      (.socket (.refused (.error .ConnectionLimitExceed)))
  | reserved (h : s.activeConnections < limit) : NewConnect limit id s (.socket .unknown)
      { s with activeConnections := s.activeConnections + 1 } (.socket .reserved)
  | failed : NewConnect limit id s (.socket .reserved) s.releaseConnectionSlot
      (.socket (.refused (.error .InvalidWsParameters)))
  | registered (s' : AppState) (hclients : s'.clients = s.clients)
      (hactive : s'.activeConnections = s.activeConnections)
      (hredis : ∀ d, d ≠ id → s'.redis.clientToken.lookup d = s.redis.clientToken.lookup d) :
      NewConnect limit id s (.socket .reserved) s' (.socket .registered)
  | admitted (s' : AppState) (client : ClientMeta)
      (hclients : s'.clients = s.clients.insert id client)
      (hactive : s'.activeConnections = s.activeConnections) (hredis : s'.redis = s.redis) :
      NewConnect limit id s (.socket .registered) s' (.socket .admitted)

lemma newConnect_of_step {env : Env} {cfg : Config} {s s' : AppState} {id token : String}
    {tenantId : Option String} {p p' : TaskPhase}
    (h : taskStep env cfg s (.connect id token tenantId) p = some (s', p'))
    (hmemory : p = .socket .start → s.clients.lookup id = none)
    (hredis : p = .socket .notInMemory → s.redis.clientToken.lookup id = none)
    (hknown : p ≠ .socket .known) : NewConnect cfg.concurrentLimit id s p s' p' := by
  cases p with
  | overshot =>
      obtain ⟨rfl, rfl⟩ := Prod.mk.inj (Option.some.inj h)
      exact .full
  | socket p =>
      cases p with
      | start =>
          simp only [taskStep, socketStep, hmemory rfl, Option.map_some, Option.some.injEq,
            Prod.mk.injEq] at h
          obtain ⟨rfl, rfl⟩ := h
          exact .notInMemory
      | notInMemory =>
          have hnone : s.redisClientToken env id = none := by
            rw [redisClientToken, hredis rfl, ite_self]
          simp only [taskStep, socketStep, hnone, Option.map_some, Option.some.injEq,
            Prod.mk.injEq] at h
          obtain ⟨rfl, rfl⟩ := h
          exact .unknown
      | unknown =>
          obtain ⟨rfl, rfl⟩ := Prod.mk.inj (Option.some.inj h)
          by_cases hfull : cfg.concurrentLimit ≤ s.activeConnections
          · rw [if_pos hfull]
            exact .overshot hfull
          · rw [if_neg hfull]
            exact .reserved (UInt64.not_le.mp hfull)
      | reserved =>
          simp only [taskStep, socketStep] at h
          split_ifs at h with hok
          · obtain ⟨rfl, rfl⟩ := Prod.mk.inj (Option.some.inj h)
            exact .failed
          · obtain ⟨rfl, rfl⟩ := Prod.mk.inj (Option.some.inj h)
            refine .registered _ rfl rfl fun d hd => ?_
            rw [redisRegisterClient]
            dsimp only
            split_ifs
            · exact Finmap.lookup_insert_of_ne _ hd
            · rfl
      | registered =>
          obtain ⟨rfl, rfl⟩ := Prod.mk.inj (Option.some.inj h)
          exact .admitted _ _ rfl rfl rfl
      | known => exact absurd rfl hknown
      | admitted => exact absurd h (by simp [taskStep, socketStep])
      | refused why => exact absurd h (by simp [taskStep, socketStep])
  | _ => exact absurd h (by simp [taskStep])

/-- The task holds a slot for which there is no client: a connect between its
reservation and the insertion, or one that has not undone the increment of a
refused reservation, a close between the removal and the release. -/
def TaskPhase.Holds : TaskPhase → Prop
  | .socket .reserved | .socket .registered | .overshot | .removed => True
  | _ => False

/-- The task has begun and not ended. -/
def TaskPhase.InProgress : TaskPhase → Prop
  | .socket .start | .socket .admitted | .socket (.refused _) | .start | .ended => False
  | _ => True

section Tasks

variable {ι : Type} (cfg : Config) (task : ι → SlotTask)

/-- Any number of tasks. The event `(i, env)` is the next step of task `i`, with
what the outside answers during it. -/
def slotTasks [DecidableEq ι] : AppState × (ι → TaskPhase) → ι × Env →
    Option (AppState × (ι → TaskPhase)) :=
  Interleave.step Prod.fst fun e s p => taskStep e.2 cfg s (task e.1) p

/-- An empty server, and no task has begun. -/
def noTasks (redis : Redis) : AppState × (ι → TaskPhase) :=
  (AppState.new cfg redis, fun i => (task i).begin)

/-- The connects are for different ids, none of which Redis knows. -/
structure NewClients (redis : Redis) : Prop where
  distinct : ∀ i j id token tenantId token' tenantId', task i = .connect id token tenantId →
    task j = .connect id token' tenantId' → i = j
  unknown : ∀ i id token tenantId, task i = .connect id token tenantId →
    redis.clientToken.lookup id = none

/-- What a reconciliation stores is the number of clients and of the slots that
are held without one. -/
def StoresAll (w : AppState × (ι → TaskPhase)) (e : ι × Env) : Prop :=
  ∀ actual counter, task e.1 = .reconcile → w.2 e.1 = .loaded actual counter →
    UInt64.ofNat actual ≠ counter →
    actual = w.1.clients.keys.card + numberOf TaskPhase.Holds w.2

/-- The `fetch_add` of a reservation does not overflow. -/
def AddsFit (w : AppState × (ι → TaskPhase)) (e : ι × Env) : Prop :=
  ∀ id token tenantId, task e.1 = .connect id token tenantId → w.2 e.1 = .socket .unknown →
    w.1.activeConnections.toNat + 1 < 2 ^ 64

/-- A connect that has not inserted its client finds its id nowhere. -/
structure TaskFits (s : AppState) (t : SlotTask) (p : TaskPhase) : Prop where
  absent : ∀ id token tenantId, t = .connect id token tenantId → p ≠ .socket .admitted →
    id ∉ s.clients.keys
  unseen : ∀ id token tenantId, t = .connect id token tenantId →
    p = .socket .start ∨ p = .socket .notInMemory → s.redis.clientToken.lookup id = none
  unknown : p ≠ .socket .known

/-- The counter counts the clients and the slots that are held without one. -/
structure SlotsKept (w : AppState × (ι → TaskPhase)) : Prop where
  finite : {j | (w.2 j).Holds}.Finite
  counter : w.1.activeConnections.toNat = w.1.clients.keys.card + numberOf TaskPhase.Holds w.2
  tasks : ∀ j, TaskFits w.1 (task j) (w.2 j)

variable {cfg task} {redis : Redis} {w w' : AppState × (ι → TaskPhase)} {i : ι}

lemma slotsKept_noTasks (hnew : NewClients task redis) :
    SlotsKept task (noTasks cfg task redis) := by
  have hnone : {j | ((noTasks cfg task redis).2 j).Holds} = ∅ := by
    ext j
    cases hj : task j <;> simp [noTasks, SlotTask.begin, TaskPhase.Holds, hj]
  refine ⟨by rw [hnone]; exact Set.finite_empty, ?_, fun j => ⟨?_, ?_, ?_⟩⟩
  · rw [numberOf, hnone, Set.ncard_empty]
    simp [noTasks, AppState.new]
  · simp [noTasks, AppState.new]
  · exact fun id token tenantId hj _ => hnew.unknown j id token tenantId hj
  · cases hj : task j <;> simp [noTasks, SlotTask.begin, hj]

variable [DecidableEq ι]

/-- The invariant after a step that inserts no client. -/
lemma SlotsKept.keep (h : SlotsKept task w) (hnew : NewClients task redis) {s' : AppState}
    {p' : TaskPhase}
    (hcounter : s'.activeConnections.toNat =
      s'.clients.keys.card + numberOf TaskPhase.Holds (Function.update w.2 i p'))
    (hold : w.2 i ≠ .socket .admitted) (hkeys : s'.clients.keys ⊆ w.1.clients.keys)
    (hredis : ∀ d, s'.redis.clientToken.lookup d = w.1.redis.clientToken.lookup d ∨
      ∃ token tenantId, task i = .connect d token tenantId ∧ p' = .socket .registered)
    (hearly : p' ≠ .socket .start ∧ (p' = .socket .notInMemory → w.2 i = .socket .start))
    (hknown : p' ≠ .socket .known) : SlotsKept task (s', Function.update w.2 i p') := by
  refine ⟨finite_update h.finite, hcounter,
    forall_update (P := fun j p => TaskFits s' (task j) p) ⟨?_, ?_, hknown⟩ fun j hj =>
      ⟨?_, ?_, (h.tasks j).unknown⟩⟩
  · exact fun id token tenantId hi _ hid =>
      (h.tasks i).absent id token tenantId hi hold (hkeys hid)
  · rintro id token tenantId hi (hp | hp)
    · exact absurd hp hearly.1
    · rcases hredis id with hsame | ⟨_, _, -, hp'⟩
      · rw [hsame]
        exact (h.tasks i).unseen id token tenantId hi (Or.inl (hearly.2 hp))
      · rw [hp] at hp'
        exact absurd hp' (by simp)
  · exact fun id token tenantId hconnect hne hid =>
      (h.tasks j).absent id token tenantId hconnect hne (hkeys hid)
  · intro id token tenantId hconnect hp
    rcases hredis id with hsame | ⟨_, _, hi, -⟩
    · rw [hsame]
      exact (h.tasks j).unseen id token tenantId hconnect hp
    · exact absurd (hnew.distinct j i id _ _ _ _ hconnect hi) hj

/-- The invariant after a step that changes nothing but the phase. -/
lemma SlotsKept.stay (h : SlotsKept task w) (hnew : NewClients task redis) {p' : TaskPhase}
    (hholds : p'.Holds ↔ (w.2 i).Holds) (hold : w.2 i ≠ .socket .admitted)
    (hearly : p' ≠ .socket .start ∧ (p' = .socket .notInMemory → w.2 i = .socket .start))
    (hknown : p' ≠ .socket .known) : SlotsKept task (w.1, Function.update w.2 i p') := by
  refine h.keep hnew ?_ hold (fun _ hd => hd) (fun _ => Or.inl rfl) hearly hknown
  rw [numberOf_stay hholds, h.counter]

/-- The invariant after a `fetch_add` that does not overflow: the task holds a slot from now
on. -/
lemma SlotsKept.raise (h : SlotsKept task w) (hnew : NewClients task redis) {p' : TaskPhase}
    (hbefore : ¬(w.2 i).Holds) (hafter : p'.Holds)
    (hfits : w.1.activeConnections.toNat + 1 < 2 ^ 64) (hold : w.2 i ≠ .socket .admitted)
    (hearly : p' ≠ .socket .start ∧ p' ≠ .socket .notInMemory) (hknown : p' ≠ .socket .known) :
    SlotsKept task ({ w.1 with activeConnections := w.1.activeConnections + 1 },
      Function.update w.2 i p') := by
  have hholds : numberOf TaskPhase.Holds (Function.update w.2 i p') =
      numberOf TaskPhase.Holds w.2 + 1 := numberOf_enter h.finite hbefore hafter
  refine h.keep hnew ?_ hold (fun _ hd => hd) (fun _ => Or.inl rfl)
    ⟨hearly.1, fun hp => absurd hp hearly.2⟩ hknown
  dsimp only
  rw [hholds, toNat_add_one hfits, h.counter]
  omega

/-- The invariant after a `fetch_sub`: the task gives up the slot that it holds. -/
lemma SlotsKept.lower (h : SlotsKept task w) (hnew : NewClients task redis) {p' : TaskPhase}
    (hbefore : (w.2 i).Holds) (hafter : ¬p'.Holds) (hold : w.2 i ≠ .socket .admitted)
    (hearly : p' ≠ .socket .start ∧ p' ≠ .socket .notInMemory) (hknown : p' ≠ .socket .known) :
    SlotsKept task (w.1.releaseConnectionSlot, Function.update w.2 i p') := by
  have hcounter := h.counter
  have hholds : numberOf TaskPhase.Holds (Function.update w.2 i p') + 1 =
      numberOf TaskPhase.Holds w.2 := numberOf_leave h.finite hbefore hafter
  have hsub := toNat_sub_one (c := w.1.activeConnections) (by omega)
  refine h.keep hnew ?_ hold (fun _ hd => hd) (fun _ => Or.inl rfl)
    ⟨hearly.1, fun hp => absurd hp hearly.2⟩ hknown
  rw [releaseConnectionSlot]
  dsimp only
  omega

/-- The insertion of a client, for the slot its connect holds. -/
lemma SlotsKept.insert (h : SlotsKept task w) (hnew : NewClients task redis) {id token : String}
    {tenantId : Option String} (hi : task i = .connect id token tenantId) {s' : AppState}
    {client : ClientMeta} (hp : w.2 i = .socket .registered)
    (hclients : s'.clients = w.1.clients.insert id client)
    (hactive : s'.activeConnections = w.1.activeConnections) (hredis : s'.redis = w.1.redis) :
    SlotsKept task (s', Function.update w.2 i (.socket .admitted)) := by
  have hcounter := h.counter
  have hholds : numberOf TaskPhase.Holds (Function.update w.2 i (.socket .admitted)) + 1 =
      numberOf TaskPhase.Holds w.2 :=
    numberOf_leave h.finite (by simp [hp, TaskPhase.Holds]) (by simp [TaskPhase.Holds])
  have hfresh : id ∉ w.1.clients.keys := (h.tasks i).absent id token tenantId hi (by simp [hp])
  refine ⟨finite_update h.finite, ?_,
    forall_update (P := fun j p => TaskFits s' (task j) p) ⟨?_, ?_, by simp⟩ fun j hj =>
      ⟨?_, ?_, (h.tasks j).unknown⟩⟩
  · dsimp only
    rw [hactive, hclients, FinMap.keys_insert, Finset.card_insert_of_notMem hfresh]
    omega
  · exact fun _ _ _ _ hne => absurd rfl hne
  · rintro _ _ _ - (hp' | hp') <;> exact absurd hp' (by simp)
  · intro d tok ten hconnect hne hd
    rw [hclients, FinMap.keys_insert, Finset.mem_insert] at hd
    rcases hd with rfl | hd
    · exact hj (hnew.distinct j i d _ _ _ _ hconnect hi)
    · exact (h.tasks j).absent d tok ten hconnect hne hd
  · rw [hredis]
    exact (h.tasks j).unseen

/-- A step of a connect. -/
lemma SlotsKept.connect (h : SlotsKept task w) (hnew : NewClients task redis) {id token : String}
    {tenantId : Option String} (hi : task i = .connect id token tenantId) {p p' : TaskPhase}
    {s' : AppState} (hp : w.2 i = p) (hstep : NewConnect cfg.concurrentLimit id w.1 p s' p')
    (hfits : p = .socket .unknown → w.1.activeConnections.toNat + 1 < 2 ^ 64) :
    SlotsKept task (s', Function.update w.2 i p') := by
  have hcounter := h.counter
  cases hstep with
  | notInMemory =>
      exact h.stay hnew (by simp [hp, TaskPhase.Holds]) (by simp [hp]) ⟨by simp, fun _ => hp⟩
        (by simp)
  | unknown =>
      exact h.stay hnew (by simp [hp, TaskPhase.Holds]) (by simp [hp]) ⟨by simp, by simp⟩ (by simp)
  | overshot hfull =>
      exact h.raise hnew (by simp [hp, TaskPhase.Holds]) (by simp [TaskPhase.Holds]) (hfits rfl)
        (by simp [hp]) (by simp) (by simp)
  | full =>
      exact h.lower hnew (by simp [hp, TaskPhase.Holds]) (by simp [TaskPhase.Holds]) (by simp [hp])
        (by simp) (by simp)
  | reserved hlt =>
      exact h.raise hnew (by simp [hp, TaskPhase.Holds]) (by simp [TaskPhase.Holds]) (hfits rfl)
        (by simp [hp]) (by simp) (by simp)
  | failed =>
      exact h.lower hnew (by simp [hp, TaskPhase.Holds]) (by simp [TaskPhase.Holds]) (by simp [hp])
        (by simp) (by simp)
  | registered s' hclients hactive hredis =>
      have hholds : numberOf TaskPhase.Holds (Function.update w.2 i (.socket .registered)) =
          numberOf TaskPhase.Holds w.2 := numberOf_stay (by simp [hp, TaskPhase.Holds])
      refine h.keep hnew (by rw [hholds, hclients, hactive, hcounter]) (by simp [hp])
        (by rw [hclients]) (fun d => ?_) ⟨by simp, by simp⟩ (by simp)
      by_cases hd : d = id
      · rw [hd]
        exact Or.inr ⟨token, tenantId, hi, rfl⟩
      · exact Or.inl (hredis d hd)
  | admitted s' client hclients hactive hredis =>
      exact h.insert hnew hi hp hclients hactive hredis

/-- A step of a close. -/
lemma SlotsKept.close (h : SlotsKept task w) (hnew : NewClients task redis) {id : String}
    {env : Env} {p' : TaskPhase} {s' : AppState}
    (hstep : taskStep env cfg w.1 (.close id) (w.2 i) = some (s', p')) :
    SlotsKept task (s', Function.update w.2 i p') := by
  have hcounter := h.counter
  cases hp : w.2 i with
  | start =>
      rw [hp] at hstep
      obtain ⟨rfl, rfl⟩ := Prod.mk.inj (Option.some.inj hstep)
      cases hc : w.1.clients.lookup id with
      | none =>
          rw [Option.isSome_none, if_neg (by simp)]
          have hholds : numberOf TaskPhase.Holds (Function.update w.2 i .ended) =
              numberOf TaskPhase.Holds w.2 := numberOf_stay (by simp [hp, TaskPhase.Holds])
          refine h.keep hnew ?_ (by simp [hp]) ?_ (fun _ => Or.inl rfl) ⟨by simp, by simp⟩
            (by simp)
          · rw [hholds, FinMap.erase_eq_self hc, hcounter]
          · rw [FinMap.erase_eq_self hc]
      | some client =>
          rw [Option.isSome_some, if_pos rfl]
          have hholds : numberOf TaskPhase.Holds (Function.update w.2 i .removed) =
              numberOf TaskPhase.Holds w.2 + 1 :=
            numberOf_enter h.finite (by simp [hp, TaskPhase.Holds]) (by simp [TaskPhase.Holds])
          have hmem : id ∈ w.1.clients.keys :=
            Finmap.mem_keys.mpr (Finmap.mem_of_lookup_eq_some hc)
          have hcard := Finset.card_erase_add_one hmem
          refine h.keep hnew ?_ (by simp [hp]) ?_ (fun _ => Or.inl rfl) ⟨by simp, by simp⟩
            (by simp)
          · dsimp only
            rw [Finmap.keys_erase]
            omega
          · rw [Finmap.keys_erase]
            exact Finset.erase_subset _ _
  | removed =>
      rw [hp] at hstep
      obtain ⟨rfl, rfl⟩ := Prod.mk.inj (Option.some.inj hstep)
      exact h.lower hnew (by simp [hp, TaskPhase.Holds]) (by simp [TaskPhase.Holds]) (by simp [hp])
        (by simp) (by simp)
  | _ =>
      rw [hp] at hstep
      exact absurd hstep (by simp [taskStep])

/-- A step of a reconciliation that stores, if it does, what it should. -/
lemma SlotsKept.reconcile (h : SlotsKept task w) (hnew : NewClients task redis) {env : Env}
    {p' : TaskPhase} {s' : AppState}
    (hstep : taskStep env cfg w.1 .reconcile (w.2 i) = some (s', p'))
    (hstores : ∀ actual counter, w.2 i = .loaded actual counter → UInt64.ofNat actual ≠ counter →
      actual = w.1.clients.keys.card + numberOf TaskPhase.Holds w.2) :
    SlotsKept task (s', Function.update w.2 i p') := by
  have hcounter := h.counter
  cases hp : w.2 i with
  | start =>
      rw [hp] at hstep
      obtain ⟨rfl, rfl⟩ := Prod.mk.inj (Option.some.inj hstep)
      exact h.stay hnew (by simp [hp, TaskPhase.Holds]) (by simp [hp]) ⟨by simp, by simp⟩ (by simp)
  | counted actual =>
      rw [hp] at hstep
      obtain ⟨rfl, rfl⟩ := Prod.mk.inj (Option.some.inj hstep)
      exact h.stay hnew (by simp [hp, TaskPhase.Holds]) (by simp [hp]) ⟨by simp, by simp⟩ (by simp)
  | loaded actual counter =>
      rw [hp] at hstep
      obtain ⟨rfl, rfl⟩ := Prod.mk.inj (Option.some.inj hstep)
      by_cases hdrift : UInt64.ofNat actual ≠ counter
      · have hholds : numberOf TaskPhase.Holds (Function.update w.2 i .ended) =
            numberOf TaskPhase.Holds w.2 := numberOf_stay (by simp [hp, TaskPhase.Holds])
        have hactual := hstores actual counter hp hdrift
        have hlt := w.1.activeConnections.toNat_lt
        rw [if_pos hdrift]
        refine h.keep hnew ?_ (by simp [hp]) (fun _ hd => hd) (fun _ => Or.inl rfl)
          ⟨by simp, by simp⟩ (by simp)
        dsimp only
        rw [hholds, UInt64.toNat_ofNat', Nat.mod_eq_of_lt (by omega), hactual]
      · rw [if_neg hdrift]
        exact h.stay hnew (by simp [hp, TaskPhase.Holds]) (by simp [hp]) ⟨by simp, by simp⟩
          (by simp)
  | _ =>
      rw [hp] at hstep
      exact absurd hstep (by simp [taskStep])

/-- The step of a task, whichever it is. -/
lemma SlotsKept.step (h : SlotsKept task w) (hnew : NewClients task redis) {e : ι × Env}
    (hstep : slotTasks cfg task w e = some w') (hstores : StoresAll task w e)
    (hadds : AddsFit task w e) : SlotsKept task w' := by
  obtain ⟨s', p', hact, rfl⟩ := step_eq_some hstep
  cases ht : task e.1 with
  | connect id token tenantId =>
      rw [ht] at hact
      have hfits := h.tasks e.1
      refine h.connect hnew ht rfl (newConnect_of_step hact (fun hstart => ?_)
        (fun hlook => ?_) hfits.unknown) (hadds id token tenantId ht)
      · have habsent := hfits.absent id token tenantId ht (by simp [hstart])
        exact Finmap.lookup_eq_none.mpr fun hmem => habsent (Finmap.mem_keys.mpr hmem)
      · exact hfits.unseen id token tenantId ht (Or.inr hlook)
  | close id =>
      rw [ht] at hact
      exact h.close hnew hact
  | reconcile =>
      rw [ht] at hact
      exact h.reconcile hnew hact fun actual counter => hstores actual counter ht

/-- The next step of a task lowers the counter. -/
def Lowers (e : ι × Env) (t : SlotTask) : TaskPhase → Prop
  | .removed | .overshot => True
  | .socket .reserved => ∃ id token tenantId, t = .connect id token tenantId ∧
      e.2.redisOk .registerClient id = false
  | _ => False

omit [DecidableEq ι] in
lemma holds_of_lowers {e : ι × Env} {t : SlotTask} {p : TaskPhase} (h : Lowers e t p) :
    p.Holds := by
  cases p with
  | removed | overshot => trivial
  | socket p =>
      cases p with
      | reserved | registered => trivial
      | _ => exact h
  | _ => exact h

/-- In every interleaving of connects of new clients, closes and reconciliations
in which what is stored is the number of clients and of the slots held without
one, and no increment overflows: no step lowers the counter below `0`, and
whenever no task is in progress the counter is the number of clients. -/
theorem counter_matches_clients (hnew : NewClients task redis) {es : List (ι × Env)}
    (hsteps : AllSteps (slotTasks cfg task) (fun w e _ => StoresAll task w e ∧ AddsFit task w e)
      (noTasks cfg task redis) es) :
    AllSteps (slotTasks cfg task) (fun w e w' =>
        (Lowers e (task e.1) (w.2 e.1) → w.1.activeConnections ≠ 0) ∧
        ((∀ j, ¬(w'.2 j).InProgress) → w'.1.activeConnections.toNat = w'.1.clients.keys.card))
      (noTasks cfg task redis) es := by
  refine AllSteps.of_invariant (I := SlotsKept task) (fun w e w' h hstep hP => ?_)
    (slotsKept_noTasks hnew) hsteps
  have h' := h.step hnew hstep hP.1 hP.2
  refine ⟨h', fun hlowers hzero => ?_, fun hquiet => ?_⟩
  · have hpos := numberOf_pos h.finite (holds_of_lowers hlowers)
    have hcounter := h.counter
    rw [hzero, UInt64.toNat_zero] at hcounter
    omega
  · have hnone : numberOf TaskPhase.Holds w'.2 = 0 := by
      rw [numberOf_eq_zero_iff h'.finite]
      intro j hholds
      refine hquiet j ?_
      generalize w'.2 j = p at hholds ⊢
      cases p with
      | socket p =>
          cases p with
          | reserved | registered => trivial
          | _ => exact False.elim hholds
      | removed | overshot => trivial
      | _ => exact False.elim hholds
    rw [h'.counter, hnone, Nat.add_zero]

omit [DecidableEq ι] in
/-- A store with nothing in flight, of the number of clients. -/
lemma storesAll_of_quiet {e : ι × Env}
    (h : ∀ actual counter, w.2 e.1 = .loaded actual counter →
      actual = w.1.clients.keys.card ∧ ∀ j, ¬(w.2 j).Holds) : StoresAll task w e := by
  intro actual counter _ hp _
  obtain ⟨hactual, hquiet⟩ := h actual counter hp
  have hnone : {j | (w.2 j).Holds} = ∅ := Set.eq_empty_iff_forall_notMem.mpr hquiet
  rw [numberOf, hnone, Set.ncard_empty, hactual, Nat.add_zero]

end Tasks

/-- The number a reconciliation is about to store. -/
def TaskPhase.actual? : TaskPhase → Option ℕ
  | .loaded actual _ => some actual
  | _ => none

instance : DecidablePred TaskPhase.Holds := fun p =>
  decidable_of_iff (p = .socket .reserved ∨ p = .socket .registered ∨ p = .overshot ∨
      p = .removed) (by
    constructor
    · rintro (rfl | rfl | rfl | rfl) <;> trivial
    · intro h
      cases p with
      | socket p =>
          cases p with
          | reserved => exact Or.inl rfl
          | registered => exact Or.inr (Or.inl rfl)
          | _ => exact False.elim h
      | overshot => exact Or.inr (Or.inr (Or.inl rfl))
      | removed => exact Or.inr (Or.inr (Or.inr rfl))
      | _ => exact False.elim h)

/-- `alice` connects while the counter is reconciled. -/
def aliceAndReconcile : Bool → SlotTask
  | true => .connect "alice" "tok" none
  | false => .reconcile

lemma newClients_aliceAndReconcile : NewClients aliceAndReconcile Redis.empty where
  distinct i j id token tenantId token' tenantId' hi hj := by
    cases i with
    | false => exact absurd hi (by simp [aliceAndReconcile])
    | true =>
        cases j with
        | false => exact absurd hj (by simp [aliceAndReconcile])
        | true => rfl
  unknown _ _ _ _ _ := rfl

/-- Redis refuses to register a client. -/
def Env.noRegister : Env :=
  { Env.quiet 0 with redisOk := fun call _ => decide (call ≠ .registerClient) }

/-- The counter is loaded while `alice` holds a slot; the registration fails and
the slot is released before the store. -/
theorem counter_matches_clients_alice :
    ∃ w, run (slotTasks {} aliceAndReconcile) (noTasks {} aliceAndReconcile Redis.empty)
        ([false, true, true, true, false, true, false].map fun i => (i, Env.noRegister)) = some w ∧
      w.1.activeConnections.toNat = w.1.clients.keys.card := by
  have heval : ((run (slotTasks {} aliceAndReconcile) (noTasks {} aliceAndReconcile Redis.empty)
      ([false, true, true, true, false, true].map fun i => (i, Env.noRegister))).bind fun w =>
        slotTasks {} aliceAndReconcile w (false, Env.noRegister)).map
      (fun w => (w.2 false, w.2 true)) =
      some (.ended, .socket (.refused (.error .InvalidWsParameters))) := by decide +kernel
  obtain ⟨w, hbind, hphases⟩ := Option.map_eq_some_iff.mp heval
  obtain ⟨t, hrun, hlast⟩ := Option.bind_eq_some_iff.mp hbind
  obtain ⟨hfalse, htrue⟩ := Prod.mk.inj hphases
  have hquiet : AllSteps (slotTasks {} aliceAndReconcile) (fun w e _ =>
      (∀ n ∈ (w.2 e.1).actual?, n = w.1.clients.keys.card ∧ ∀ j, ¬(w.2 j).Holds) ∧
        w.1.activeConnections.toNat + 1 < 2 ^ 64)
      (noTasks {} aliceAndReconcile Redis.empty)
      ([false, true, true, true, false, true, false].map fun i => (i, Env.noRegister)) := by
    decide +kernel
  have hsteps : AllSteps (slotTasks {} aliceAndReconcile)
      (fun w e _ => StoresAll aliceAndReconcile w e ∧ AddsFit aliceAndReconcile w e)
      (noTasks {} aliceAndReconcile Redis.empty)
      ([false, true, true, true, false, true, false].map fun i => (i, Env.noRegister)) :=
    AllSteps.of_invariant (I := fun _ => True) (fun w e _ _ _ hP => ⟨trivial,
      storesAll_of_quiet fun actual counter hp => hP.1 actual (by rw [hp]; rfl),
      fun _ _ _ _ _ => hP.2⟩) trivial hquiet
  have hall := counter_matches_clients newClients_aliceAndReconcile hsteps
  refine ⟨w, run_concat.mpr ⟨t, hrun, hlast⟩, (AllSteps.last hall hrun hlast).2 fun j => ?_⟩
  cases j with
  | false => simp [hfalse, TaskPhase.InProgress]
  | true => simp [htrue, TaskPhase.InProgress]

/-- The counter does not always match: the number of clients is read, and stored,
while `alice` holds a slot without being a client. -/
theorem reconcile_loses_slot :
    ¬∀ (ι : Type) (_ : DecidableEq ι) (cfg : Config) (task : ι → SlotTask) (redis : Redis)
      (es : List (ι × Env)) (w : AppState × (ι → TaskPhase)), NewClients task redis →
      run (slotTasks cfg task) (noTasks cfg task redis) es = some w →
      (∀ j, ¬(w.2 j).InProgress) → w.1.activeConnections.toNat = w.1.clients.keys.card := by
  intro hall
  have heval : (run (slotTasks {} aliceAndReconcile) (noTasks {} aliceAndReconcile Redis.empty)
      ([true, true, true, false, false, false, true, true].map fun i => (i, Env.quiet 0))).map
      (fun w => (w.2 false, w.2 true, w.1.activeConnections, w.1.clients.keys)) =
      some (.ended, .socket .admitted, 0, {"alice"}) := by decide +kernel
  obtain ⟨w, hrun, hw⟩ := Option.map_eq_some_iff.mp heval
  simp only [Prod.mk.injEq] at hw
  obtain ⟨hfalse, htrue, hcounter, hclients⟩ := hw
  have hmatch := hall Bool inferInstance {} aliceAndReconcile Redis.empty _ w
    newClients_aliceAndReconcile hrun fun j => by
      cases j with
      | false => simp [hfalse, TaskPhase.InProgress]
      | true => simp [htrue, TaskPhase.InProgress]
  rw [hcounter, hclients] at hmatch
  exact absurd hmatch (by decide)

end Dendri
