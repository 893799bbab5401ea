import Dendri.System
import Dendri.Properties.Admission

/-!
The connection counter. `active_connections` is meant to be the number of
registered clients; each connect reserves a slot and each removal releases one.

* `Registry.Counted`: the counter is the number of ids, and within the limit;
  the lemmas below say which registry operations keep it;
* `counted_iff_of_step`: a step keeps it just when it is not a WebSocket
  reconnect that finds its token only in Redis: that branch registers the
  client without reserving a slot;
* `connections_counted_iff`: the same for whole runs.
-/

namespace Dendri

open AppState Transition

/-- The counter is the number of registered ids, and within the limit. -/
structure Registry.Counted (limit : UInt64) (g : Registry) : Prop where
  active_eq : g.active.toNat = g.ids.card
  le_limit : g.ids.card ≤ limit.toNat

namespace Registry.Counted

variable {limit : UInt64} {g : Registry}

lemma congr {g' : Registry} (h : g.Counted limit) (hids : g'.ids = g.ids)
    (hactive : g'.active = g.active) : g'.Counted limit := by
  obtain ⟨heq, hle⟩ := h
  exact ⟨by rw [hids, hactive, heq], by rw [hids]; exact hle⟩

/-- A removal releases the slot of the record it removes. -/
lemma drop (h : g.Counted limit) (id : String) : (g.drop id).Counted limit := by
  obtain ⟨heq, hle⟩ := h
  by_cases hid : id ∈ g.ids
  · have hpos : 0 < g.ids.card := Finset.card_pos.mpr ⟨id, hid⟩
    have hone : (1 : UInt64) ≤ g.active := by
      rw [UInt64.le_iff_toNat_le, heq]
      exact hpos
    have hcard : (g.drop id).ids.card = g.ids.card - 1 := Finset.card_erase_of_mem hid
    have hactive : (g.drop id).active = g.active - 1 := if_pos hid
    constructor
    · rw [hactive, hcard, UInt64.toNat_sub_of_le _ _ hone, heq]
      rfl
    · omega
  · have hids : (g.drop id).ids = g.ids := Finset.erase_eq_of_notMem hid
    exact congr ⟨heq, hle⟩ hids (if_neg hid)

lemma dropIfAny (h : g.Counted limit) (removed : Option String) :
    (g.dropIfAny removed).Counted limit := by
  cases removed with
  | none => exact h
  | some id => exact h.drop id

lemma foldl_drop (l : List String) (h : g.Counted limit) :
    (l.foldl Registry.drop g).Counted limit := by
  induction l generalizing g with
  | nil => exact h
  | cons id l ih => exact ih (h.drop id)

/-- A new id with a reserved slot. -/
lemma reserve_insert (h : g.Counted limit) {id : String} {g' : Registry}
    (hslot : id ∉ g.ids → ¬limit ≤ g.active) (hids : g'.ids = insert id g.ids)
    (hactive : g'.active = (g.reserve id).active) : g'.Counted limit := by
  obtain ⟨heq, hle⟩ := h
  by_cases hid : id ∈ g.ids
  · have hactive' : g'.active = g.active := hactive.trans (if_pos hid)
    rw [Finset.insert_eq_of_mem hid] at hids
    exact congr ⟨heq, hle⟩ hids hactive'
  · have hactive' : g'.active = g.active + 1 := hactive.trans (if_neg hid)
    have hlt : g.active.toNat < limit.toNat := by
      have hnot := hslot hid
      rw [UInt64.le_iff_toNat_le] at hnot
      omega
    have hbound : limit.toNat < 2 ^ 64 := limit.toNat_lt
    have hcard : g'.ids.card = g.ids.card + 1 := by
      rw [hids, Finset.card_insert_of_notMem hid]
    have hsucc : (g.active + 1).toNat = g.active.toNat + 1 := by
      rw [UInt64.toNat_add, UInt64.toNat_one]
      exact Nat.mod_eq_of_lt (by omega)
    constructor
    · rw [hactive', hsucc, hcard, heq]
    · omega

end Registry.Counted

/-- The counter of a state is the number of its clients, and within the
limit. -/
def Counted (cfg : Config) (s : AppState) : Prop :=
  s.activeConnections.toNat = s.clients.keys.card ∧
    s.clients.keys.card ≤ cfg.concurrentLimit.toNat

lemma counted_iff {cfg : Config} {s : AppState} :
    Counted cfg s ↔ s.registry.Counted cfg.concurrentLimit :=
  ⟨fun h => ⟨h.1, h.2⟩, fun h => ⟨h.active_eq, h.le_limit⟩⟩

/-- A WebSocket request that passes all checks, for an id that is not in
`clients` and whose token is found in Redis. -/
def ReconnectsFromRedis (env : Env) (cfg : Config) (s : AppState) (r : Request) : Prop :=
  ∃ p : Params, r = p.ws ∧ p.Authenticates env cfg ∧ p.Valid ∧
    s.clients.lookup p.id = none ∧ s.redisClientToken env p.id = some p.token

/-- No step is such a request. -/
def NoRedisReconnect (cfg : Config) (w : World) (l : Label) : Prop :=
  ∀ r, l.event = .connect r → ¬ReconnectsFromRedis l.env cfg w.app r

/-- Such a request is admitted, whatever the limit. -/
lemma admitted_of_reconnectsFromRedis {env : Env} {cfg : Config} {s : AppState} {r : Request}
    (h : ReconnectsFromRedis env cfg s r) : (connect env cfg s r).isAdmitted = true := by
  obtain ⟨p, rfl, hauth, hvalid, hnone, htoken⟩ := h
  refine (isAdmitted_ws_iff env cfg s p).mpr ⟨hauth, hvalid, ?_⟩
  rw [OwnsId, existingToken, hnone]
  dsimp only
  rw [htoken]

lemma notMem_ids_iff {s : AppState} {id : String} :
    id ∉ s.registry.ids ↔ s.clients.lookup id = none := by
  rw [Finmap.lookup_eq_none]
  exact not_congr Finmap.mem_keys

/-- An admitted request keeps the count, unless it is a reconnect from
Redis. -/
lemma counted_iff_of_admits {env : Env} {cfg : Config} {s s' : AppState} {r : Request} {K : Conn}
    (hs : Counted cfg s) (hout : connect env cfg s r = .admitted K s')
    (hadm : Admits env cfg s r K s') :
    Counted cfg s' ↔ ¬ReconnectsFromRedis env cfg s r := by
  rw [counted_iff] at hs
  rw [counted_iff]
  cases hadm with
  | reconnect q K s' hK htransport hchan htoken hreg hrest =>
      obtain ⟨p, hp, hid, htok⟩ := exists_params hK
      have hadmitted : (connect env cfg s (.ws q)).isAdmitted = true := by rw [hout]; rfl
      by_cases hmem : K.id ∈ s.registry.ids
      · have hcounted : s'.registry.Counted cfg.concurrentLimit := by
          rw [hreg]
          exact hs.congr (Finset.insert_eq_of_mem hmem) rfl
        refine ⟨fun _ => ?_, fun _ => hcounted⟩
        rintro ⟨p', hp', -, -, hnone, -⟩
        rw [← (Params.ws_inj (hp.symm.trans hp')).1, hid] at hnone
        exact notMem_ids_iff.mpr hnone hmem
      · have hfrom : ReconnectsFromRedis env cfg s (.ws q) := by
          rw [hp] at hadmitted
          obtain ⟨hauth, hvalid, -⟩ := (isAdmitted_ws_iff env cfg s p).mp hadmitted
          have hnone := notMem_ids_iff.mp hmem
          rw [existingToken, hnone] at htoken
          exact ⟨p, hp, hauth, hvalid, by rw [hid]; exact hnone, by rw [hid, htok]; exact htoken⟩
        refine ⟨fun hc => ?_, fun hc => absurd hfrom hc⟩
        have hcard : s'.registry.ids.card = s.registry.ids.card + 1 := by
          rw [hreg]
          exact Finset.card_insert_of_notMem hmem
        have hactive : s'.registry.active = s.registry.active := by
          rw [hreg]
          rfl
        have heq := hc.active_eq
        rw [hactive, hs.active_eq, hcard] at heq
        omega
  | register q K s' hK htransport hchan htoken hslot hreg hmaps =>
      obtain ⟨p, hp, hid, htok⟩ := exists_params hK
      have hnew : K.id ∉ s.registry.ids := by
        intro hmem
        obtain ⟨client, hc⟩ := Option.isSome_iff_exists.mp
          (Finmap.lookup_isSome.mpr (Finmap.mem_keys.mp hmem))
        rw [existingToken, hc] at htoken
        exact absurd htoken (by simp)
      have hcounted : s'.registry.Counted cfg.concurrentLimit := by
        refine hs.reserve_insert (fun _ => hslot) (by rw [hreg]; rfl) ?_
        rw [hreg]
        exact (if_neg hnew).symm
      refine ⟨fun _ => ?_, fun _ => hcounted⟩
      rintro ⟨p', hp', -, -, hnone, hredis⟩
      rw [existingToken, notMem_ids_iff.mp hnew] at htoken
      rw [← (Params.ws_inj (hp.symm.trans hp')).1, hid] at hredis
      rw [hredis] at htoken
      exact absurd htoken (by simp)
  | stream q K s' hK htransport hchan hslot hreg hmaps =>
      have hcounted : s'.registry.Counted cfg.concurrentLimit :=
        hs.reserve_insert hslot (by rw [hreg]; rfl) (by rw [hreg]; rfl)
      refine ⟨fun _ => ?_, fun _ => hcounted⟩
      rintro ⟨p', hp', -⟩
      exact absurd hp' (by simp [Params.ws])
  | poll q K s' hK htransport hchan hslot hreg hmaps =>
      have hcounted : s'.registry.Counted cfg.concurrentLimit :=
        hs.reserve_insert hslot (by rw [hreg]; rfl) (by rw [hreg]; rfl)
      refine ⟨fun _ => ?_, fun _ => hcounted⟩
      rintro ⟨p', hp', -⟩
      exact absurd hp' (by simp [Params.ws])

/-- A message releases a slot for each record it removes. -/
lemma Registry.Counted.afterMessage {env : Env} {s : AppState} {id : String} {msg : Message}
    {replay : ReplayBuffer Frame} {limit : UInt64} (h : s.registry.Counted limit) :
    (Registry.afterMessage env s id msg replay).Counted limit := by
  have hmeter : (s.registry.meter id msg.type_).Counted limit := by
    rw [Registry.meter]
    cases msg.type_.bucket with
    | none => exact h
    | some bucket => exact h.congr rfl rfl
  exact (hmeter.dropIfAny _).congr rfl rfl

/-- One step keeps the count just when it is not a reconnect from Redis. -/
lemma counted_iff_of_step {cfg : Config} {w w' : World} {l : Label} (hw : Counted cfg w.app)
    (h : step cfg w l = some w') : Counted cfg w'.app ↔ NoRedisReconnect cfg w l := by
  have hg := counted_iff.mp hw
  have hother : (∀ r, l.event ≠ .connect r) → Counted cfg w'.app →
      (Counted cfg w'.app ↔ NoRedisReconnect cfg w l) := fun hne hc =>
    ⟨fun _ r hr => absurd hr (hne r), fun _ => hc⟩
  obtain ⟨env, ev⟩ := l
  have ht := step_trans h
  dsimp only at ht
  cases ht with
  | refused r why hout =>
      have hsame : Counted cfg (w.app.withClaims (storedClaims env cfg r)) := by
        rw [counted_iff, (withClaims_frame _ _).1]
        cases storedClaims env cfg r with
        | none => exact hg
        | some pair => exact hg.congr rfl rfl
      refine ⟨fun _ r' hr' hfrom => ?_, fun _ => hsame⟩
      rw [← Event.connect.inj hr'] at hfrom
      have hadmitted := admitted_of_reconnectsFromRedis hfrom
      rw [hout] at hadmitted
      exact absurd hadmitted (by simp [Outcome.isAdmitted])
  | admitted r K s' hout hadm =>
      rw [counted_iff_of_admits hw hout hadm]
      constructor
      · intro hno r' hr'
        rw [← Event.connect.inj hr']
        exact hno
      · exact fun hno => hno r rfl
  | message ev id msg s' hin hrec =>
      refine hother (only_of_incoming hin).2.1 (counted_iff.mpr ?_)
      rw [hrec.registry]
      exact hg.afterMessage
  | socketClosed k K s' hdown hreg hun =>
      refine hother (by simp) (counted_iff.mpr ?_)
      rw [hreg]
      exact (hg.drop K.id).congr rfl rfl
  | streamCleaned ev k K s' f hev hdown hlater hclose hreg hun =>
      refine hother (only_of_cleanedUp cfg hdown).2.1 (counted_iff.mpr ?_)
      rw [hreg]
      exact (hg.drop K.id).congr rfl rfl
  | evicted =>
      refine hother (by simp) (counted_iff.mpr ?_)
      rw [(registry_evictBroken env cfg w.app).1]
      exact hg.foldl_drop _
  | reconciled =>
      refine hother (by simp) ⟨?_, hw.2⟩
      have hbound : cfg.concurrentLimit.toNat < 2 ^ 64 := cfg.concurrentLimit.toNat_lt
      have hle := hw.2
      exact UInt64.toNat_ofNat_of_lt' (lt_of_le_of_lt hle hbound)
  | expired =>
      refine hother (by simp) (counted_iff.mpr ?_)
      rw [registry_cleanupExpiredSessions]
      exact hg
  | replayEvicted => exact hother (by simp) (counted_iff.mpr (hg.congr rfl rfl))
  | quiet ev w' hin hdown hconnect hevict hreg hmaps hconns =>
      refine hother hconnect (counted_iff.mpr ?_)
      rw [hreg]
      exact hg

/-- In every run from an empty server, whatever Redis holds: the counter is the
number of clients, and within the limit, in all its states just when none of
its steps is a WebSocket reconnect whose token is found in Redis only. -/
theorem connections_counted_iff (cfg : Config) (redis : Redis) (ls : List Label) :
    AllSteps (step cfg) (fun _ _ w' => Counted cfg w'.app) (World.init cfg redis) ls ↔
      AllSteps (step cfg) (fun w l _ => NoRedisReconnect cfg w l) (World.init cfg redis) ls := by
  have hinit : Counted cfg (World.init cfg redis).app := ⟨rfl, Nat.zero_le _⟩
  exact AllSteps.iff_of_invariant (I := fun w : World => Counted cfg w.app)
    (fun _ _ _ => counted_iff_of_step) (fun _ _ _ _ _ hG => hG) hinit

/-- The count does not hold in every run: a client that only Redis knows
reconnects, and is not counted. -/
theorem redis_reconnect_not_counted :
    ¬∀ (cfg : Config) (redis : Redis) (ls : List Label),
      AllSteps (step cfg) (fun _ _ w' => Counted cfg w'.app) (World.init cfg redis) ls := by
  intro hall
  have hrun := hall {} aliceInRedis.redis [quietly (.connect (Params.plain "alice" "tok").ws)]
  obtain ⟨hcounted, -⟩ := hrun _ rfl
  exact absurd hcounted.1 (by decide)

end Dendri
