import Dendri.Concurrent.Revocation
import Dendri.Lib.ReadThrough

/-!
How old an answer of `resolve_api_key` can be. Redis is shared: another instance of the server
can delete a tenant or rotate its key, and this one hears nothing of it. What it has cached it
goes on using.

* `CacheWorld`, `cacheStep`: any number of resolvers in steps, while Redis is changed by
  anyone and the cache is cleared at any time. A fetch can fail;
* `Prompt`: a resolver stores what it has fetched within a given time;
* `Traced`: the invariant. What is cached or held was fetched shortly before;
* `answers_fresh`: every answer is what Redis, or a failed call, gave for the key at most
  `CACHE_TTL` and that time ago;
* `key_lapses`: a key that is gone from Redis lets nobody in after that, whoever removed it
  and whether or not the cache was cleared.
-/

namespace Dendri

open Function ReadThrough Transition

/-- A call of `fetch_by_hash`: when, for which hash, whether it succeeded, and the tenants it
found. -/
structure TenantFetch where
  hash : String
  time : ℕ
  ok : Bool
  store : TenantStore

/-- What the caller goes on with: an error counts as no tenant. -/
def TenantFetch.value (f : TenantFetch) : Option Tenant :=
  if f.ok then f.store.fetchByHash f.hash else none

/-- The fetch in the terms of the cache. -/
def TenantFetch.toFetch (f : TenantFetch) : Fetch String (Option Tenant) := ⟨f.hash, f.value, f.time⟩

/-- Redis and the cache, how far each resolver has come, and the calls to Redis so far; a
resolver that has fetched, when. -/
structure CacheWorld (κ : Type) where
  tenants : TenantState
  phases : κ → RevokePhase
  fetchedAt : κ → ℕ
  fetches : List TenantFetch

/-- The resolver holds what it has fetched. -/
def RevokePhase.isFetched : RevokePhase → Bool
  | .fetched _ => true
  | _ => false

/-- What can happen. -/
inductive CacheEvent (κ : Type) where
  /-- The next step of a resolver, and whether Redis answers it. -/
  | resolve (k : κ) (ok : Bool)
  /-- The tenants change in Redis, by this process or by another. -/
  | write (store : TenantStore)
  /-- `invalidate_all`. -/
  | invalidate

section Steps

variable {κ : Type} [DecidableEq κ] (hash : κ → String)

/-- One event at the time `now`. -/
def cacheStep (w : CacheWorld κ) (e : ℕ × CacheEvent κ) : Option (CacheWorld κ) :=
  match e.2 with
  | .resolve k ok =>
      if w.phases k = .missed then
        let fetch : TenantFetch := ⟨hash k, e.1, ok, w.tenants.store⟩
        some { w with
          phases := update w.phases k (.fetched fetch.value)
          fetchedAt := update w.fetchedAt k e.1
          fetches := w.fetches ++ [fetch] }
      else
        (resolveStep e.1 ok (hash k) w.tenants (w.phases k)).map fun r =>
          { w with tenants := r.1, phases := update w.phases k r.2 }
  | .write store => some { w with tenants := { w.tenants with store := store } }
  | .invalidate => some { w with tenants := { w.tenants with cache := w.tenants.cache.invalidateAll } }

/-- No resolver has started, and nothing is cached. -/
def CacheWorld.init (κ : Type) (store : TenantStore) : CacheWorld κ :=
  ⟨⟨store, ⟨∅⟩⟩, fun _ => .start, fun _ => 0, []⟩

/-- A resolver that has fetched a value makes its next step, the storing, within `delay`. -/
def Prompt (delay : ℕ) (w : CacheWorld κ) (e : ℕ × CacheEvent κ) : Prop :=
  match e.2 with
  | .resolve k _ => (w.phases k).isFetched = true → e.1 ≤ w.fetchedAt k + delay
  | _ => True

instance (delay : ℕ) (w : CacheWorld κ) (e : ℕ × CacheEvent κ) : Decidable (Prompt delay w e) :=
  match he : e.2 with
  | .resolve k _ =>
      decidable_of_iff ((w.phases k).isFetched = true → e.1 ≤ w.fetchedAt k + delay)
        (by rw [Prompt, he])
  | .write _ | .invalidate => isTrue (by rw [Prompt, he]; trivial)

/-- The answers of a step are fresh: each is the active tenant in a value that was fetched for
the key at most `bound` ago. -/
def AnswersFresh (bound : ℕ) (e : ℕ × CacheEvent κ) (w' : CacheWorld κ) : Prop :=
  ∀ k ok tenant, e.2 = .resolve k ok → w'.phases k = .answered tenant →
    ∃ f ∈ w'.fetches, f.hash = hash k ∧ e.1 ≤ f.time + bound ∧ tenant = activeTenant f.value

/-- What is cached was fetched shortly before, and so was what a resolver holds. -/
structure Traced (delay : ℕ) (w : CacheWorld κ) : Prop where
  cached : Fetched delay (w.fetches.map TenantFetch.toFetch) w.tenants.cache.inner.lookup
  held : ∀ k value, w.phases k = .fetched value →
    ∃ f ∈ w.fetches, f.hash = hash k ∧ f.value = value ∧ f.time = w.fetchedAt k

variable {hash} {delay : ℕ} {w w' : CacheWorld κ} {e : ℕ × CacheEvent κ}

lemma fresh_iff {fetches : List TenantFetch} {bound now : ℕ} {h : String}
    {value : Option Tenant} :
    Fresh bound (fetches.map TenantFetch.toFetch) h value now ↔
      ∃ f ∈ fetches, f.hash = h ∧ f.value = value ∧ now ≤ f.time + bound := by
  constructor
  · rintro ⟨_, hmem, hkey, hvalue, htime⟩
    obtain ⟨f, hf, rfl⟩ := List.mem_map.mp hmem
    exact ⟨f, hf, hkey, hvalue, htime⟩
  · rintro ⟨f, hf, hkey, hvalue, htime⟩
    exact ⟨f.toFetch, List.mem_map_of_mem hf, hkey, hvalue, htime⟩

lemma lookup_put (cache : TenantCache) (now : ℕ) (h : String) (value : Option Tenant) :
    (cache.put now h value).inner.lookup = update cache.inner.lookup h (some (value, now)) := by
  funext j
  rw [TenantCache.put, FinMap.lookup_insert_ite, update_apply]

/-- A hit of the cache is an entry that is not too old. -/
lemma get_eq_some {cache : TenantCache} {now : ℕ} {h : String} {value : Option Tenant}
    (hget : cache.get now h = some value) :
    ∃ storedAt, cache.inner.lookup h = some (value, storedAt) ∧ now - storedAt ≤ cacheTtl := by
  rw [TenantCache.get] at hget
  split at hget
  · next value' storedAt hlookup =>
      split_ifs at hget with hold
      rw [← Option.some.inj hget]
      exact ⟨storedAt, hlookup, not_lt.mp hold⟩
  · exact absurd hget (by simp)

/-- The resolvers that do not move hold what they held. -/
lemma held_update {fetches : List TenantFetch} {fetchedAt : κ → ℕ} {k : κ} {p : RevokePhase}
    (hw : Traced hash delay w) (hfetches : w.fetches ⊆ fetches)
    (hat : ∀ j, j ≠ k → fetchedAt j = w.fetchedAt j)
    (hk : ∀ value, p = .fetched value →
      ∃ f ∈ fetches, f.hash = hash k ∧ f.value = value ∧ f.time = fetchedAt k) :
    ∀ j value, update w.phases k p j = .fetched value →
      ∃ f ∈ fetches, f.hash = hash j ∧ f.value = value ∧ f.time = fetchedAt j := by
  have hholds : ∀ j, j ≠ k → ∀ value, w.phases j = .fetched value →
      ∃ f ∈ fetches, f.hash = hash j ∧ f.value = value ∧ f.time = fetchedAt j := by
    intro j hj value hphase
    obtain ⟨f, hf, hhash, hvalue, htime⟩ := hw.held j value hphase
    exact ⟨f, hfetches hf, hhash, hvalue, htime.trans (hat j hj).symm⟩
  intro j value hphase
  by_cases hj : j = k
  · subst hj
    rw [update_self] at hphase
    exact hk value hphase
  · rw [update_of_ne hj] at hphase
    exact hholds j hj value hphase

/-- A step of a resolver that does not fetch. -/
lemma traced_of_resolveStep {now : ℕ} {ok : Bool} {k : κ} {s' : TenantState} {p' : RevokePhase}
    (hw : Traced hash delay w) (hphase : w.phases k ≠ .missed)
    (hprompt : ∀ value, w.phases k = .fetched value → now ≤ w.fetchedAt k + delay)
    (h : resolveStep now ok (hash k) w.tenants (w.phases k) = some (s', p')) :
    Traced hash delay { w with tenants := s', phases := update w.phases k p' } ∧
      ∀ tenant, p' = .answered tenant → ∃ f ∈ w.fetches,
        f.hash = hash k ∧ now ≤ f.time + (cacheTtl + delay) ∧ tenant = activeTenant f.value := by
  have hkeep : (∀ value, p' ≠ .fetched value) → ∀ j value,
      update w.phases k p' j = .fetched value → ∃ f ∈ w.fetches,
        f.hash = hash j ∧ f.value = value ∧ f.time = w.fetchedAt j := fun hp' =>
    held_update hw (List.Subset.refl _) (fun _ _ => rfl) fun value hvalue =>
      absurd hvalue (hp' value)
  rcases resolveStep_cases h with ⟨value, -, hget, rfl, rfl⟩ | ⟨-, rfl, rfl⟩ | ⟨hmissed, -⟩ |
    ⟨value, hfetched, rfl, rfl⟩
  · obtain ⟨storedAt, hentry, hage⟩ := get_eq_some hget
    refine ⟨⟨hw.cached, hkeep (by simp)⟩, fun tenant htenant => ?_⟩
    obtain ⟨f, hf, hhash, hvalue, htime⟩ := fresh_iff.mp (hw.cached.get hentry hage)
    exact ⟨f, hf, hhash, htime, by rw [hvalue]; exact (RevokePhase.answered.inj htenant).symm⟩
  · exact ⟨⟨hw.cached, hkeep (by simp)⟩, fun tenant htenant => absurd htenant (by simp)⟩
  · exact absurd hmissed hphase
  · obtain ⟨f, hf, hhash, hvalue, htime⟩ := hw.held k value hfetched
    have hnow : now ≤ f.time + delay := htime ▸ hprompt value hfetched
    refine ⟨⟨?_, hkeep (by simp)⟩, fun tenant htenant => ⟨f, hf, hhash, by omega, ?_⟩⟩
    · dsimp only
      rw [lookup_put]
      exact hw.cached.put (fresh_iff.mpr ⟨f, hf, hhash, hvalue, hnow⟩)
    · rw [hvalue]
      exact (RevokePhase.answered.inj htenant).symm

lemma traced_of_step (hw : Traced hash delay w) (hprompt : Prompt delay w e)
    (h : cacheStep hash w e = some w') :
    Traced hash delay w' ∧ AnswersFresh hash (cacheTtl + delay) e w' := by
  obtain ⟨now, ev⟩ := e
  cases ev with
  | resolve k ok =>
      rw [cacheStep] at h
      dsimp only at h
      by_cases hphase : w.phases k = .missed
      · rw [if_pos hphase, Option.some.injEq] at h
        subst h
        constructor
        · refine ⟨hw.cached.mono (List.map_subset _ (List.subset_append_left _ _)), ?_⟩
          refine held_update hw (List.subset_append_left _ _)
            (fun j hj => update_of_ne hj _ _) fun value hvalue => ?_
          refine ⟨⟨hash k, now, ok, w.tenants.store⟩, by simp, rfl, ?_, ?_⟩
          · exact RevokePhase.fetched.inj hvalue
          · exact (update_self k now w.fetchedAt).symm
        · rintro k' ok' tenant hk' hanswer
          obtain ⟨rfl, -⟩ := CacheEvent.resolve.inj hk'
          exact absurd ((update_self k _ w.phases).symm.trans hanswer) (by simp)
      · rw [if_neg hphase] at h
        obtain ⟨⟨s', p'⟩, hstep, rfl⟩ := Option.map_eq_some_iff.mp h
        obtain ⟨htraced, hfresh⟩ := traced_of_resolveStep hw hphase
          (fun value hvalue => hprompt (by rw [hvalue]; rfl)) hstep
        refine ⟨htraced, ?_⟩
        rintro k' ok' tenant hk' hanswer
        obtain ⟨rfl, -⟩ := CacheEvent.resolve.inj hk'
        exact hfresh tenant ((update_self k p' w.phases).symm.trans hanswer)
  | write store =>
      rw [← Option.some.inj h]
      exact ⟨⟨hw.cached, hw.held⟩, fun k ok tenant hev => absurd hev (by simp)⟩
  | invalidate =>
      rw [← Option.some.inj h]
      refine ⟨⟨?_, hw.held⟩, fun k ok tenant hev => absurd hev (by simp)⟩
      exact Fetched.empty

omit [DecidableEq κ] in
lemma traced_init (hash : κ → String) (store : TenantStore) (delay : ℕ) :
    Traced hash delay (CacheWorld.init κ store) :=
  ⟨Fetched.empty, fun k value hvalue => absurd hvalue (by simp [CacheWorld.init])⟩

/-- Any number of resolvers, changes of Redis and clears of the cache in any order: if every
resolver stores what it has fetched within `delay`, each answer is what a call to Redis gave for
the key at most `CACHE_TTL` and `delay` ago. -/
theorem answers_fresh (hash : κ → String) (store : TenantStore) (delay : ℕ)
    (es : List (ℕ × CacheEvent κ))
    (hprompt : AllSteps (cacheStep hash) (fun w e _ => Prompt delay w e)
      (CacheWorld.init κ store) es) :
    AllSteps (cacheStep hash) (fun _ e w' => AnswersFresh hash (cacheTtl + delay) e w')
      (CacheWorld.init κ store) es := by
  exact AllSteps.of_invariant (I := Traced hash delay) (P := fun w e _ => Prompt delay w e)
    (fun w e w' hw hstep hp => traced_of_step hw hp hstep) (traced_init hash store delay) hprompt

/-- In such a run a key that no call to Redis finds after some time lets nobody in once
`CACHE_TTL` and `delay` have passed, whoever removed it. -/
theorem key_lapses (hash : κ → String) (store : TenantStore) (delay gone : ℕ)
    (es : List (ℕ × CacheEvent κ))
    (hprompt : AllSteps (cacheStep hash) (fun w e _ => Prompt delay w e)
      (CacheWorld.init κ store) es) :
    AllSteps (cacheStep hash)
      (fun _ e w' => ∀ k ok tenant, e.2 = .resolve k ok → w'.phases k = .answered tenant →
        gone + cacheTtl + delay < e.1 →
        (∀ f ∈ w'.fetches, f.hash = hash k → gone < f.time → f.value = none) → tenant = none)
      (CacheWorld.init κ store) es := by
  refine AllSteps.of_invariant (I := Traced hash delay) (P := fun w e _ => Prompt delay w e)
    (fun w e w' hw hstep hp => ?_) (traced_init hash store delay) hprompt
  obtain ⟨hw', hfresh⟩ := traced_of_step hw hp hstep
  refine ⟨hw', fun k ok tenant hev hanswer hlate hgone => ?_⟩
  obtain ⟨f, hf, hhash, htime, rfl⟩ := hfresh k ok tenant hev hanswer
  rw [hgone f hf hhash (by omega)]
  rfl

end Steps

/-- Two resolvers of the key of a tenant that is deleted between their fetches: the second one
finds the tenant in the cache. -/
def acmeResolved : List (ℕ × CacheEvent (Fin 2)) :=
  [(0, .resolve 0 true), (5, .resolve 0 true), (8, .resolve 0 true), (9, .write ⟨∅, ∅, ∅⟩),
    (20000, .resolve 1 true)]

theorem answers_fresh_acme :
    AllSteps (cacheStep fun _ : Fin 2 => "h0")
      (fun _ e w' => AnswersFresh (fun _ => "h0") (cacheTtl + 10) e w')
      (CacheWorld.init (Fin 2) acmeStore) acmeResolved :=
  answers_fresh (fun _ => "h0") acmeStore 10 acmeResolved (by decide +kernel)

end Dendri
