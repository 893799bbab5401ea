import Dendri.Concurrent.Tenants

/-!
The revocation of an API key while connects resolve it. `resolve_api_key`
looks in the cache, fetches from Redis and stores what it fetched, as three
steps, and a fetch that fails counts as one of no tenant; `remove_tenant` and
`rotate_key` change Redis and then clear the cache.

* `revokeStep`: one step of a resolver, or of the one mutation;
  `alone_resolve`: without interruption a resolver is `resolveApiKey`;
* `NoneInFlight`: the condition on a step: when the cache is cleared, no
  resolver of the removed key holds a tenant it has fetched and not stored;
* `revoked_at_once`: then no resolver of the key that starts after the clear
  gets the tenant.
-/

namespace Dendri

open Transition

/-! ### The steps -/

/-- Redis and the cache. -/
structure TenantState where
  store : TenantStore
  cache : TenantCache

/-- How far a resolver or the mutation has come. -/
inductive RevokePhase where
  /-- A resolver that has not looked in the cache. -/
  | start
  | missed
  | fetched (value : Option Tenant)
  | answered (tenant : Option Tenant)
  /-- The mutation, in the steps of its function of `tenant.rs`. -/
  | mutating (p : TenantPhase)
  /-- The hash is removed from Redis. -/
  | removed (hash : String)
  /-- `invalidate_all` has returned. -/
  | invalidated (hash : String)
  deriving DecidableEq

/-- The hash a call of `tenant.rs` has read from the index. -/
def TenantPhase.hash : TenantPhase → String
  | .indexed hash | .loaded hash _ | .located hash _ | .fetched hash _ => hash
  | .start | .returned _ => ""

section Steps

variable {κ : Type} (id : String) (mutation : TenantCall) (hash : κ → String)

/-- The next step of the resolver of `hash`, at the time `now`; `ok` is whether Redis
answers. -/
def resolveStep (now : ℕ) (ok : Bool) (hash : String) (s : TenantState) :
    RevokePhase → Option (TenantState × RevokePhase)
  | .start =>
      match s.cache.get now hash with
      | some cached => some (s, .answered (activeTenant cached))
      | none => some (s, .missed)
  | .missed => some (s, .fetched (if ok then s.store.fetchByHash hash else none))
  | .fetched value =>
      some ({ s with cache := s.cache.put now hash value }, .answered (activeTenant value))
  | _ => none

/-- The next step of the mutation: of its function of `tenant.rs`, and of
`invalidate_all` if that has changed something. -/
def mutateStep (s : TenantState) : RevokePhase → Option (TenantState × RevokePhase)
  | .mutating p =>
      match tenantStep id (fun _ : Unit => mutation) () (s.store, []) p with
      | some ((store, _), .returned true) => some ({ s with store := store }, .removed p.hash)
      | some ((store, _), p') => some ({ s with store := store }, .mutating p')
      | none => none
  | .removed hash => some ({ s with cache := s.cache.invalidateAll }, .invalidated hash)
  | _ => none

/-- Any number of resolvers, the `k`-th of the key with `hash k`, and one
mutation, which is the process `none`. An event is the next step of a process,
its time, and whether Redis answers. -/
def revokeStep [DecidableEq κ] : TenantState × (Option κ → RevokePhase) → Option κ × ℕ × Bool →
    Option (TenantState × (Option κ → RevokePhase)) :=
  Interleave.step Prod.fst fun e s p =>
    match e.1 with
    | none => mutateStep id mutation s p
    | some k => resolveStep e.2.1 e.2.2 (hash k) s p

/-- Nothing has started. -/
def revokeStart (κ : Type) : Option κ → RevokePhase
  | none => .mutating .start
  | some _ => .start

/-- The resolver has fetched a tenant and not stored it yet. -/
def RevokePhase.holdsTenant : RevokePhase → Bool
  | .fetched (some _) => true
  | _ => false

/-- The condition on a step: `invalidate_all` runs while no resolver of the
removed key holds a tenant that it has fetched and not stored yet. -/
def NoneInFlight (w : TenantState × (Option κ → RevokePhase)) (e : Option κ × ℕ × Bool) : Prop :=
  match e.1, w.2 none with
  | none, .removed removed =>
      ∀ k, hash k = removed → (w.2 (some k)).holdsTenant = false
  | _, _ => True

instance [Fintype κ] (w : TenantState × (Option κ → RevokePhase)) (e : Option κ × ℕ × Bool) :
    Decidable (NoneInFlight hash w e) :=
  match he : e.1, hp : w.2 none with
  | none, .removed removed =>
      decidable_of_iff (∀ k, hash k = removed → (w.2 (some k)).holdsTenant = false)
        (by rw [NoneInFlight, he, hp])
  | some _, _ => isTrue (by rw [NoneInFlight, he]; trivial)
  | none, .start | none, .missed | none, .fetched _ | none, .answered _ | none, .mutating _
  | none, .invalidated _ => isTrue (by rw [NoneInFlight, he, hp]; trivial)

end Steps

/-- A resolver that is not interrupted is `resolve_api_key`, on a Redis without keys if it
does not answer. -/
theorem alone_resolve (now : ℕ) (ok : Bool) (hash : String) (s : TenantState) :
    let store := if ok then s.store else { s.store with byHash := ∅ }
    Interleave.Alone (resolveStep now ok hash) (s, .start)
      ({ s with cache := (resolveApiKey store s.cache now hash).1 },
        .answered (resolveApiKey store s.cache now hash).2) := by
  intro store
  cases hget : s.cache.get now hash with
  | some cached =>
      have hstep : resolveStep now ok hash s .start =
          some (s, .answered (activeTenant cached)) := by
        simp only [resolveStep, hget]
      simp only [resolveApiKey, hget]
      exact .head hstep (.refl _)
  | none =>
      have hmiss : resolveStep now ok hash s .start = some (s, .missed) := by
        simp only [resolveStep, hget]
      have hfetch : resolveStep now ok hash s .missed =
          some (s, .fetched (store.fetchByHash hash)) := by
        cases ok <;> rfl
      simp only [resolveApiKey, hget]
      exact .head hmiss (.head hfetch (.head rfl (.refl _)))

/-! ### After the clear -/

section Revoked

variable {κ : Type} {id : String} {mutation : TenantCall} {hash : κ → String}

/-- After the clear, the removed key is in no place a resolver could take it
from. -/
structure Revoked (hash : κ → String) (removed : String)
    (w : TenantState × (Option κ → RevokePhase)) : Prop where
  done : w.2 none = .invalidated removed
  gone : w.1.store.fetchByHash removed = none
  cached : ∀ value storedAt, w.1.cache.inner.lookup removed = some (value, storedAt) → value = none
  held : ∀ k value, hash k = removed → w.2 (some k) = .fetched value → value = none

/-- The write of a deletion or a rotation removes the hash its call has read. -/
lemma gone_of_tenantStep (hmutation : ∀ secret, mutation ≠ .rotateJwtSecret secret)
    {s s' : TenantStore × List Unit} {p : TenantPhase}
    (h : tenantStep id (fun _ => mutation) () s p = some (s', .returned true)) :
    s'.1.fetchByHash p.hash = none := by
  rcases tenantStep_cases h with ⟨-, hne⟩ | ⟨-, -, hwrite⟩
  · exact absurd rfl hne
  · rcases hwrite with ⟨new, hash, tenant, -, rfl, hs'⟩ | ⟨secret, hash, tenant, hcall, -⟩ |
      ⟨hash, email, -, rfl, hs'⟩
    · rw [hs', fetchByHash_moveKey, TenantPhase.hash, if_pos rfl]
    · exact absurd hcall (hmutation secret)
    · rw [hs', fetchByHash_dropKey, TenantPhase.hash, if_pos rfl]

/-- What a step of the mutation does: it is still at work in Redis, it has
removed a hash there, or it clears the cache. -/
lemma mutateStep_cases (hmutation : ∀ secret, mutation ≠ .rotateJwtSecret secret)
    {s s' : TenantState} {p p' : RevokePhase} (h : mutateStep id mutation s p = some (s', p')) :
    (∃ q, p' = .mutating q) ∨
      (∃ removed, p' = .removed removed ∧ s'.store.fetchByHash removed = none) ∨
      ∃ removed, p = .removed removed ∧ p' = .invalidated removed ∧
        s' = { s with cache := s.cache.invalidateAll } := by
  cases p with
  | mutating q =>
      simp only [mutateStep] at h
      split at h
      · rename_i store log htenant
        rw [Option.some.injEq, Prod.mk.injEq] at h
        obtain ⟨rfl, rfl⟩ := h
        exact .inr (.inl ⟨q.hash, rfl, gone_of_tenantStep hmutation htenant⟩)
      · rename_i store log q' _ htenant
        rw [Option.some.injEq, Prod.mk.injEq] at h
        exact .inl ⟨q', h.2.symm⟩
      · exact absurd h (by simp)
  | removed removed =>
      rw [mutateStep, Option.some.injEq, Prod.mk.injEq] at h
      exact .inr (.inr ⟨removed, rfl, h.2.symm, h.1.symm⟩)
  | start => simp [mutateStep] at h
  | missed => simp [mutateStep] at h
  | fetched value => simp [mutateStep] at h
  | answered tenant => simp [mutateStep] at h
  | invalidated removed => simp [mutateStep] at h

/-- What a step of a resolver does. -/
lemma resolveStep_cases {now : ℕ} {ok : Bool} {key : String} {s s' : TenantState}
    {p p' : RevokePhase} (h : resolveStep now ok key s p = some (s', p')) :
    (∃ cached, p = .start ∧ s.cache.get now key = some cached ∧ s' = s ∧
        p' = .answered (activeTenant cached)) ∨
      (p = .start ∧ s' = s ∧ p' = .missed) ∨
      (p = .missed ∧ s' = s ∧ p' = .fetched (if ok then s.store.fetchByHash key else none)) ∨
      ∃ value, p = .fetched value ∧ s' = { s with cache := s.cache.put now key value } ∧
        p' = .answered (activeTenant value) := by
  cases p with
  | start =>
      simp only [resolveStep] at h
      split at h
      · rename_i cached hget
        rw [Option.some.injEq, Prod.mk.injEq] at h
        exact .inl ⟨cached, rfl, hget, h.1.symm, h.2.symm⟩
      · rw [Option.some.injEq, Prod.mk.injEq] at h
        exact .inr (.inl ⟨rfl, h.1.symm, h.2.symm⟩)
  | missed =>
      rw [resolveStep, Option.some.injEq, Prod.mk.injEq] at h
      exact .inr (.inr (.inl ⟨rfl, h.1.symm, h.2.symm⟩))
  | fetched value =>
      rw [resolveStep, Option.some.injEq, Prod.mk.injEq] at h
      exact .inr (.inr (.inr ⟨value, rfl, h.1.symm, h.2.symm⟩))
  | answered tenant => simp [resolveStep] at h
  | mutating p => simp [resolveStep] at h
  | removed removed => simp [resolveStep] at h
  | invalidated removed => simp [resolveStep] at h

variable [DecidableEq κ] {w w' : TenantState × (Option κ → RevokePhase)}
  {e : Option κ × ℕ × Bool}

/-- A step is one of the mutation or one of a resolver. -/
lemma revokeStep_cases (h : revokeStep id mutation hash w e = some w') :
    (e.1 = none ∧ ∃ s' p', mutateStep id mutation w.1 (w.2 none) = some (s', p') ∧
        w' = (s', Function.update w.2 none p')) ∨
      ∃ k s' p', e.1 = some k ∧
        resolveStep e.2.1 e.2.2 (hash k) w.1 (w.2 (some k)) = some (s', p') ∧
        w' = (s', Function.update w.2 (some k) p') := by
  obtain ⟨s', p', hact, rfl⟩ := Interleave.step_eq_some h
  cases he : e.1 with
  | none =>
      rw [he] at hact
      exact .inl ⟨rfl, s', p', hact, rfl⟩
  | some k =>
      rw [he] at hact
      exact .inr ⟨k, s', p', rfl, hact, rfl⟩

lemma resolveStep_store {now : ℕ} {ok : Bool} {key : String} {s s' : TenantState}
    {p p' : RevokePhase} (h : resolveStep now ok key s p = some (s', p')) : s'.store = s.store := by
  rcases resolveStep_cases h with ⟨_, -, -, rfl, -⟩ | ⟨-, rfl, -⟩ | ⟨-, rfl, -⟩ | ⟨_, -, rfl, -⟩ <;>
    rfl

/-- After the clear, the steps of all resolvers keep the key away. -/
lemma Revoked.step {removed : String} (h : Revoked hash removed w)
    (hstep : revokeStep id mutation hash w e = some w') : Revoked hash removed w' := by
  rcases revokeStep_cases hstep with ⟨-, s', p', hmutate, -⟩ | ⟨k, s', p', -, hresolve, rfl⟩
  · rw [h.done] at hmutate
    exact absurd hmutate (by simp [mutateStep])
  · have hgone : s'.store.fetchByHash removed = none := by
      rw [resolveStep_store hresolve]
      exact h.gone
    constructor
    case done =>
      dsimp only
      rw [Function.update_of_ne (Option.some_ne_none k).symm]
      exact h.done
    case gone => exact hgone
    case cached =>
      rcases resolveStep_cases hresolve with ⟨_, -, -, rfl, -⟩ | ⟨-, rfl, -⟩ | ⟨-, rfl, -⟩ |
        ⟨value, hp, rfl, -⟩
      · exact h.cached
      · exact h.cached
      · exact h.cached
      · intro value' storedAt hlookup
        dsimp only [TenantCache.put] at hlookup
        rw [FinMap.lookup_insert_ite] at hlookup
        split_ifs at hlookup with hkey
        · rw [Option.some.injEq, Prod.mk.injEq] at hlookup
          rw [← hlookup.1]
          exact h.held k value hkey.symm hp
        · exact h.cached value' storedAt hlookup
    case held =>
      intro i value hi hphase
      by_cases hik : i = k
      · subst hik
        dsimp only at hphase
        rw [Function.update_self] at hphase
        rcases resolveStep_cases hresolve with ⟨_, -, -, -, hp'⟩ | ⟨-, -, hp'⟩ | ⟨-, rfl, hp'⟩ |
          ⟨_, -, -, hp'⟩
        · exact absurd (hp'.symm.trans hphase) (by simp)
        · exact absurd (hp'.symm.trans hphase) (by simp)
        · rw [hp', RevokePhase.fetched.injEq, hi] at hphase
          rw [← hphase, h.gone, ite_self]
        · exact absurd (hp'.symm.trans hphase) (by simp)
      · exact h.held i value hi ((Function.update_of_ne (by simpa using hik) _ _).symm.trans hphase)

variable (hash)

/-- The state of a revocation: the hash is gone from Redis once the mutation
has removed it, and from everywhere once it has cleared the cache. -/
def Revoking (w : TenantState × (Option κ → RevokePhase)) : Prop :=
  ∀ removed, (w.2 none = .removed removed → w.1.store.fetchByHash removed = none) ∧
    (w.2 none = .invalidated removed → Revoked hash removed w)

variable {hash}

/-- One step of a revocation. -/
lemma Revoking.step (h : Revoking hash w)
    (hmutation : ∀ secret, mutation ≠ .rotateJwtSecret secret) (hcond : NoneInFlight hash w e)
    (hstep : revokeStep id mutation hash w e = some w') : Revoking hash w' := by
  intro removed
  rcases revokeStep_cases hstep with ⟨he, s', p', hmutate, rfl⟩ | ⟨k, s', p', -, hresolve, rfl⟩
  · dsimp only
    rw [Function.update_self]
    rcases mutateStep_cases hmutation hmutate with ⟨q, rfl⟩ | ⟨removed', rfl, hgone⟩ |
      ⟨removed', hp, rfl, rfl⟩
    · simp
    · refine ⟨fun heq => ?_, by simp⟩
      rw [RevokePhase.removed.injEq] at heq
      rw [← heq]
      exact hgone
    · refine ⟨by simp, fun heq => ?_⟩
      rw [RevokePhase.invalidated.injEq] at heq
      subst heq
      rw [NoneInFlight, he, hp] at hcond
      refine ⟨by simp, (h removed').1 hp, ?_, ?_⟩
      · simp [TenantCache.invalidateAll]
      · intro k value hk hphase
        dsimp only at hphase
        rw [Function.update_of_ne (Option.some_ne_none k)] at hphase
        have hholds := hcond k hk
        rw [hphase] at hholds
        cases value with
        | none => rfl
        | some tenant => exact absurd hholds (by simp [RevokePhase.holdsTenant])
  · have hnone : Function.update w.2 (some k) p' none = w.2 none :=
      Function.update_of_ne (Option.some_ne_none k).symm _ _
    refine ⟨fun heq => ?_, fun heq => ?_⟩
    · dsimp only at heq ⊢
      rw [resolveStep_store hresolve]
      exact (h removed).1 (hnone.symm.trans heq)
    · exact ((h removed).2 (hnone.symm.trans heq)).step hstep

/-- The answer of a resolver of the removed key that takes its steps after the
clear. -/
lemma Revoked.answer {removed : String} (h : Revoked hash removed w) {k : κ}
    (hk : hash k = removed) (hanswer : ∀ tenant, w.2 (some k) = .answered tenant → tenant = none)
    (hstep : revokeStep id mutation hash w e = some w') :
    ∀ tenant, w'.2 (some k) = .answered tenant → tenant = none := by
  rcases revokeStep_cases hstep with ⟨-, s', p', hmutate, -⟩ | ⟨i, s', p', -, hresolve, rfl⟩
  · rw [h.done] at hmutate
    exact absurd hmutate (by simp [mutateStep])
  · intro tenant hphase
    by_cases hik : i = k
    · subst hik
      dsimp only at hphase
      rw [Function.update_self] at hphase
      rcases resolveStep_cases hresolve with ⟨cached, -, hget, -, hp'⟩ | ⟨-, -, hp'⟩ |
        ⟨-, -, hp'⟩ | ⟨value, hp, -, hp'⟩
      · rw [hp', RevokePhase.answered.injEq] at hphase
        rw [TenantCache.get, hk] at hget
        split at hget
        · rename_i value storedAt hlookup
          split_ifs at hget
          rw [Option.some.injEq] at hget
          rw [← hphase, ← hget, h.cached value storedAt hlookup]
          rfl
        · exact absurd hget (by simp)
      · exact absurd (hp'.symm.trans hphase) (by simp)
      · exact absurd (hp'.symm.trans hphase) (by simp)
      · rw [hp', RevokePhase.answered.injEq] at hphase
        rw [← hphase, h.held i value hk hp]
        rfl
    · exact hanswer tenant
        ((Function.update_of_ne (by simpa using Ne.symm hik) _ _).symm.trans hphase)

/-- Any number of resolvers and one deletion or rotation, in any order: if no
resolver of the removed key holds a fetched tenant when the cache is cleared,
no resolver of that key that starts after the clear gets a tenant. -/
theorem revoked_at_once (hmutation : ∀ secret, mutation ≠ .rotateJwtSecret secret)
    {s : TenantState} {before after : List (Option κ × ℕ × Bool)}
    {w₁ w₂ : TenantState × (Option κ → RevokePhase)}
    (hcond : AllSteps (revokeStep id mutation hash) (fun w e _ => NoneInFlight hash w e)
      (s, revokeStart κ) before)
    (hbefore : run (revokeStep id mutation hash) (s, revokeStart κ) before = some w₁)
    (hafter : run (revokeStep id mutation hash) w₁ after = some w₂)
    {k : κ} (hcleared : w₁.2 none = .invalidated (hash k)) (hstart : w₁.2 (some k) = .start)
    {tenant : Option Tenant} (hanswer : w₂.2 (some k) = .answered tenant) : tenant = none := by
  have hrevoking : Revoking hash w₁ := by
    refine run_invariant ?_ (fun _ => ⟨by simp [revokeStart], by simp [revokeStart]⟩) hcond hbefore
    intro w e w' hw hstep hcond
    exact hw.step hmutation hcond hstep
  have hrevoked : Revoked hash (hash k) w₁ := (hrevoking (hash k)).2 hcleared
  have hend : Revoked hash (hash k) w₂ ∧
      ∀ tenant, w₂.2 (some k) = .answered tenant → tenant = none := by
    refine run_induction (I := fun _ w => Revoked hash (hash k) w ∧
      ∀ tenant, w.2 (some k) = .answered tenant → tenant = none) ⟨hrevoked, ?_⟩ ?_ hafter
    · simp [hstart]
    · intro _ w e w' hw hstep
      exact ⟨hw.1.step hstep, hw.1.answer rfl hw.2 hstep⟩
  exact hend.2 tenant hanswer

end Revoked

/-! ### Fixed calls -/

/-- A schedule of a deletion and two resolvers of the key `h0`; `none` is the
next step of the deletion. -/
def acmeRevoked (schedule : List (Option (Fin 2))) :
    Option (TenantState × (Option (Fin 2) → RevokePhase)) :=
  run (revokeStep "t_1" .deleteTenant fun _ => "h0") (⟨acmeStore, ⟨∅⟩⟩, revokeStart (Fin 2))
    (schedule.zipIdx.map fun e => (e.1, e.2, true))

/-- A resolver that has answered before the deletion does no harm: the next one
finds nothing. -/
theorem revoked_at_once_acme :
    ∃ w₁ w₂ tenant, acmeRevoked [some 0, some 0, some 0, none, none, none, none] = some w₁ ∧
      run (revokeStep "t_1" .deleteTenant fun _ => "h0") w₁
        [(some 1, 8, true), (some 1, 9, true), (some 1, 10, true)] = some w₂ ∧
      w₂.2 (some 1) = .answered tenant ∧ tenant = none := by
  have hend : (acmeRevoked [some 0, some 0, some 0, none, none, none, none]).bind (fun w₁ =>
      (run (revokeStep "t_1" .deleteTenant fun _ => "h0") w₁
        [(some 1, 8, true), (some 1, 9, true), (some 1, 10, true)]).map
          fun w₂ => (w₁.2 none, w₁.2 (some 1), w₂.2 (some 1))) =
      some (.invalidated "h0", .start, .answered none) := by decide +kernel
  obtain ⟨w₁, hw₁, hrest⟩ := Option.bind_eq_some_iff.mp hend
  obtain ⟨w₂, hw₂, hobs⟩ := Option.map_eq_some_iff.mp hrest
  rw [Prod.mk.injEq, Prod.mk.injEq] at hobs
  exact ⟨w₁, w₂, none, hw₁, hw₂, hobs.2.2,
    revoked_at_once (by simp) (by decide +kernel) hw₁ hw₂ hobs.1 hobs.2.1 hobs.2.2⟩

/-- A key can outlive its revocation: a resolver that fetched before the
deletion stores after the clear, and the next one finds the tenant in the
cache. -/
theorem revoked_key_resolves :
    ¬∀ (id : String) (mutation : TenantCall) (hash : Fin 2 → String) (s : TenantState)
        (before after : List (Option (Fin 2) × ℕ × Bool))
        (w₁ w₂ : TenantState × (Option (Fin 2) → RevokePhase)) (k : Fin 2)
        (tenant : Option Tenant),
      (∀ secret, mutation ≠ .rotateJwtSecret secret) →
      run (revokeStep id mutation hash) (s, revokeStart (Fin 2)) before = some w₁ →
      run (revokeStep id mutation hash) w₁ after = some w₂ →
      w₁.2 none = .invalidated (hash k) → w₁.2 (some k) = .start →
      w₂.2 (some k) = .answered tenant → tenant = none := by
  intro hall
  have hend : (acmeRevoked [some 0, some 0, none, none, none, none]).bind (fun w₁ =>
      (run (revokeStep "t_1" .deleteTenant fun _ => "h0") w₁
        [(some 0, 6, true), (some 1, 7, true)]).map
          fun w₂ => (w₁.2 none, w₁.2 (some 1), w₂.2 (some 1))) =
      some (.invalidated "h0", .start, .answered (some { id := "t_1", name := "Acme" })) := by
    decide +kernel
  obtain ⟨w₁, hw₁, hrest⟩ := Option.bind_eq_some_iff.mp hend
  obtain ⟨w₂, hw₂, hobs⟩ := Option.map_eq_some_iff.mp hrest
  rw [Prod.mk.injEq, Prod.mk.injEq] at hobs
  have hnone := hall "t_1" .deleteTenant (fun _ => "h0") _ _ _ w₁ w₂ 1 _ (by simp) hw₁ hw₂
    hobs.1 hobs.2.1 hobs.2.2
  exact absurd hnone (by simp)

end Dendri
