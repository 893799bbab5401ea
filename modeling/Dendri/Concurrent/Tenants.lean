import Dendri.Server.Tenant
import Dendri.Lib.Interleave

/-!
Admin calls on one tenant at the same time: `rotate_api_key`,
`rotate_jwt_secret` (load, modify, `update_tenant`) and `delete_tenant` each
read the index and the blob first and write later, in another round trip.

* `tenantStep`: one Redis command or pipeline of a call, with the order in
  which calls have written; `alone_rotateApiKey`, `alone_rotateJwtSecret`,
  `alone_deleteTenant`: without interruption these steps are the functions of
  `tenant.rs`;
* `TenantCall.effect`: what a call does to the one key and record of a tenant;
* `OneLiveKey`: at most one hash maps to the tenant, the index points to it,
  none is left after a delete, and an update is not lost;
* `Unraced`, `one_live_key`: so it is if every write finds the index and the
  blob as its call read them.
-/

namespace Dendri

open Transition

/-! ### The steps of a call -/

/-- The calls on one tenant, with the hash of the new key or the new secret. -/
inductive TenantCall where
  | rotateApiKey (newHash : String)
  | rotateJwtSecret (newSecret : String)
  | deleteTenant

/-- How far a call has come. -/
inductive TenantPhase where
  | start
  /-- The index was read. -/
  | indexed (hash : String)
  /-- The blob was read, too. -/
  | loaded (hash : String) (tenant : Tenant)
  /-- `update_tenant` has read the index, for the loaded tenant. -/
  | located (hash : String) (tenant : Tenant)
  /-- `delete_tenant` has read the email. -/
  | fetched (hash : String) (email : Option String)
  | returned (ok : Bool)
  deriving DecidableEq

section Steps

variable {ι : Type} (id : String) (call : ι → TenantCall)

/-- The next step of the call `j`: one Redis command or pipeline. Beside the
store stands the list of the calls that have written, in their order. -/
def tenantStep (j : ι) (s : TenantStore × List ι) (p : TenantPhase) :
    Option ((TenantStore × List ι) × TenantPhase) :=
  match p with
  | .start =>
      match s.1.byId.lookup id with
      | some hash => some (s, .indexed hash)
      | none => some (s, .returned false)
  | .indexed hash =>
      match call j, s.1.fetchByHash hash with
      | .deleteTenant, tenant => some (s, .fetched hash (tenant.bind Tenant.email))
      | _, some tenant => some (s, .loaded hash tenant)
      | _, none => some (s, .returned false)
  | .loaded hash tenant =>
      match call j with
      | .rotateApiKey newHash =>
          some ((s.1.moveKey id hash newHash tenant, s.2 ++ [j]), .returned true)
      | .rotateJwtSecret _ =>
          match s.1.byId.lookup tenant.id with
          | some hash => some (s, .located hash tenant)
          | none => some (s, .returned false)
      | .deleteTenant => none
  | .located hash tenant =>
      match call j with
      | .rotateJwtSecret newSecret =>
          some ((s.1.setBlob hash { tenant with jwtSecret := some newSecret }, s.2 ++ [j]),
            .returned true)
      | _ => none
  | .fetched hash email =>
      match call j with
      | .deleteTenant => some ((s.1.dropKey id hash email, s.2 ++ [j]), .returned true)
      | _ => none
  | .returned _ => none

/-- Any number of calls on one tenant; an event is the next step of a call. -/
def adminStep [DecidableEq ι] : (TenantStore × List ι) × (ι → TenantPhase) → ι →
    Option ((TenantStore × List ι) × (ι → TenantPhase)) :=
  Interleave.step (fun j => j) (tenantStep id call)

end Steps

/-! ### Calls that are not interrupted -/

section Alone

variable {ι : Type} {id : String} {call : ι → TenantCall} {j : ι} (s : TenantStore) (log : List ι)

lemma tenantStep_start_of_none (hid : s.byId.lookup id = none) :
    tenantStep id call j (s, log) .start = some ((s, log), .returned false) := by
  simp only [tenantStep, hid]

lemma tenantStep_start_of_some {hash : String} (hid : s.byId.lookup id = some hash) :
    tenantStep id call j (s, log) .start = some ((s, log), .indexed hash) := by
  simp only [tenantStep, hid]

/-- `rotate_api_key`. -/
theorem alone_rotateApiKey {newHash : String} (hcall : call j = .rotateApiKey newHash) :
    ∃ log', Interleave.Alone (tenantStep id call j) ((s, log), .start)
      (((s.rotateApiKey id newHash).1, log'), .returned (s.rotateApiKey id newHash).2) := by
  cases hid : s.byId.lookup id with
  | none =>
      have hrotate : s.rotateApiKey id newHash = (s, false) := by
        simp only [TenantStore.rotateApiKey, hid]
      rw [hrotate]
      exact ⟨log, .head (tenantStep_start_of_none s log hid) (.refl _)⟩
  | some hash =>
      have hstart : tenantStep id call j (s, log) .start = some ((s, log), .indexed hash) :=
        tenantStep_start_of_some s log hid
      cases hblob : s.fetchByHash hash with
      | none =>
          have hload : tenantStep id call j (s, log) (.indexed hash) =
              some ((s, log), .returned false) := by
            simp only [tenantStep, hcall, hblob]
          have hrotate : s.rotateApiKey id newHash = (s, false) := by
            simp only [TenantStore.rotateApiKey, hid, hblob]
          rw [hrotate]
          exact ⟨log, .head hstart (.head hload (.refl _))⟩
      | some tenant =>
          have hload : tenantStep id call j (s, log) (.indexed hash) =
              some ((s, log), .loaded hash tenant) := by
            simp only [tenantStep, hcall, hblob]
          have hmove : tenantStep id call j (s, log) (.loaded hash tenant) =
              some ((s.moveKey id hash newHash tenant, log ++ [j]), .returned true) := by
            simp only [tenantStep, hcall]
          have hrotate : s.rotateApiKey id newHash =
              (s.moveKey id hash newHash tenant, true) := by
            simp only [TenantStore.rotateApiKey, hid, hblob]
          rw [hrotate]
          exact ⟨log ++ [j], .head hstart (.head hload (.head hmove (.refl _)))⟩

/-- `rotate_jwt_secret`. -/
theorem alone_rotateJwtSecret {newSecret : String}
    (hcall : call j = .rotateJwtSecret newSecret) :
    ∃ log', Interleave.Alone (tenantStep id call j) ((s, log), .start)
      (((s.rotateJwtSecret id newSecret).1, log'),
        .returned (s.rotateJwtSecret id newSecret).2) := by
  cases hid : s.byId.lookup id with
  | none =>
      have hrotate : s.rotateJwtSecret id newSecret = (s, false) := by
        simp only [TenantStore.rotateJwtSecret, TenantStore.getTenantById, hid]
      rw [hrotate]
      exact ⟨log, .head (tenantStep_start_of_none s log hid) (.refl _)⟩
  | some hash =>
      have hstart : tenantStep id call j (s, log) .start = some ((s, log), .indexed hash) :=
        tenantStep_start_of_some s log hid
      cases hblob : s.fetchByHash hash with
      | none =>
          have hload : tenantStep id call j (s, log) (.indexed hash) =
              some ((s, log), .returned false) := by
            simp only [tenantStep, hcall, hblob]
          have hrotate : s.rotateJwtSecret id newSecret = (s, false) := by
            simp only [TenantStore.rotateJwtSecret, TenantStore.getTenantById, hid, hblob]
          rw [hrotate]
          exact ⟨log, .head hstart (.head hload (.refl _))⟩
      | some tenant =>
          have hload : tenantStep id call j (s, log) (.indexed hash) =
              some ((s, log), .loaded hash tenant) := by
            simp only [tenantStep, hcall, hblob]
          have hget : s.getTenantById id = some tenant := by
            simp only [TenantStore.getTenantById, hid, hblob]
          cases hid' : s.byId.lookup tenant.id with
          | none =>
              have hlocate : tenantStep id call j (s, log) (.loaded hash tenant) =
                  some ((s, log), .returned false) := by
                simp only [tenantStep, hcall, hid']
              have hrotate : s.rotateJwtSecret id newSecret = (s, false) := by
                simp only [TenantStore.rotateJwtSecret, hget, TenantStore.updateTenant, hid']
              rw [hrotate]
              exact ⟨log, .head hstart (.head hload (.head hlocate (.refl _)))⟩
          | some hash' =>
              have hlocate : tenantStep id call j (s, log) (.loaded hash tenant) =
                  some ((s, log), .located hash' tenant) := by
                simp only [tenantStep, hcall, hid']
              have hset : tenantStep id call j (s, log) (.located hash' tenant) =
                  some ((s.setBlob hash' { tenant with jwtSecret := some newSecret },
                    log ++ [j]), .returned true) := by
                simp only [tenantStep, hcall]
              have hrotate : s.rotateJwtSecret id newSecret =
                  (s.setBlob hash' { tenant with jwtSecret := some newSecret }, true) := by
                simp only [TenantStore.rotateJwtSecret, hget, TenantStore.updateTenant, hid']
              rw [hrotate]
              exact ⟨log ++ [j],
                .head hstart (.head hload (.head hlocate (.head hset (.refl _))))⟩

/-- `delete_tenant`. -/
theorem alone_deleteTenant (hcall : call j = .deleteTenant) :
    ∃ log', Interleave.Alone (tenantStep id call j) ((s, log), .start)
      (((s.deleteTenant id).1, log'), .returned (s.deleteTenant id).2) := by
  cases hid : s.byId.lookup id with
  | none =>
      have hdelete : s.deleteTenant id = (s, false) := by
        simp only [TenantStore.deleteTenant, hid]
      rw [hdelete]
      exact ⟨log, .head (tenantStep_start_of_none s log hid) (.refl _)⟩
  | some hash =>
      have hstart : tenantStep id call j (s, log) .start = some ((s, log), .indexed hash) :=
        tenantStep_start_of_some s log hid
      have hfetch : tenantStep id call j (s, log) (.indexed hash) =
          some ((s, log), .fetched hash ((s.fetchByHash hash).bind Tenant.email)) := by
        simp only [tenantStep, hcall]
      have hdrop : tenantStep id call j (s, log)
          (.fetched hash ((s.fetchByHash hash).bind Tenant.email)) =
          some ((s.dropKey id hash ((s.fetchByHash hash).bind Tenant.email), log ++ [j]),
            .returned true) := by
        simp only [tenantStep, hcall]
      have hdelete : s.deleteTenant id =
          (s.dropKey id hash ((s.fetchByHash hash).bind Tenant.email), true) := by
        simp only [TenantStore.deleteTenant, hid]
      rw [hdelete]
      exact ⟨log ++ [j], .head hstart (.head hfetch (.head hdrop (.refl _)))⟩

end Alone

/-! ### One record for a tenant -/

section OneKey

variable {ι : Type} (id : String) (call : ι → TenantCall)

/-- The hash maps to a blob of the tenant. -/
def TenantStore.Maps (s : TenantStore) (hash : String) : Prop :=
  ∃ tenant, s.fetchByHash hash = some tenant ∧ tenant.id = id

/-- The store has one record of the tenant, under the hash the index points
to, or none. -/
def TenantStore.Represents (s : TenantStore) : Option (String × Tenant) → Prop
  | none => s.byId.lookup id = none ∧ ∀ hash, ¬s.Maps id hash
  | some (hash, tenant) =>
      s.byId.lookup id = some hash ∧ s.fetchByHash hash = some tenant ∧ tenant.id = id ∧
        ∀ hash', s.Maps id hash' → hash' = hash

/-- What a call does to the record of the tenant and the hash it is under. -/
def TenantCall.effect : TenantCall → Option (String × Tenant) → Option (String × Tenant)
  | _, none => none
  | .rotateApiKey newHash, some (_, tenant) => some (newHash, tenant)
  | .rotateJwtSecret newSecret, some (hash, tenant) =>
      some (hash, { tenant with jwtSecret := some newSecret })
  | .deleteTenant, some _ => none

/-- The record after the calls of a list. -/
def effects (record : Option (String × Tenant)) (log : List ι) : Option (String × Tenant) :=
  log.foldl (fun r j => (call j).effect r) record

/-- The condition on a step: a write finds the index and the blob as its call
read them, and a new key is not the old one. -/
def Unraced (w : (TenantStore × List ι) × (ι → TenantPhase)) (j : ι) : Prop :=
  match call j, w.2 j with
  | .rotateApiKey newHash, .loaded hash tenant =>
      w.1.1.byId.lookup id = some hash ∧ w.1.1.fetchByHash hash = some tenant ∧ newHash ≠ hash
  | .rotateJwtSecret _, .located hash tenant =>
      w.1.1.byId.lookup id = some hash ∧ w.1.1.fetchByHash hash = some tenant
  | .deleteTenant, .fetched hash _ => w.1.1.byId.lookup id = some hash
  | _, _ => True

instance (w : (TenantStore × List ι) × (ι → TenantPhase)) (j : ι) :
    Decidable (Unraced id call w j) :=
  match hcall : call j, hp : w.2 j with
  | .rotateApiKey newHash, .loaded hash tenant =>
      decidable_of_iff (w.1.1.byId.lookup id = some hash ∧ w.1.1.fetchByHash hash = some tenant ∧
        newHash ≠ hash) (by rw [Unraced, hcall, hp])
  | .rotateJwtSecret _, .located hash tenant =>
      decidable_of_iff (w.1.1.byId.lookup id = some hash ∧ w.1.1.fetchByHash hash = some tenant)
        (by rw [Unraced, hcall, hp])
  | .deleteTenant, .fetched hash _ =>
      decidable_of_iff (w.1.1.byId.lookup id = some hash) (by rw [Unraced, hcall, hp])
  | .rotateApiKey _, .start | .rotateApiKey _, .indexed _ | .rotateApiKey _, .located _ _
  | .rotateApiKey _, .fetched _ _ | .rotateApiKey _, .returned _
  | .rotateJwtSecret _, .start | .rotateJwtSecret _, .indexed _ | .rotateJwtSecret _, .loaded _ _
  | .rotateJwtSecret _, .fetched _ _ | .rotateJwtSecret _, .returned _
  | .deleteTenant, .start | .deleteTenant, .indexed _ | .deleteTenant, .loaded _ _
  | .deleteTenant, .located _ _ | .deleteTenant, .returned _ =>
      isTrue (by rw [Unraced, hcall, hp]; trivial)

/-- What should hold of the keys of a tenant, whatever calls were made. An
update counts as lost if no later call deletes the tenant or updates it again
and yet its secret is not in the blob. -/
structure OneLiveKey (w : (TenantStore × List ι) × (ι → TenantPhase)) : Prop where
  unique : ∀ hash hash', w.1.1.Maps id hash → w.1.1.Maps id hash' → hash = hash'
  indexed : ∀ hash, w.1.1.Maps id hash → w.1.1.byId.lookup id = some hash
  deleted : ∀ j, call j = .deleteTenant → w.2 j = .returned true → ∀ hash, ¬w.1.1.Maps id hash
  updated : ∀ j secret, call j = .rotateJwtSecret secret → w.2 j = .returned true →
    ∃ earlier later, w.1.2 = earlier ++ j :: later ∧
      ((∀ k ∈ later, ∃ newHash, call k = .rotateApiKey newHash) →
        ∃ hash tenant, w.1.1.fetchByHash hash = some tenant ∧ tenant.id = id ∧
          tenant.jwtSecret = some secret)

variable {id call} {s : TenantStore}

lemma fetchByHash_setBlob (s : TenantStore) (hash hash' : String) (tenant : Tenant) :
    (s.setBlob hash tenant).fetchByHash hash' =
      if hash' = hash then some tenant else s.fetchByHash hash' := by
  simp only [TenantStore.fetchByHash, TenantStore.setBlob, FinMap.lookup_insert_ite]
  split_ifs <;> rfl

lemma fetchByHash_moveKey (s : TenantStore) (old new hash : String) (tenant : Tenant) :
    (s.moveKey id old new tenant).fetchByHash hash =
      if hash = old then none else if hash = new then some tenant else s.fetchByHash hash := by
  simp only [TenantStore.fetchByHash, TenantStore.moveKey, FinMap.lookup_erase_ite,
    FinMap.lookup_insert_ite]
  split_ifs <;> rfl

lemma fetchByHash_dropKey (s : TenantStore) (hash hash' : String) (email : Option String) :
    (s.dropKey id hash email).fetchByHash hash' =
      if hash' = hash then none else s.fetchByHash hash' := by
  simp only [TenantStore.fetchByHash, TenantStore.dropKey, FinMap.lookup_erase_ite]
  split_ifs <;> rfl

/-- The record the index points to is the one the store represents. -/
lemma TenantStore.Represents.eq_some {record : Option (String × Tenant)} {hash : String}
    (h : s.Represents id record) (hid : s.byId.lookup id = some hash) :
    ∃ tenant, record = some (hash, tenant) ∧ s.fetchByHash hash = some tenant ∧
      tenant.id = id ∧ ∀ hash', s.Maps id hash' → hash' = hash := by
  match record with
  | none => exact absurd (h.1.symm.trans hid) (by simp)
  | some (hash', tenant) =>
      obtain rfl : hash' = hash := Option.some.inj (h.1.symm.trans hid)
      exact ⟨tenant, rfl, h.2.1, h.2.2.1, h.2.2.2⟩

/-- The write of `rotate_api_key`. -/
lemma TenantStore.Represents.moveKey {record : Option (String × Tenant)} {hash new : String}
    {tenant : Tenant} (h : s.Represents id record) (hid : s.byId.lookup id = some hash)
    (hblob : s.fetchByHash hash = some tenant) (hne : new ≠ hash) :
    (s.moveKey id hash new tenant).Represents id ((TenantCall.rotateApiKey new).effect record) := by
  obtain ⟨tenant', rfl, hblob', htid, honly⟩ := h.eq_some hid
  obtain rfl : tenant' = tenant := Option.some.inj (hblob'.symm.trans hblob)
  refine ⟨Finmap.lookup_insert _, ?_, htid, ?_⟩
  · rw [fetchByHash_moveKey, if_neg hne, if_pos rfl]
  · rintro hash' ⟨other, hother, hoid⟩
    rw [fetchByHash_moveKey] at hother
    split_ifs at hother with hold hnew
    · exact hnew
    · exact absurd (honly hash' ⟨other, hother, hoid⟩) hold

/-- The write of `update_tenant`. -/
lemma TenantStore.Represents.setBlob {record : Option (String × Tenant)} {hash : String}
    {tenant : Tenant} (h : s.Represents id record) (hid : s.byId.lookup id = some hash)
    (hblob : s.fetchByHash hash = some tenant) (secret : String) :
    (s.setBlob hash { tenant with jwtSecret := some secret }).Represents id
      ((TenantCall.rotateJwtSecret secret).effect record) := by
  obtain ⟨tenant', rfl, hblob', htid, honly⟩ := h.eq_some hid
  obtain rfl : tenant' = tenant := Option.some.inj (hblob'.symm.trans hblob)
  refine ⟨hid, ?_, htid, ?_⟩
  · rw [fetchByHash_setBlob, if_pos rfl]
  · rintro hash' ⟨other, hother, hoid⟩
    rw [fetchByHash_setBlob] at hother
    split_ifs at hother with hsame
    · exact hsame
    · exact honly hash' ⟨other, hother, hoid⟩

/-- The write of `delete_tenant`. -/
lemma TenantStore.Represents.dropKey {record : Option (String × Tenant)} {hash : String}
    (h : s.Represents id record) (hid : s.byId.lookup id = some hash) (email : Option String) :
    (s.dropKey id hash email).Represents id (TenantCall.deleteTenant.effect record) := by
  obtain ⟨tenant, rfl, -, -, honly⟩ := h.eq_some hid
  refine ⟨Finmap.lookup_erase _ _, ?_⟩
  rintro hash' ⟨other, hother, hoid⟩
  rw [fetchByHash_dropKey] at hother
  split_ifs at hother with hsame
  exact hsame (honly hash' ⟨other, hother, hoid⟩)

/-- A step reads, or it is the write of its call. -/
lemma tenantStep_cases {j : ι} {s s' : TenantStore × List ι} {p p' : TenantPhase}
    (h : tenantStep id call j s p = some (s', p')) :
    (s' = s ∧ p' ≠ .returned true) ∨ (s'.2 = s.2 ++ [j] ∧ p' = .returned true ∧
      ((∃ new hash tenant, call j = .rotateApiKey new ∧ p = .loaded hash tenant ∧
          s'.1 = s.1.moveKey id hash new tenant) ∨
        (∃ secret hash tenant, call j = .rotateJwtSecret secret ∧ p = .located hash tenant ∧
          s'.1 = s.1.setBlob hash { tenant with jwtSecret := some secret }) ∨
        ∃ hash email, call j = .deleteTenant ∧ p = .fetched hash email ∧
          s'.1 = s.1.dropKey id hash email)) := by
  have hread : ∀ {q}, some (s, q) = some (s', p') → q ≠ .returned true →
      s' = s ∧ p' ≠ .returned true := by
    intro q heq hq
    rw [Option.some.injEq, Prod.mk.injEq] at heq
    rw [← heq.1, ← heq.2]
    exact ⟨rfl, hq⟩
  cases p with
  | start =>
      simp only [tenantStep] at h
      split at h
      · exact .inl (hread h (by simp))
      · exact .inl (hread h (by simp))
  | indexed hash =>
      simp only [tenantStep] at h
      split at h
      · exact .inl (hread h (by simp))
      · exact .inl (hread h (by simp))
      · exact .inl (hread h (by simp))
  | loaded hash tenant =>
      cases hcall : call j with
      | rotateApiKey new =>
          simp only [tenantStep, hcall, Option.some.injEq, Prod.mk.injEq] at h
          obtain ⟨rfl, rfl⟩ := h
          exact .inr ⟨rfl, rfl, .inl ⟨new, hash, tenant, rfl, rfl, rfl⟩⟩
      | rotateJwtSecret secret =>
          simp only [tenantStep, hcall] at h
          split at h
          · exact .inl (hread h (by simp))
          · exact .inl (hread h (by simp))
      | deleteTenant => simp [tenantStep, hcall] at h
  | located hash tenant =>
      cases hcall : call j with
      | rotateJwtSecret secret =>
          simp only [tenantStep, hcall, Option.some.injEq, Prod.mk.injEq] at h
          obtain ⟨rfl, rfl⟩ := h
          exact .inr ⟨rfl, rfl, .inr (.inl ⟨secret, hash, tenant, rfl, rfl, rfl⟩)⟩
      | rotateApiKey new => simp [tenantStep, hcall] at h
      | deleteTenant => simp [tenantStep, hcall] at h
  | fetched hash email =>
      cases hcall : call j with
      | deleteTenant =>
          simp only [tenantStep, hcall, Option.some.injEq, Prod.mk.injEq] at h
          obtain ⟨rfl, rfl⟩ := h
          exact .inr ⟨rfl, rfl, .inr (.inr ⟨hash, email, rfl, rfl, rfl⟩)⟩
      | rotateApiKey new => simp [tenantStep, hcall] at h
      | rotateJwtSecret secret => simp [tenantStep, hcall] at h
  | returned ok => simp [tenantStep] at h

variable (id call)

/-- The writes so far act on the record of the tenant one after the other,
each while there is a record. -/
structure Serial (record : Option (String × Tenant))
    (w : (TenantStore × List ι) × (ι → TenantPhase)) : Prop where
  represents : w.1.1.Represents id (effects call record w.1.2)
  logged : ∀ j, w.2 j = .returned true → j ∈ w.1.2
  live : ∀ earlier j later, w.1.2 = earlier ++ j :: later → effects call record earlier ≠ none

variable {id call} {record : Option (String × Tenant)}
  {w w' : (TenantStore × List ι) × (ι → TenantPhase)}

lemma effects_concat (log : List ι) (j : ι) :
    effects call record (log ++ [j]) = (call j).effect (effects call record log) := by
  rw [effects, List.foldl_append, List.foldl_cons, List.foldl_nil, effects]

lemma effects_append_cons (earlier later : List ι) (j : ι) :
    effects call record (earlier ++ j :: later) =
      effects call ((call j).effect (effects call record earlier)) later := by
  rw [effects, List.foldl_append, List.foldl_cons, effects, effects]

/-- One write on the record of the tenant. -/
lemma Serial.write [DecidableEq ι] (h : Serial id call record w) {j : ι} {s' : TenantStore}
    (hlive : ∃ hash, w.1.1.byId.lookup id = some hash)
    (hrep : s'.Represents id ((call j).effect (effects call record w.1.2))) :
    Serial id call record
      ((s', w.1.2 ++ [j]), Function.update w.2 j (.returned true)) where
  represents := by
    rw [effects_concat]
    exact hrep
  logged := by
    refine Interleave.forall_update
      (P := fun i p => p = TenantPhase.returned true → i ∈ w.1.2 ++ [j]) ?_ ?_
    · exact fun _ => List.mem_append_right _ (List.mem_singleton_self _)
    · exact fun i _ hi => List.mem_append_left _ (h.logged i hi)
  live := by
    intro earlier i later heq
    rcases later.eq_nil_or_concat with rfl | ⟨later', k, rfl⟩
    · obtain ⟨rfl, -⟩ := List.append_inj' heq rfl
      obtain ⟨hash, hid⟩ := hlive
      obtain ⟨tenant, hsome, -⟩ := h.represents.eq_some hid
      rw [hsome]
      simp
    · rw [List.concat_eq_append, ← List.cons_append, ← List.append_assoc] at heq
      obtain ⟨hlog, -⟩ := List.append_inj' heq rfl
      exact h.live earlier i later' hlog

/-- One step whose write is not raced. -/
lemma Serial.step [DecidableEq ι] (h : Serial id call record w) {j : ι}
    (hun : Unraced id call w j) (hstep : adminStep id call w j = some w') :
    Serial id call record w' := by
  obtain ⟨s', p', hact, rfl⟩ := Interleave.step_eq_some hstep
  obtain ⟨store', log'⟩ := s'
  rcases tenantStep_cases hact with ⟨hsame, hp'⟩ | ⟨hlog, hp', hwrite⟩
  · rw [hsame]
    refine ⟨h.represents, ?_, h.live⟩
    exact Interleave.forall_update (P := fun i p => p = TenantPhase.returned true → i ∈ w.1.2)
      (fun heq => absurd heq hp') fun i _ => h.logged i
  · dsimp only at hlog hwrite
    rw [hlog, hp']
    rw [Unraced] at hun
    rcases hwrite with ⟨new, hash, tenant, hcall, hp, rfl⟩ |
      ⟨secret, hash, tenant, hcall, hp, rfl⟩ | ⟨hash, email, hcall, hp, rfl⟩
    · rw [hcall, hp] at hun
      refine h.write ⟨hash, hun.1⟩ ?_
      rw [hcall]
      exact h.represents.moveKey hun.1 hun.2.1 hun.2.2
    · rw [hcall, hp] at hun
      refine h.write ⟨hash, hun.1⟩ ?_
      rw [hcall]
      exact h.represents.setBlob hun.1 hun.2 secret
    · rw [hcall, hp] at hun
      refine h.write ⟨hash, hun⟩ ?_
      rw [hcall]
      exact h.represents.dropKey hun email

lemma effects_none (log : List ι) : effects call none log = none := by
  induction log with
  | nil => rfl
  | cons j log ih =>
      have hnone : (call j).effect none = none := by cases call j <;> rfl
      rw [effects, List.foldl_cons, hnone]
      exact ih

/-- New keys leave the record as it is. -/
lemma effects_rotations {log : List ι} (hlog : ∀ k ∈ log, ∃ new, call k = .rotateApiKey new) :
    ∀ hash tenant, ∃ hash', effects call (some (hash, tenant)) log = some (hash', tenant) := by
  induction log with
  | nil => exact fun hash tenant => ⟨hash, rfl⟩
  | cons k log ih =>
      intro hash tenant
      obtain ⟨new, hnew⟩ := hlog k (by simp)
      rw [effects, List.foldl_cons, hnew]
      exact ih (fun k' hk' => hlog k' (by simp [hk'])) new tenant

/-- Only the hash that the index points to has a blob of the tenant. -/
lemma TenantStore.Represents.indexed {s : TenantStore} {r : Option (String × Tenant)}
    {hash : String} (h : s.Represents id r) (hmaps : s.Maps id hash) :
    s.byId.lookup id = some hash := by
  match r, h with
  | none, h => exact absurd hmaps (h.2 hash)
  | some (hash₀, tenant), h =>
      rw [h.2.2.2 hash hmaps]
      exact h.1

/-- What the serial order of the writes says about the keys of the tenant. -/
lemma Serial.oneLiveKey (h : Serial id call record w) : OneLiveKey id call w where
  unique hash hash' hmaps hmaps' := by
    have hindex := h.represents.indexed hmaps
    exact Option.some.inj (hindex.symm.trans (h.represents.indexed hmaps'))
  indexed hash hmaps := h.represents.indexed hmaps
  deleted j hcall hret := by
    obtain ⟨earlier, later, hlog⟩ := List.append_of_mem (h.logged j hret)
    have hdrop : (call j).effect (effects call record earlier) = none := by
      rw [hcall]
      cases effects call record earlier <;> rfl
    have hnone : effects call record w.1.2 = none := by
      rw [hlog, effects_append_cons, hdrop]
      exact effects_none later
    have hrep := h.represents
    rw [hnone] at hrep
    exact hrep.2
  updated j secret hcall hret := by
    obtain ⟨earlier, later, hlog⟩ := List.append_of_mem (h.logged j hret)
    refine ⟨earlier, later, hlog, fun hlater => ?_⟩
    obtain ⟨⟨hash, tenant⟩, hsome⟩ := Option.ne_none_iff_exists'.mp (h.live earlier j later hlog)
    have hset : (call j).effect (effects call record earlier) =
        some (hash, { tenant with jwtSecret := some secret }) := by
      rw [hsome, hcall, TenantCall.effect]
    obtain ⟨hash', hlast⟩ := effects_rotations hlater hash { tenant with jwtSecret := some secret }
    have hall : effects call record w.1.2 =
        some (hash', { tenant with jwtSecret := some secret }) := by
      rw [hlog, effects_append_cons, hset]
      exact hlast
    have hrep := h.represents
    rw [hall] at hrep
    exact ⟨hash', _, hrep.2.1, hrep.2.2.1, rfl⟩

/-- Any number of calls on one tenant, in any order: if every write finds the
index and the blob as its call read them, the tenant has at most one live key
at every moment, none after a delete, and no update is lost. -/
theorem one_live_key [DecidableEq ι] {s : TenantStore} (hrep : s.Represents id record)
    {js : List ι}
    (hun : AllSteps (adminStep id call) (fun w j _ => Unraced id call w j)
      ((s, []), fun _ => .start) js)
    (hrun : run (adminStep id call) ((s, []), fun _ => .start) js = some w) :
    OneLiveKey id call w := by
  have hserial : Serial id call record w := by
    refine run_invariant ?_ ⟨hrep, by simp, by simp⟩ hun hrun
    intro w j w' hw hstep hunraced
    exact hw.step hunraced hstep
  exact hserial.oneLiveKey

/-- A new tenant has one key. -/
lemma TenantStore.Represents.createTenant {s : TenantStore} {tenant : Tenant}
    (h : s.Represents tenant.id none) (hash : String) :
    (s.createTenant tenant hash).Represents tenant.id (some (hash, tenant)) := by
  have hfetch : ∀ hash', (s.createTenant tenant hash).fetchByHash hash' =
      if hash' = hash then some tenant else s.fetchByHash hash' :=
    fun hash' => fetchByHash_setBlob s hash hash' tenant
  refine ⟨Finmap.lookup_insert _, by rw [hfetch, if_pos rfl], rfl, ?_⟩
  rintro hash' ⟨other, hother, hoid⟩
  rw [hfetch] at hother
  split_ifs at hother with hsame
  · exact hsame
  · exact absurd ⟨other, hother, hoid⟩ (h.2 hash')

end OneKey

/-! ### Fixed calls -/

/-- A store with one tenant, under the hash `h0`. -/
def acmeStore : TenantStore :=
  TenantStore.createTenant ⟨∅, ∅, ∅⟩ { id := "t_1", name := "Acme" } "h0"

lemma represents_acmeStore :
    acmeStore.Represents "t_1" (some ("h0", { id := "t_1", name := "Acme" })) := by
  refine TenantStore.Represents.createTenant ⟨rfl, ?_⟩ "h0"
  rintro hash ⟨tenant, htenant, -⟩
  simp [TenantStore.fetchByHash] at htenant

/-- Two new keys and a new secret for the tenant. -/
def acmeCalls : Fin 3 → TenantCall
  | 0 => .rotateApiKey "h1"
  | 1 => .rotateApiKey "h2"
  | 2 => .rotateJwtSecret "s1"

/-- A schedule of these calls. -/
def acmeRun (schedule : List (Fin 3)) :
    Option ((TenantStore × List (Fin 3)) × (Fin 3 → TenantPhase)) :=
  run (adminStep "t_1" acmeCalls) ((acmeStore, []), fun _ => .start) schedule

/-- A new key between the load and the write of a new secret does no harm. -/
theorem one_live_key_acme : ∃ w, acmeRun [2, 2, 0, 0, 0, 2, 2] = some w ∧
    OneLiveKey "t_1" acmeCalls w := by
  have hsome : (acmeRun [2, 2, 0, 0, 0, 2, 2]).isSome = true := by decide +kernel
  obtain ⟨w, hw⟩ := Option.isSome_iff_exists.mp hsome
  exact ⟨w, hw, one_live_key represents_acmeStore (by decide +kernel) hw⟩

/-- Two rotations that both read before either writes leave two live keys. -/
theorem two_live_keys :
    ¬∀ (id : String) (call : Fin 3 → TenantCall) (s : TenantStore)
        (record : Option (String × Tenant)) (js : List (Fin 3))
        (w : (TenantStore × List (Fin 3)) × (Fin 3 → TenantPhase)),
      s.Represents id record →
      run (adminStep id call) ((s, []), fun _ => .start) js = some w →
      (∀ j, w.2 j = .start ∨ ∃ ok, w.2 j = .returned ok) → OneLiveKey id call w := by
  intro hall
  have hend : (acmeRun [0, 0, 1, 1, 0, 1]).map
      (fun w => (w.2, (w.1.1.fetchByHash "h1").map Tenant.id,
        (w.1.1.fetchByHash "h2").map Tenant.id)) =
      some (![.returned true, .returned true, .start], some "t_1", some "t_1") := by
    decide +kernel
  obtain ⟨w, hw, hobs⟩ := Option.map_eq_some_iff.mp hend
  rw [Prod.mk.injEq, Prod.mk.injEq] at hobs
  obtain ⟨hphases, hfirst, hsecond⟩ := hobs
  have hended : ∀ j, w.2 j = .start ∨ ∃ ok, w.2 j = .returned ok := by
    rw [hphases]
    intro j
    fin_cases j <;> simp
  have honly := (hall _ _ _ _ _ w represents_acmeStore hw hended).unique "h1" "h2"
    (Option.map_eq_some_iff.mp hfirst) (Option.map_eq_some_iff.mp hsecond)
  exact absurd honly (by decide)

end Dendri
