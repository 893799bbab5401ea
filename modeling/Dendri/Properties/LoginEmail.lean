import Dendri.Properties.TenantRecords

/-!
The email index of the tenant store, which the dashboard login reads. Several
tenants can have one address: a creation points the index to the new tenant, and
a deletion removes the entry of the address, whomever it points to.

* `emailOf`: the normalised address of a tenant of the map;
* `EmailIndexed`: the index leads to tenants with the address only, and to one of
  them if there is one;
* `DeletesLast`: the condition on a call: a deleted tenant is the only one with
  its address;
* `email_indexed_iff`: all states of a sequence of calls are so just when all
  deletions meet it;
* `shared_email_lost`: without it they are not.
-/

namespace Dendri

open Transition

/-! ### Addresses -/

/-- The normalised address of the tenant with the id, if there is one. -/
def TenantRecords.emailOf (m : TenantRecords) (id : String) : Option String :=
  ((m.lookup id).bind fun r => r.1.email).map emailKey

/-- The index leads to a tenant with the address only, and to some tenant whenever
there is one. Addresses are compared trimmed and in lower case. -/
structure EmailIndexed (s : TenantStore) (m : TenantRecords) : Prop where
  sound : ∀ email id, s.getTenantIdByEmail email = some id →
    TenantRecords.emailOf m id = some (emailKey email)
  complete : ∀ email, (∃ id, TenantRecords.emailOf m id = some (emailKey email)) →
    (s.getTenantIdByEmail email).isSome = true

/-- An updated record has the address of the stored one. -/
def KeepsEmail (m : TenantRecords) : TenantOp → Prop
  | .update tenant => ∀ r ∈ m.lookup tenant.id, tenant.email = r.1.email
  | _ => True

instance (m : TenantRecords) : (op : TenantOp) → Decidable (KeepsEmail m op)
  | .update tenant =>
      inferInstanceAs (Decidable (∀ r ∈ m.lookup tenant.id, tenant.email = r.1.email))
  | .create _ _ | .rotate _ _ | .delete _ => isTrue trivial

/-- No other tenant has the address of a tenant that is deleted. -/
def DeletesLast (m : TenantRecords) : TenantOp → Prop
  | .delete id => ∀ id' ∈ m.keys, id' ≠ id → TenantRecords.emailOf m id ≠ none →
      TenantRecords.emailOf m id' ≠ TenantRecords.emailOf m id
  | _ => True

instance (m : TenantRecords) : (op : TenantOp) → Decidable (DeletesLast m op)
  | .delete id =>
      inferInstanceAs (Decidable (∀ id' ∈ m.keys, id' ≠ id → TenantRecords.emailOf m id ≠ none →
        TenantRecords.emailOf m id' ≠ TenantRecords.emailOf m id))
  | .create _ _ | .rotate _ _ | .update _ => isTrue trivial

namespace TenantRecords

variable (m : TenantRecords)

lemma emailOf_insert (id : String) (r : Tenant × String) (id' : String) :
    emailOf (m.insert id r) id' =
      if id' = id then r.1.email.map emailKey else emailOf m id' := by
  rw [emailOf, FinMap.lookup_insert_ite]
  split_ifs <;> rfl

lemma emailOf_erase (id id' : String) :
    emailOf (m.erase id) id' = if id' = id then none else emailOf m id' := by
  rw [emailOf, FinMap.lookup_erase_ite]
  split_ifs <;> rfl

lemma emailOf_of_lookup {m : TenantRecords} {id : String} {r : Tenant × String}
    (h : m.lookup id = some r) : emailOf m id = r.1.email.map emailKey := by
  rw [emailOf, h]
  rfl

lemma mem_keys_of_emailOf {m : TenantRecords} {id key : String} (h : emailOf m id = some key) :
    id ∈ m.keys := by
  obtain ⟨address, haddress, -⟩ := Option.map_eq_some_iff.mp h
  obtain ⟨r, hr, -⟩ := Option.bind_eq_some_iff.mp haddress
  exact Finmap.mem_keys.mpr (Finmap.mem_of_lookup_eq_some hr)

/-- Writing a record with the address of the stored one. -/
lemma emailOf_insert_same {id : String} {r r' : Tenant × String} (h : m.lookup id = some r)
    (hemail : r'.1.email = r.1.email) : emailOf (m.insert id r') = emailOf m := by
  funext id'
  rw [emailOf_insert]
  split_ifs with heq
  · rw [heq, emailOf_of_lookup h, hemail]
  · rfl

end TenantRecords

/-! ### One call -/

open TenantRecords

variable {s : TenantStore} {m : TenantRecords}

/-- Neither the index nor the addresses change. -/
lemma EmailIndexed.of_same (h : EmailIndexed s m) {s' : TenantStore} {m' : TenantRecords}
    (hs : s'.byEmail = s.byEmail) (hm : emailOf m' = emailOf m) : EmailIndexed s' m' where
  sound email id hid := by
    rw [hm]
    rw [TenantStore.getTenantIdByEmail, hs] at hid
    exact h.sound email id hid
  complete email hex := by
    rw [hm] at hex
    rw [TenantStore.getTenantIdByEmail, hs]
    exact h.complete email hex

/-- A new tenant takes the entry of its address. -/
lemma EmailIndexed.create (h : EmailIndexed s m) {tenant : Tenant} (hid : tenant.id ∉ m)
    (hash k : String) :
    EmailIndexed (s.createTenant tenant hash) (m.insert tenant.id (tenant, k)) := by
  have hnew : emailOf m tenant.id = none := by
    rw [emailOf, Finmap.lookup_eq_none.mpr hid]
    rfl
  cases hemail : tenant.email with
  | none =>
      refine h.of_same (by simp only [TenantStore.createTenant, hemail]) ?_
      funext id
      rw [emailOf_insert, hemail]
      split_ifs with heq
      · rw [heq, hnew]
        rfl
      · rfl
  | some address =>
      have hindex : ∀ email, (s.createTenant tenant hash).getTenantIdByEmail email =
          if emailKey email = emailKey address then some tenant.id
          else s.getTenantIdByEmail email := by
        intro email
        simp only [TenantStore.getTenantIdByEmail, TenantStore.createTenant, hemail]
        rw [FinMap.lookup_insert_ite]
      constructor
      · intro email id hid
        rw [hindex] at hid
        rw [emailOf_insert, hemail]
        split_ifs at hid with hkey
        · rw [if_pos (Option.some.inj hid).symm, hkey]
          rfl
        · have hold := h.sound email id hid
          have hne : id ≠ tenant.id := by
            rintro rfl
            exact absurd (hnew.symm.trans hold) (by simp)
          rw [if_neg hne]
          exact hold
      · rintro email ⟨id, hid⟩
        rw [hindex]
        split_ifs with hkey
        · rfl
        · rw [emailOf_insert, hemail] at hid
          split_ifs at hid
          · exact absurd (Option.some.inj hid).symm hkey
          · exact h.complete email ⟨id, hid⟩

/-- After a deletion the index is right just when no other tenant had the
address. -/
lemma EmailIndexed.delete_iff (h : EmailIndexed s m) {id : String} {r : Tenant × String}
    (hid : m.lookup id = some r) (hash : String) :
    EmailIndexed (s.dropKey id hash r.1.email) (m.erase id) ↔ DeletesLast m (.delete id) := by
  have haddress := emailOf_of_lookup hid
  cases hemail : r.1.email with
  | none =>
      rw [hemail] at haddress
      refine iff_of_true (h.of_same rfl ?_) fun id' _ _ hne => absurd haddress hne
      funext id'
      rw [emailOf_erase]
      split_ifs with heq
      · rw [heq, haddress]
        rfl
      · rfl
  | some address =>
      rw [hemail] at haddress
      have hindex : ∀ email, (s.dropKey id hash (some address)).getTenantIdByEmail email =
          if emailKey email = emailKey address then none else s.getTenantIdByEmail email :=
        fun email => FinMap.lookup_erase_ite _ _ _
      constructor
      · intro h' id' _ hne _ heq
        rw [haddress] at heq
        have hsome := h'.complete address ⟨id', by rw [emailOf_erase, if_neg hne, heq]; rfl⟩
        rw [hindex, if_pos rfl] at hsome
        exact absurd hsome (by simp)
      · intro hlast
        constructor
        · intro email id' hid'
          rw [hindex] at hid'
          split_ifs at hid' with hkey
          have hold := h.sound email id' hid'
          have hne : id' ≠ id := by
            rintro rfl
            exact hkey (Option.some.inj (hold.symm.trans haddress))
          rw [emailOf_erase, if_neg hne]
          exact hold
        · rintro email ⟨id', hid'⟩
          rw [emailOf_erase] at hid'
          split_ifs at hid' with hne
          rw [hindex]
          split_ifs with hkey
          · have hsame : emailOf m id' = emailOf m id := by rw [hid', haddress, hkey]; rfl
            exact absurd hsame
              (hlast id' (mem_keys_of_emailOf hid') hne (by rw [haddress]; simp))
          · exact h.complete email ⟨id', hid'⟩

/-! ### Runs -/

/-- A call leaves the index right just when a deleted tenant was the only one with
its address. -/
lemma EmailIndexed.step_iff {hashApiKey : String → String} {keys : Set String}
    (hrep : Represented hashApiKey keys s m) (h : EmailIndexed s m) {op : TenantOp}
    (hfresh : op.Fresh m) (hkeeps : KeepsEmail m op) :
    EmailIndexed (op.onStore hashApiKey s).1 (op.onRecords m).1 ↔ DeletesLast m op := by
  cases op with
  | create tenant k => exact iff_of_true (h.create hfresh.1 _ k) trivial
  | rotate id k =>
      refine iff_of_true ?_ trivial
      simp only [TenantOp.onStore, TenantOp.onRecords, TenantStore.rotateApiKey, hrep.lookup_id]
      cases hid : m.lookup id with
      | none => exact h
      | some r =>
          simp only [Option.map_some, hrep.fetchByHash (k := r.2) hid]
          exact h.of_same rfl (emailOf_insert_same m hid rfl)
  | update tenant =>
      refine iff_of_true ?_ trivial
      simp only [TenantOp.onStore, TenantOp.onRecords, TenantStore.updateTenant, hrep.lookup_id]
      cases hid : m.lookup tenant.id with
      | none => exact h
      | some r => exact h.of_same rfl (emailOf_insert_same m hid (hkeeps r hid))
  | delete id =>
      simp only [TenantOp.onStore, TenantOp.onRecords, TenantStore.deleteTenant, hrep.lookup_id]
      cases hid : m.lookup id with
      | none =>
          refine iff_of_true h fun id' _ _ hne => absurd ?_ hne
          rw [emailOf, hid]
          rfl
      | some r =>
          have hfetch : (s.fetchByHash (hashApiKey r.2)).bind Tenant.email = r.1.email := by
            rw [hrep.fetchByHash (k := r.2) hid]
            rfl
          simp only [Option.map_some, hfetch]
          exact h.delete_iff hid _

lemma emailIndexed_empty : EmailIndexed TenantStore.empty ∅ where
  sound email id hid := absurd hid (by simp [TenantStore.getTenantIdByEmail, TenantStore.empty])
  complete email hex := by
    obtain ⟨id, hid⟩ := hex
    exact absurd hid (by simp [emailOf])

/-- After every call of a sequence from an empty store the index is right, just
when every deleted tenant is the only one with its address. -/
theorem email_indexed_iff {hashApiKey : String → String} {keys : Set String}
    (hfree : Set.InjOn hashApiKey keys) {ops : List TenantOp}
    (hops : AllSteps (accountStep hashApiKey)
      (fun x op _ => (op.Fresh x.2 ∧ ∀ k ∈ op.key?, k ∈ keys) ∧ KeepsEmail x.2 op)
      (TenantStore.empty, ∅) ops) :
    AllSteps (accountStep hashApiKey) (fun _ _ x' => EmailIndexed x'.1 x'.2)
        (TenantStore.empty, ∅) ops ↔
      AllSteps (accountStep hashApiKey) (fun x op _ => DeletesLast x.2 op)
        (TenantStore.empty, ∅) ops := by
  refine AllSteps.iff_of_invariant_of
    (I := fun x : TenantStore × TenantRecords => Represented hashApiKey keys x.1 x.2 ∧
      EmailIndexed x.1 x.2)
    (G := fun x : TenantStore × TenantRecords => EmailIndexed x.1 x.2)
    (fun x op x' h hstep hop => ?_) (fun x op x' h hstep hop hindexed => ?_)
    ⟨represented_empty, emailIndexed_empty⟩ hops
  · rw [← Option.some.inj hstep]
    exact h.2.step_iff h.1 hop.1.1 hop.2
  · refine ⟨?_, hindexed⟩
    rw [← Option.some.inj hstep]
    exact (h.1.step hfree hop.1.1 hop.1.2).1

/-- Two tenants are created, and the first is deleted. -/
def deleteFirst (email email' : String) : List TenantOp :=
  [.create { id := "t_1", name := "Acme", email := some email } "dk_1",
    .create { id := "t_2", name := "Beta", email := some email' } "dk_2", .delete "t_1"]

/-- With different addresses the index stays right. -/
theorem email_indexed_beta :
    AllSteps (accountStep sampleHash) (fun _ _ x' => EmailIndexed x'.1 x'.2)
      (TenantStore.empty, ∅) (deleteFirst "ops@acme.dev" "ops@beta.dev") := by
  have hcheck : AllSteps (accountStep sampleHash) (fun x op _ => (op.Fresh x.2 ∧
      ∀ k ∈ op.key?, k = "dk_1" ∨ k = "dk_2") ∧ KeepsEmail x.2 op) (TenantStore.empty, ∅)
      (deleteFirst "ops@acme.dev" "ops@beta.dev") := by decide +kernel
  exact (email_indexed_iff sampleHash_injOn hcheck).mpr (by decide +kernel)

/-- With one address for both, the second tenant cannot log in any more. -/
theorem shared_email_lost :
    ¬∀ (hashApiKey : String → String) (keys : Set String) (ops : List TenantOp),
      Set.InjOn hashApiKey keys →
      AllSteps (accountStep hashApiKey)
        (fun x op _ => (op.Fresh x.2 ∧ ∀ k ∈ op.key?, k ∈ keys) ∧ KeepsEmail x.2 op)
        (TenantStore.empty, ∅) ops →
      AllSteps (accountStep hashApiKey) (fun _ _ x' => EmailIndexed x'.1 x'.2)
        (TenantStore.empty, ∅) ops := by
  intro hall
  have hcheck : AllSteps (accountStep sampleHash) (fun x op _ => (op.Fresh x.2 ∧
      ∀ k ∈ op.key?, k = "dk_1" ∨ k = "dk_2") ∧ KeepsEmail x.2 op) (TenantStore.empty, ∅)
      (deleteFirst "ops@acme.dev" " Ops@Acme.dev") := by decide +kernel
  have hindexed := hall sampleHash sampleKeys _ sampleHash_injOn hcheck
  have heval : (run (accountStep sampleHash) (TenantStore.empty, ∅)
      (deleteFirst "ops@acme.dev" " Ops@Acme.dev")).map (fun x =>
        decide (TenantRecords.emailOf x.2 "t_2" = some (emailKey "ops@acme.dev") ∧
          x.1.getTenantIdByEmail "ops@acme.dev" = none)) = some true := by decide +kernel
  obtain ⟨x, hx, hobs⟩ := Option.map_eq_some_iff.mp heval
  obtain ⟨hemail, hnone⟩ := of_decide_eq_true hobs
  have hlast : EmailIndexed x.1 x.2 := hindexed.of_run
    (G := fun x : TenantStore × TenantRecords => EmailIndexed x.1 x.2) emailIndexed_empty hx
  have hsome := hlast.complete "ops@acme.dev" ⟨"t_2", hemail⟩
  rw [hnone] at hsome
  exact absurd hsome (by simp)

end Dendri
