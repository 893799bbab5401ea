import Dendri.Lib.Catalog
import Dendri.Lib.Transition
import Dendri.Server.Tenant

/-!
What the tenant store is for: a map from tenant ids to records with the API key
that was issued last. The store keeps it under the hashes of the keys and the
ids, and each function of `tenant.rs` rewrites both families.

* `TenantOp`: the calls that change the store, one after the other;
  `TenantOp.onStore`: what the code does, with the hash of a key as a
  parameter; `TenantOp.onRecords`: what it means on the map;
* `accountStep`: both side by side;
* `Fresh`: the id and the key that a call brings are not in use;
* `Represented`: the store stands for the map, by the rules of `Catalogs`;
* `tenant_store_refines`: after every sequence of such calls the lookups by key,
  by id and the list of all tenants answer what the map says, and so did the
  calls.
-/

namespace Dendri

open Catalog Function Transition

/-! ### The calls and their meaning -/

/-- A call that changes the store. The key of a creation or a rotation is the
plaintext; a record to be updated is one that was loaded and modified. -/
inductive TenantOp where
  | create (tenant : Tenant) (apiKey : String)
  | rotate (id newKey : String)
  | update (tenant : Tenant)
  | delete (id : String)

/-- Each tenant's latest record, and the key that was issued for it last. -/
abbrev TenantRecords := DashMap (Tenant × String)

/-- An empty store. -/
def TenantStore.empty : TenantStore := ⟨∅, ∅, ∅⟩

namespace TenantOp

/-- The key that a call issues. -/
def key? : TenantOp → Option String
  | create _ apiKey => some apiKey
  | rotate _ newKey => some newKey
  | update _ | delete _ => none

/-- The call on the store, and whether it found its tenant. -/
def onStore (hashApiKey : String → String) (s : TenantStore) : TenantOp → TenantStore × Bool
  | create tenant apiKey => (s.createTenant tenant (hashApiKey apiKey), true)
  | rotate id newKey => s.rotateApiKey id (hashApiKey newKey)
  | update tenant => s.updateTenant tenant
  | delete id => s.deleteTenant id

/-- The call on the map. -/
def onRecords (m : TenantRecords) : TenantOp → TenantRecords × Bool
  | create tenant apiKey => (m.insert tenant.id (tenant, apiKey), true)
  | rotate id newKey =>
      match m.lookup id with
      | some (tenant, _) => (m.insert id (tenant, newKey), true)
      | none => (m, false)
  | update tenant =>
      match m.lookup tenant.id with
      | some (_, apiKey) => (m.insert tenant.id (tenant, apiKey), true)
      | none => (m, false)
  | delete id =>
      match m.lookup id with
      | some _ => (m.erase id, true)
      | none => (m, false)

/-- No tenant of the map has the key. -/
def Unused (m : TenantRecords) (key : String) : Prop :=
  ∀ id ∈ m.keys, (m.lookup id).map Prod.snd ≠ some key

instance (m : TenantRecords) (key : String) : Decidable (Unused m key) :=
  inferInstanceAs (Decidable (∀ id ∈ m.keys, (m.lookup id).map Prod.snd ≠ some key))

/-- A new tenant has a new id, and new keys are not in use. Both are random
UUIDs in the source. -/
def Fresh (m : TenantRecords) : TenantOp → Prop
  | create tenant apiKey => tenant.id ∉ m ∧ Unused m apiKey
  | rotate _ newKey => Unused m newKey
  | update _ | delete _ => True

instance (m : TenantRecords) : (op : TenantOp) → Decidable (Fresh m op)
  | create tenant apiKey => inferInstanceAs (Decidable (tenant.id ∉ m ∧ Unused m apiKey))
  | rotate _ newKey => inferInstanceAs (Decidable (Unused m newKey))
  | update _ | delete _ => isTrue trivial

end TenantOp

section Runs

variable (hashApiKey : String → String)

/-- A call on the store and on the map. -/
def accountStep (x : TenantStore × TenantRecords) (op : TenantOp) :
    Option (TenantStore × TenantRecords) :=
  some ((op.onStore hashApiKey x.1).1, (op.onRecords x.2).1)

/-- The lookups of the store answer what the map says: a key of `keys` leads to
the latest record of the tenant it was issued to last, an id to the latest record
of its tenant, and the list has each tenant once. -/
structure TenantsAgree (keys : Set String) (s : TenantStore) (m : TenantRecords) : Prop where
  byKey : ∀ k ∈ keys, ∀ tenant, s.fetchByHash (hashApiKey k) = some tenant ↔
    ∃ id, m.lookup id = some (tenant, k)
  byId : ∀ id, s.getTenantById id = (m.lookup id).map Prod.fst
  listed : ∀ order, ((s.listTenants order).map Tenant.id).Nodup ∧
    ∀ tenant, tenant ∈ s.listTenants order ↔ ∃ id k, m.lookup id = some (tenant, k)

/-! ### The store stands for the map -/

/-- The entries of the store that a record of the map stands for. -/
def entryOf (r : Tenant × String) : Option Tenant × String := (some r.1, hashApiKey r.2)

/-- The blobs by hash and the hashes by id stand for the map; records have the
id they are stored under, and keys are among `keys`. -/
structure Represented (keys : Set String) (s : TenantStore) (m : TenantRecords) : Prop where
  catalogs : Catalogs (fun h => s.byHash.lookup h) (fun id => s.byId.lookup id)
    fun id => (m.lookup id).map (entryOf hashApiKey)
  ids : ∀ {id tenant k}, m.lookup id = some (tenant, k) → tenant.id = id
  keys : ∀ {id tenant k}, m.lookup id = some (tenant, k) → k ∈ keys

end Runs

namespace Represented

variable {hashApiKey : String → String} {keys : Set String} {s : TenantStore} {m : TenantRecords}

lemma lookup_id (h : Represented hashApiKey keys s m) (id : String) :
    s.byId.lookup id = (m.lookup id).map fun r => hashApiKey r.2 := by
  rw [h.catalogs.keys, Option.map_map]
  rfl

lemma lookup_hash (h : Represented hashApiKey keys s m) {id k : String} {tenant : Tenant}
    (hid : m.lookup id = some (tenant, k)) :
    s.byHash.lookup (hashApiKey k) = some (some tenant) :=
  h.catalogs.lookup_key (i := id) (by rw [hid]; rfl)

lemma fetchByHash (h : Represented hashApiKey keys s m) {id k : String} {tenant : Tenant}
    (hid : m.lookup id = some (tenant, k)) : s.fetchByHash (hashApiKey k) = some tenant := by
  rw [TenantStore.fetchByHash, h.lookup_hash hid]
  rfl

/-- A blob is that of a tenant of the map, and parses. -/
lemma of_fetchByHash (h : Represented hashApiKey keys s m) {hash : String} {tenant : Tenant}
    (hfetch : s.fetchByHash hash = some tenant) :
    ∃ id k, m.lookup id = some (tenant, k) ∧ hashApiKey k = hash := by
  rw [TenantStore.fetchByHash, Option.join_eq_some_iff] at hfetch
  obtain ⟨id, hid⟩ := (h.catalogs.records hash (some tenant)).mp hfetch
  obtain ⟨⟨tenant', k⟩, hm, heq⟩ := Option.map_eq_some_iff.mp hid
  obtain ⟨htenant, hk⟩ := Prod.mk.inj heq
  have hsame : tenant' = tenant := Option.some.inj htenant
  exact ⟨id, k, by rw [hm, hsame], hk⟩

/-- The hash of a key that no tenant has is not in use either. -/
lemma hash_unused (hfree : Set.InjOn hashApiKey keys) (h : Represented hashApiKey keys s m)
    {k : String} (hk : k ∈ keys) (hunused : TenantOp.Unused m k) (id : String)
    (blob : Option Tenant) :
    (m.lookup id).map (entryOf hashApiKey) ≠ some (blob, hashApiKey k) := by
  intro hid
  obtain ⟨⟨tenant, k'⟩, hm, heq⟩ := Option.map_eq_some_iff.mp hid
  have hsame : k' = k := hfree (h.keys hm) hk (Prod.mk.inj heq).2
  have hmem : id ∈ m.keys := Finmap.mem_keys.mpr (Finmap.mem_of_lookup_eq_some hm)
  exact hunused id hmem (by rw [hm, hsame]; rfl)

/-- The fields about single records, after a write to the map. -/
lemma fields_insert (h : Represented hashApiKey keys s m) {id k : String} {tenant : Tenant}
    (hid : tenant.id = id) (hk : k ∈ keys) {id' k' : String} {tenant' : Tenant}
    (hl : (m.insert id (tenant, k)).lookup id' = some (tenant', k')) :
    tenant'.id = id' ∧ k' ∈ keys := by
  rw [FinMap.lookup_insert_ite] at hl
  split_ifs at hl with heq
  · obtain ⟨rfl, rfl⟩ := Prod.mk.inj (Option.some.inj hl)
    exact ⟨hid.trans heq.symm, hk⟩
  · exact ⟨h.ids hl, h.keys hl⟩

lemma create (hfree : Set.InjOn hashApiKey keys) (h : Represented hashApiKey keys s m)
    {tenant : Tenant} {k : String} (hk : k ∈ keys) (hid : tenant.id ∉ m)
    (hunused : TenantOp.Unused m k) :
    Represented hashApiKey keys (s.createTenant tenant (hashApiKey k))
      (m.insert tenant.id (tenant, k)) where
  catalogs := by
    have hnone : (m.lookup tenant.id).map (entryOf hashApiKey) = none := by
      rw [Finmap.lookup_eq_none.mpr hid]
      rfl
    have hadd := h.catalogs.insert (r := some tenant) hnone (h.hash_unused hfree hk hunused)
    rw [FinMap.map_lookup_insert_eq_update]
    simp only [TenantStore.createTenant]
    rw [FinMap.lookup_insert_eq_update, FinMap.lookup_insert_eq_update]
    exact hadd
  ids hl := (h.fields_insert rfl hk hl).1
  keys hl := (h.fields_insert rfl hk hl).2

lemma update (h : Represented hashApiKey keys s m) {tenant old : Tenant} {k : String}
    (hid : m.lookup tenant.id = some (old, k)) :
    Represented hashApiKey keys (s.setBlob (hashApiKey k) tenant)
      (m.insert tenant.id (tenant, k)) where
  catalogs := by
    have hentry : (m.lookup tenant.id).map (entryOf hashApiKey) =
        some (some old, hashApiKey k) := by
      rw [hid]
      rfl
    rw [FinMap.map_lookup_insert_eq_update]
    simp only [TenantStore.setBlob]
    rw [FinMap.lookup_insert_eq_update]
    exact h.catalogs.replace hentry
  ids hl := (h.fields_insert rfl (h.keys hid) hl).1
  keys hl := (h.fields_insert rfl (h.keys hid) hl).2

lemma rotate (hfree : Set.InjOn hashApiKey keys) (h : Represented hashApiKey keys s m)
    {tenant : Tenant} {id k k' : String} (hid : m.lookup id = some (tenant, k)) (hk' : k' ∈ keys)
    (hunused : TenantOp.Unused m k') :
    Represented hashApiKey keys (s.moveKey id (hashApiKey k) (hashApiKey k') tenant)
      (m.insert id (tenant, k')) where
  catalogs := by
    have hentry : (m.lookup id).map (entryOf hashApiKey) = some (some tenant, hashApiKey k) := by
      rw [hid]
      rfl
    have hrekey := h.catalogs.rekey hentry (h.hash_unused hfree hk' hunused)
    rw [FinMap.map_lookup_insert_eq_update]
    simp only [TenantStore.moveKey]
    rw [FinMap.lookup_erase_eq_update, FinMap.lookup_insert_eq_update,
      FinMap.lookup_insert_eq_update]
    exact hrekey
  ids hl := (h.fields_insert (h.ids hid) hk' hl).1
  keys hl := (h.fields_insert (h.ids hid) hk' hl).2

lemma delete (h : Represented hashApiKey keys s m) {tenant : Tenant} {id k : String}
    (hid : m.lookup id = some (tenant, k)) (email : Option String) :
    Represented hashApiKey keys (s.dropKey id (hashApiKey k) email) (m.erase id) where
  catalogs := by
    have hentry : (m.lookup id).map (entryOf hashApiKey) = some (some tenant, hashApiKey k) := by
      rw [hid]
      rfl
    have hremove := h.catalogs.remove hentry
    rw [FinMap.map_lookup_erase_eq_update]
    simp only [TenantStore.dropKey]
    rw [FinMap.lookup_erase_eq_update, FinMap.lookup_erase_eq_update]
    exact hremove
  ids hl := by
    rw [FinMap.lookup_erase_ite] at hl
    split_ifs at hl
    exact h.ids hl
  keys hl := by
    rw [FinMap.lookup_erase_ite] at hl
    split_ifs at hl
    exact h.keys hl

end Represented

/-! ### The lookups -/

/-- The list of all tenants: each once, and each as the map has it. -/
lemma Represented.listTenants {hashApiKey : String → String} {keys : Set String} {s : TenantStore}
    {m : TenantRecords} (h : Represented hashApiKey keys s m) (order : SetOrder String) :
    ((s.listTenants order).map Tenant.id).Nodup ∧
      ∀ tenant, tenant ∈ s.listTenants order ↔ ∃ id k, m.lookup id = some (tenant, k) := by
  rw [TenantStore.listTenants]
  constructor
  · rw [List.map_filterMap]
    refine List.Nodup.filterMap ?_ (order.nodup_toList s.byHash.keys)
    intro hash hash' id hid hid'
    -- two blobs of one tenant id are the blob of its one key
    obtain ⟨tenant, htenant, hsub⟩ := Option.map_eq_some_iff.mp hid
    obtain ⟨tenant', htenant', hsub'⟩ := Option.map_eq_some_iff.mp hid'
    obtain ⟨i, k, hi, hk⟩ := h.of_fetchByHash htenant
    obtain ⟨i', k', hi', hk'⟩ := h.of_fetchByHash htenant'
    have hsame : i' = i := by rw [← h.ids hi, ← h.ids hi', hsub, hsub']
    rw [hsame] at hi'
    have hkey := (Prod.mk.inj (Option.some.inj (hi.symm.trans hi'))).2
    rw [← hk, ← hk', hkey]
  · intro tenant
    rw [List.mem_filterMap]
    constructor
    · rintro ⟨hash, -, hfetch⟩
      obtain ⟨id, k, hid, -⟩ := h.of_fetchByHash hfetch
      exact ⟨id, k, hid⟩
    · rintro ⟨id, k, hid⟩
      have hmem : hashApiKey k ∈ s.byHash.keys :=
        Finmap.mem_keys.mpr (Finmap.mem_of_lookup_eq_some (h.lookup_hash hid))
      exact ⟨hashApiKey k, order.mem_toList.mpr hmem, h.fetchByHash hid⟩

/-- A store that stands for the map answers what the map says. -/
lemma Represented.agree {hashApiKey : String → String} {keys : Set String} {s : TenantStore}
    {m : TenantRecords} (hfree : Set.InjOn hashApiKey keys) (h : Represented hashApiKey keys s m) :
    TenantsAgree hashApiKey keys s m where
  byKey k hk tenant := by
    constructor
    · intro hfetch
      obtain ⟨id, k', hid, hhash⟩ := h.of_fetchByHash hfetch
      rw [hfree (h.keys hid) hk hhash] at hid
      exact ⟨id, hid⟩
    · rintro ⟨id, hid⟩
      exact h.fetchByHash hid
  byId id := by
    rw [TenantStore.getTenantById, h.lookup_id]
    cases hid : m.lookup id with
    | none => rfl
    | some r => exact h.fetchByHash (k := r.2) hid
  listed := h.listTenants

/-! ### Runs -/

section Runs

variable {hashApiKey : String → String} {keys : Set String}

/-- A call with a fresh id and key keeps the store and the map together, and
finds its tenant just when the map has it. -/
lemma Represented.step (hfree : Set.InjOn hashApiKey keys) {s : TenantStore} {m : TenantRecords}
    (h : Represented hashApiKey keys s m) {op : TenantOp} (hfresh : op.Fresh m)
    (hkeys : ∀ k ∈ op.key?, k ∈ keys) :
    Represented hashApiKey keys (op.onStore hashApiKey s).1 (op.onRecords m).1 ∧
      (op.onStore hashApiKey s).2 = (op.onRecords m).2 := by
  cases op with
  | create tenant k => exact ⟨h.create hfree (hkeys k rfl) hfresh.1 hfresh.2, rfl⟩
  | rotate id k =>
      simp only [TenantOp.onStore, TenantOp.onRecords, TenantStore.rotateApiKey, h.lookup_id]
      cases hid : m.lookup id with
      | none => exact ⟨h, rfl⟩
      | some r =>
          simp only [Option.map_some, h.fetchByHash (k := r.2) hid]
          exact ⟨h.rotate hfree hid (hkeys k rfl) hfresh, trivial⟩
  | update tenant =>
      simp only [TenantOp.onStore, TenantOp.onRecords, TenantStore.updateTenant, h.lookup_id]
      cases hid : m.lookup tenant.id with
      | none => exact ⟨h, rfl⟩
      | some r => exact ⟨h.update hid, rfl⟩
  | delete id =>
      simp only [TenantOp.onStore, TenantOp.onRecords, TenantStore.deleteTenant, h.lookup_id]
      cases hid : m.lookup id with
      | none => exact ⟨h, rfl⟩
      | some r => exact ⟨h.delete hid _, rfl⟩

lemma represented_empty : Represented hashApiKey keys TenantStore.empty ∅ where
  catalogs := Catalogs.empty
  ids hl := absurd hl (by simp)
  keys hl := absurd hl (by simp)

/-- After every call of a sequence from an empty store, the store answers what
the map says, and the call has answered so too. -/
theorem tenant_store_refines (hfree : Set.InjOn hashApiKey keys) {ops : List TenantOp}
    (hops : AllSteps (accountStep hashApiKey)
      (fun x op _ => op.Fresh x.2 ∧ ∀ k ∈ op.key?, k ∈ keys) (TenantStore.empty, ∅) ops) :
    AllSteps (accountStep hashApiKey)
      (fun x op x' => TenantsAgree hashApiKey keys x'.1 x'.2 ∧
        (op.onStore hashApiKey x.1).2 = (op.onRecords x.2).2) (TenantStore.empty, ∅) ops := by
  refine AllSteps.of_invariant
    (I := fun x : TenantStore × TenantRecords => Represented hashApiKey keys x.1 x.2)
    (fun x op x' h hstep hop => ?_) represented_empty hops
  obtain ⟨h', hanswer⟩ := h.step hfree hop.1 hop.2
  rw [← Option.some.inj hstep]
  exact ⟨h', h'.agree hfree, hanswer⟩

end Runs

/-- The SHA-256 digests of the keys `dk_1` and `dk_2`. -/
def sampleHash (apiKey : String) : String :=
  if apiKey = "dk_1" then "f5e28cc0246f971900a479a7920db5ebbd4e3d2ec0f159c2866b7a0e1a95d761"
  else if apiKey = "dk_2" then "c3b5da554144fe26e03c38eec19cd8f9aaa175c967ab46b60f82b726f4431e16"
  else ""

/-- The two keys. -/
def sampleKeys : Set String := fun k => k = "dk_1" ∨ k = "dk_2"

lemma sampleHash_injOn : Set.InjOn sampleHash sampleKeys := by
  rintro k (rfl | rfl) k' (rfl | rfl) heq
  · rfl
  · exact absurd heq (by decide)
  · exact absurd heq (by decide)
  · rfl

/-- A tenant is created, gets another key, and is renamed. -/
def acmeOps : List TenantOp :=
  [.create { id := "t_1", name := "Acme" } "dk_1", .rotate "t_1" "dk_2",
    .update { id := "t_1", name := "Acme Ltd" }]

/-- Then the new key leads to the renamed record, and the old one to nothing. -/
theorem tenant_store_refines_acme : ∃ x,
    run (accountStep sampleHash) (TenantStore.empty, ∅) acmeOps = some x ∧
      x.1.fetchByHash (sampleHash "dk_2") = some { id := "t_1", name := "Acme Ltd" } ∧
      x.1.fetchByHash (sampleHash "dk_1") = none ∧ TenantsAgree sampleHash sampleKeys x.1 x.2 := by
  have hcheck : AllSteps (accountStep sampleHash) (fun x op _ => op.Fresh x.2 ∧
      ∀ k ∈ op.key?, k = "dk_1" ∨ k = "dk_2") (TenantStore.empty, ∅) acmeOps := by
    decide +kernel
  have hagree : AllSteps (accountStep sampleHash)
      (fun _ _ x' => TenantsAgree sampleHash sampleKeys x'.1 x'.2) (TenantStore.empty, ∅) acmeOps :=
    AllSteps.of_invariant (I := fun _ => True) (fun _ _ _ _ _ h => ⟨trivial, h.1⟩) trivial
      (tenant_store_refines sampleHash_injOn hcheck)
  have heval : (run (accountStep sampleHash) (TenantStore.empty, ∅) acmeOps).map (fun x =>
      decide (x.1.fetchByHash (sampleHash "dk_2") = some { id := "t_1", name := "Acme Ltd" } ∧
        x.1.fetchByHash (sampleHash "dk_1") = none)) = some true := by decide +kernel
  obtain ⟨x, hx, hfetch⟩ := Option.map_eq_some_iff.mp heval
  obtain ⟨hnew, hold⟩ := of_decide_eq_true hfetch
  exact ⟨x, hx, hnew, hold, hagree.of_run (G := fun x => TenantsAgree sampleHash sampleKeys x.1 x.2)
    (represented_empty.agree sampleHash_injOn) hx⟩

end Dendri
