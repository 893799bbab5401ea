import Dendri.Properties.RedisTables

/-!
The tenant store in the flat keyspace. The functions of `tenant.rs` read and write texts among
all the other keys of Redis; the tenant store of the model is typed and has nothing else.

* `Tables.tenants`: the tenant store, read off the tables;
* `StoreCall.onTenants`: what each call does to the store, and what it answers if it is one of
  `tenant.rs`;
* `tenants_onTables`, `answer_onTables`: one call on the tables has this effect and this answer;
* `tenants_on_keyspace`: so does every call of a sequence, on the database itself.
-/

namespace Dendri

open Keyspace Function

/-- The tenant store, read off the tables. -/
def Tables.tenants (codec : Codec Tenant) (t : Tables) : TenantStore where
  byHash := FinMap.mapVals codec.parse (t .tenantKey)
  byId := t .tenantId
  byEmail := t .tenantEmail

/-- What a call does to the tenant store, and its answer if it is a call of `tenant.rs`. -/
def StoreCall.onTenants (order : SetOrder String) (s : TenantStore) :
    StoreCall → TenantStore × Option StoreAnswer
  | fetchByHash hash => (s, some (.tenant (s.fetchByHash hash)))
  | createTenant tenant hash => (s.createTenant tenant hash, some .done)
  | updateTenant tenant => ((s.updateTenant tenant).1, some (.flag (s.updateTenant tenant).2))
  | getTenantIdByEmail email => (s, some (.text (s.getTenantIdByEmail email)))
  | getTenantById id => (s, some (.tenant (s.getTenantById id)))
  | rotateApiKey id newHash =>
      ((s.rotateApiKey id newHash).1, some (.flag (s.rotateApiKey id newHash).2))
  | deleteTenant id => ((s.deleteTenant id).1, some (.flag (s.deleteTenant id).2))
  | listTenants => (s, some (.tenants (s.listTenants (KeyFamily.tenantKey.order order))))
  | _ => (s, none)

/-- The records that the calls write and the records that are read are read back as they were
written. -/
structure Codec.Faithful (codec : Codec Tenant) (calls : List StoreCall) : Prop where
  create : ∀ tenant hash, .createTenant tenant hash ∈ calls →
    codec.parse (codec.render tenant) = some tenant
  update : ∀ tenant, .updateTenant tenant ∈ calls →
    codec.parse (codec.render tenant) = some tenant
  parsed : ∀ text tenant, codec.parse text = some tenant →
    codec.parse (codec.render tenant) = some tenant

section Steps

variable {codec : Codec Tenant} (order : SetOrder String) (now : Fin (2 ^ 63)) (t : Tables)

lemma tenantByHash_eq (hash : String) :
    t.tenantByHash codec hash = (t.tenants codec).fetchByHash hash := by
  rw [Tables.tenantByHash, TenantStore.fetchByHash, Tables.tenants, FinMap.lookup_mapVals]
  cases (t .tenantKey).lookup hash with
  | none => rfl
  | some text => rfl

/-- A write of a record that is read back. -/
lemma tenants_put {tenant : Tenant} (hash : String)
    (h : codec.parse (codec.render tenant) = some tenant) :
    (t.put .tenantKey hash (codec.render tenant)).tenants codec =
      (t.tenants codec).setBlob hash tenant := by
  have hmap : FinMap.mapVals codec.parse ((t .tenantKey).insert hash (codec.render tenant)) =
      (FinMap.mapVals codec.parse (t .tenantKey)).insert hash (some tenant) := by
    rw [FinMap.mapVals_insert, h]
  rw [Tables.tenants, TenantStore.setBlob, TenantStore.mk.injEq]
  refine ⟨?_, Tables.put_of_ne (G := .tenantId) _ (by decide) _ _,
    Tables.put_of_ne (G := .tenantEmail) _ (by decide) _ _⟩
  rw [Tables.put, update_self]
  exact hmap

lemma tenants_create {tenant : Tenant} (hash : String)
    (h : codec.parse (codec.render tenant) = some tenant) :
    ((StoreCall.createTenant tenant hash).onTables codec order now t).1.tenants codec =
      (t.tenants codec).createTenant tenant hash := by
  have hput := tenants_put t hash h
  rw [TenantStore.setBlob, Tables.tenants, TenantStore.mk.injEq] at hput
  obtain ⟨hbyHash, -, -⟩ := hput
  rw [StoreCall.onTables, TenantStore.createTenant]
  cases tenant.email with
  | none =>
      rw [Tables.tenants, TenantStore.mk.injEq]
      exact ⟨hbyHash, rfl, rfl⟩
  | some email =>
      rw [Tables.tenants, TenantStore.mk.injEq]
      exact ⟨hbyHash, rfl, rfl⟩

lemma tenants_rotate (id newHash : String)
    (hparsed : ∀ text tenant, codec.parse text = some tenant →
      codec.parse (codec.render tenant) = some tenant) :
    ((StoreCall.rotateApiKey id newHash).onTables codec order now t).1.tenants codec =
        ((t.tenants codec).rotateApiKey id newHash).1 ∧
      ((StoreCall.rotateApiKey id newHash).onTables codec order now t).2 =
        .flag ((t.tenants codec).rotateApiKey id newHash).2 := by
  have hid : (t.tenants codec).byId.lookup id = (t .tenantId).lookup id := rfl
  rw [StoreCall.onTables, TenantStore.rotateApiKey, hid]
  cases (t .tenantId).lookup id with
  | none => exact ⟨rfl, rfl⟩
  | some oldHash =>
      dsimp only
      rw [tenantByHash_eq]
      cases hfetch : (t.tenants codec).fetchByHash oldHash with
      | none => exact ⟨rfl, rfl⟩
      | some tenant =>
          have hread : codec.parse (codec.render tenant) = some tenant := by
            rw [← tenantByHash_eq, Tables.tenantByHash] at hfetch
            obtain ⟨text, -, htext⟩ := Option.bind_eq_some_iff.mp hfetch
            exact hparsed text tenant htext
          have hput := tenants_put t newHash hread
          rw [TenantStore.setBlob, Tables.tenants, TenantStore.mk.injEq] at hput
          refine ⟨?_, rfl⟩
          dsimp only
          rw [Tables.tenants, TenantStore.moveKey, TenantStore.mk.injEq]
          refine ⟨?_, rfl, rfl⟩
          show FinMap.mapVals codec.parse (((t .tenantKey).insert newHash
            (codec.render tenant)).erase oldHash) = _
          rw [FinMap.mapVals_erase]
          exact congrArg (Finmap.erase oldHash) hput.1

lemma tenants_delete (id : String) :
    ((StoreCall.deleteTenant id).onTables codec order now t).1.tenants codec =
        ((t.tenants codec).deleteTenant id).1 ∧
      ((StoreCall.deleteTenant id).onTables codec order now t).2 =
        .flag ((t.tenants codec).deleteTenant id).2 := by
  have hid : (t.tenants codec).byId.lookup id = (t .tenantId).lookup id := rfl
  rw [StoreCall.onTables, TenantStore.deleteTenant, hid]
  cases (t .tenantId).lookup id with
  | none => exact ⟨rfl, rfl⟩
  | some hash =>
      have herase : FinMap.mapVals codec.parse ((t .tenantKey).erase hash) =
          (FinMap.mapVals codec.parse (t .tenantKey)).erase hash := FinMap.mapVals_erase _ _ hash
      dsimp only
      rw [tenantByHash_eq, TenantStore.dropKey.eq_def]
      cases ((t.tenants codec).fetchByHash hash).bind Tenant.email with
      | none =>
          refine ⟨?_, rfl⟩
          rw [Tables.tenants, TenantStore.mk.injEq]
          exact ⟨herase, rfl, rfl⟩
      | some email =>
          refine ⟨?_, rfl⟩
          rw [Tables.tenants, TenantStore.mk.injEq]
          exact ⟨herase, rfl, rfl⟩

/-- One call on the tables does to the tenant store what it should, and a call of `tenant.rs`
answers what the store says. -/
lemma tenants_onTables {call : StoreCall} (h : codec.Faithful [call]) :
    (call.onTables codec order now t).1.tenants codec =
        (call.onTenants order (t.tenants codec)).1 ∧
      ∀ answer ∈ (call.onTenants order (t.tenants codec)).2,
        (call.onTables codec order now t).2 = answer := by
  cases call with
  | fetchByHash hash =>
      refine ⟨rfl, ?_⟩
      rintro answer ⟨⟩
      exact congrArg StoreAnswer.tenant (tenantByHash_eq t hash)
  | createTenant tenant hash =>
      refine ⟨tenants_create order now t hash (h.create tenant hash List.mem_cons_self), ?_⟩
      rintro answer ⟨⟩
      rw [StoreCall.onTables]
      cases tenant.email with
      | none => rfl
      | some email => rfl
  | updateTenant tenant =>
      have hid : (t.tenants codec).byId.lookup tenant.id = (t .tenantId).lookup tenant.id := rfl
      rw [StoreCall.onTables, StoreCall.onTenants, TenantStore.updateTenant, hid]
      cases (t .tenantId).lookup tenant.id with
      | none =>
          refine ⟨rfl, ?_⟩
          rintro answer ⟨⟩
          rfl
      | some hash =>
          refine ⟨tenants_put t hash (h.update tenant List.mem_cons_self), ?_⟩
          rintro answer ⟨⟩
          rfl
  | getTenantIdByEmail email =>
      refine ⟨rfl, ?_⟩
      rintro answer ⟨⟩
      rfl
  | getTenantById id =>
      refine ⟨rfl, ?_⟩
      rintro answer ⟨⟩
      have hid : (t.tenants codec).byId.lookup id = (t .tenantId).lookup id := rfl
      rw [TenantStore.getTenantById, hid]
      refine congrArg StoreAnswer.tenant ?_
      cases (t .tenantId).lookup id with
      | none => rfl
      | some hash => exact tenantByHash_eq t hash
  | rotateApiKey id newHash =>
      obtain ⟨hstore, hanswer⟩ := tenants_rotate order now t id newHash h.parsed
      refine ⟨hstore, ?_⟩
      rintro answer ⟨⟩
      exact hanswer
  | deleteTenant id =>
      obtain ⟨hstore, hanswer⟩ := @tenants_delete codec order now t id
      refine ⟨hstore, ?_⟩
      rintro answer ⟨⟩
      exact hanswer
  | listTenants =>
      refine ⟨rfl, ?_⟩
      rintro answer ⟨⟩
      have hkeys : (t.tenants codec).byHash.keys = (t .tenantKey).keys := FinMap.keys_mapVals _ _
      rw [TenantStore.listTenants, hkeys, StoreCall.onTables]
      exact congrArg StoreAnswer.tenants
        (List.filterMap_congr fun hash _ => tenantByHash_eq t hash)
  | acquireNoAccountSlot email =>
      rw [StoreCall.onTables]
      split_ifs
      · exact ⟨rfl, fun answer hanswer => absurd hanswer (by simp [StoreCall.onTenants])⟩
      · exact ⟨rfl, fun answer hanswer => absurd hanswer (by simp [StoreCall.onTenants])⟩
  | _ => exact ⟨rfl, fun answer hanswer => absurd hanswer (by simp [StoreCall.onTenants])⟩

end Steps

/-- Calls one after the other on the tenant store, with the answers of those of `tenant.rs`. -/
def runTenants : TenantStore → List TimedCall → TenantStore × List (Option StoreAnswer)
  | s, [] => (s, [])
  | s, c :: cs =>
      let r := c.call.onTenants c.order s
      let rest := runTenants r.1 cs
      (rest.1, r.2 :: rest.2)

lemma Codec.Faithful.head {codec : Codec Tenant} {call : StoreCall} {calls : List StoreCall}
    (h : codec.Faithful (call :: calls)) : codec.Faithful [call] :=
  ⟨fun tenant hash hmem => h.create tenant hash (by simp_all),
    fun tenant hmem => h.update tenant (by simp_all), h.parsed⟩

lemma Codec.Faithful.tail {codec : Codec Tenant} {call : StoreCall} {calls : List StoreCall}
    (h : codec.Faithful (call :: calls)) : codec.Faithful calls :=
  ⟨fun tenant hash hmem => h.create tenant hash (List.mem_cons_of_mem call hmem),
    fun tenant hmem => h.update tenant (List.mem_cons_of_mem call hmem), h.parsed⟩

/-- In a sequence of any calls on the database, those of `tenant.rs` answer as they do on a
tenant store of their own, and the database holds that store after it: registrations of clients,
queued messages and cooldowns never touch it, whatever ids and addresses they bring. -/
theorem tenants_on_keyspace (codec : Codec Tenant) (calls : List TimedCall) {db : Db} {t : Tables}
    (hdb : StoredAs db t) (hcodec : codec.Faithful (calls.map TimedCall.call)) :
    (∃ t', StoredAs (runDb codec db calls).1 t' ∧
      t'.tenants codec = (runTenants (t.tenants codec) calls).1) ∧
    List.Forall₂ (fun expected answer => ∀ a ∈ expected, answer = some a)
      (runTenants (t.tenants codec) calls).2 (runDb codec db calls).2 := by
  induction calls generalizing db t with
  | nil => exact ⟨⟨t, hdb, rfl⟩, List.Forall₂.nil⟩
  | cons c cs ih =>
      obtain ⟨hstored, hanswer⟩ := stored_run codec c.order c.now hdb c.call
      obtain ⟨hstore, hexpected⟩ := tenants_onTables c.order c.now t hcodec.head
      obtain ⟨hend, hrest⟩ := ih hstored hcodec.tail
      rw [hstore] at hend hrest
      refine ⟨hend, List.Forall₂.cons (fun a ha => ?_) hrest⟩
      rw [hanswer, hexpected a ha]

/-- The record of `acme`. -/
def acmeRecord : Tenant := { id := "t_1", name := "Acme", email := some "Ops@acme.io" }

/-- Its text. -/
def acmeText : String :=
  "\x7b\"id\":\"t_1\",\"name\":\"Acme\",\"origins\":[],\"active\":true,\"max_rooms\":0," ++
    "\"max_peers\":0,\"email\":\"Ops@acme.io\"\x7d"

/-- A codec for that record only. -/
def Codec.acme : Codec Tenant where
  render tenant := if tenant = acmeRecord then acmeText else ""
  parse text := if text = acmeText then some acmeRecord else none

/-- `acme` is created, a peer with an id that looks like its key has a queue, the key is
rotated, and the record is read with the new key. -/
def acmeAmongPeers : List TimedCall :=
  [.createTenant acmeRecord "h1", .addMessageToQueue "tenant:key:h2" "null", .rotateApiKey "t_1" "h2",
    .fetchByHash "h2", .getTenantIdByEmail " ops@acme.io "].map
    (⟨1000, SetOrder.sorted String, ·⟩)

theorem tenants_on_keyspace_acme :
    (∃ t', StoredAs (runDb Codec.acme ∅ acmeAmongPeers).1 t' ∧
      t'.tenants Codec.acme =
        (runTenants (Tables.tenants Codec.acme fun _ => ∅) acmeAmongPeers).1) ∧
    List.Forall₂ (fun expected answer => ∀ a ∈ expected, answer = some a)
      (runTenants (Tables.tenants Codec.acme fun _ => ∅) acmeAmongPeers).2
      (runDb Codec.acme ∅ acmeAmongPeers).2 := by
  refine tenants_on_keyspace Codec.acme acmeAmongPeers stored_empty ⟨?_, ?_, ?_⟩
  · intro tenant hash hmem
    simp only [acmeAmongPeers, List.map_cons, List.map_nil, List.mem_cons, StoreCall.createTenant.injEq,
      reduceCtorEq, List.not_mem_nil, or_false] at hmem
    rw [hmem.1]
    decide
  · intro tenant hmem
    simp [acmeAmongPeers] at hmem
  · intro text tenant h
    have hacme : tenant = acmeRecord := by
      by_cases htext : text = acmeText
      · simpa [Codec.acme, htext, eq_comm] using h
      · simp [Codec.acme, htext] at h
    rw [hacme]
    decide

end Dendri
