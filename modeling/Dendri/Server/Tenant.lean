import Dendri.Server.State

/-!
`tenant.rs`: the tenant records in Redis and the cache in front of them.

* `TenantStore`: the blobs under `tenant:key:{hash}`, the index `tenant:id:{id}`
  and the index `tenant:email:{email}`;
* `createTenant`, `updateTenant`, `rotateApiKey`, `deleteTenant`: the functions
  of the source as they run alone. A new API key is given by its hash;
* `getTenantById`, `getTenantIdByEmail`, `listTenants`: the lookups;
* `TenantCache`, `resolveApiKey`: the lookup of the connect path.
-/

namespace Dendri

/-- `char::is_whitespace`. -/
def isWhitespace (c : Char) : Bool :=
  (9 ≤ c.toNat && c.toNat ≤ 13) || (0x2000 ≤ c.toNat && c.toNat ≤ 0x200A) ||
    [0x20, 0x85, 0xA0, 0x1680, 0x2028, 0x2029, 0x202F, 0x205F, 0x3000].contains c.toNat

/-- `char::to_ascii_lowercase`. -/
def toAsciiLowercase (c : Char) : Char :=
  if 'A' ≤ c ∧ c ≤ 'Z' then Char.ofNat (c.toNat + 32) else c

/-- The email of `key_by_email`: trimmed, in lower case. -/
def emailKey (email : String) : String :=
  let trimmed := (email.toList.dropWhile isWhitespace).reverse.dropWhile isWhitespace
  String.ofList (trimmed.reverse.map toAsciiLowercase)

/-- The Redis keys of the tenants. A blob is the tenant it parses to, `none`
when it does not parse. -/
structure TenantStore where
  byHash : DashMap (Option Tenant)
  byId : DashMap String
  byEmail : DashMap String

namespace TenantStore

/-- `fetch_by_hash`. -/
def fetchByHash (s : TenantStore) (hash : String) : Option Tenant := (s.byHash.lookup hash).join

/-- `SET tenant:key:{hash}`. -/
def setBlob (s : TenantStore) (hash : String) (tenant : Tenant) : TenantStore :=
  { s with byHash := s.byHash.insert hash (some tenant) }

/-- `create_tenant`. -/
def createTenant (s : TenantStore) (tenant : Tenant) (hash : String) : TenantStore :=
  { byHash := s.byHash.insert hash (some tenant)
    byId := s.byId.insert tenant.id hash
    byEmail :=
      match tenant.email with
      | some email => s.byEmail.insert (emailKey email) tenant.id
      | none => s.byEmail }

/-- `get_tenant_by_id`. -/
def getTenantById (s : TenantStore) (id : String) : Option Tenant :=
  match s.byId.lookup id with
  | some hash => s.fetchByHash hash
  | none => none

/-- `update_tenant`. -/
def updateTenant (s : TenantStore) (tenant : Tenant) : TenantStore × Bool :=
  match s.byId.lookup tenant.id with
  | some hash => (s.setBlob hash tenant, true)
  | none => (s, false)

/-- `rotate_jwt_secret`, with the new secret. -/
def rotateJwtSecret (s : TenantStore) (id newSecret : String) : TenantStore × Bool :=
  match s.getTenantById id with
  | some tenant => s.updateTenant { tenant with jwtSecret := some newSecret }
  | none => (s, false)

/-- The pipeline of `rotate_api_key`. -/
def moveKey (s : TenantStore) (id oldHash newHash : String) (tenant : Tenant) : TenantStore :=
  { s with
    byHash := (s.byHash.insert newHash (some tenant)).erase oldHash
    byId := s.byId.insert id newHash }

/-- `rotate_api_key`, with the hash of the new key. -/
def rotateApiKey (s : TenantStore) (id newHash : String) : TenantStore × Bool :=
  match s.byId.lookup id with
  | some oldHash =>
      match s.fetchByHash oldHash with
      | some tenant => (s.moveKey id oldHash newHash tenant, true)
      | none => (s, false)
  | none => (s, false)

/-- The pipeline of `delete_tenant`. -/
def dropKey (s : TenantStore) (id hash : String) (email : Option String) : TenantStore :=
  { byHash := s.byHash.erase hash
    byId := s.byId.erase id
    byEmail :=
      match email with
      | some email => s.byEmail.erase (emailKey email)
      | none => s.byEmail }

/-- `delete_tenant`. -/
def deleteTenant (s : TenantStore) (id : String) : TenantStore × Bool :=
  match s.byId.lookup id with
  | some hash => (s.dropKey id hash ((s.fetchByHash hash).bind Tenant.email), true)
  | none => (s, false)

/-- `get_tenant_id_by_email`. -/
def getTenantIdByEmail (s : TenantStore) (email : String) : Option String :=
  s.byEmail.lookup (emailKey email)

/-- `list_tenants`, with the order in which Redis lists the keys. -/
def listTenants (order : SetOrder String) (s : TenantStore) : List Tenant :=
  (order.toList s.byHash.keys).filterMap s.fetchByHash

end TenantStore

/-! ### The cache -/

/-- `CACHE_TTL`, in milliseconds. -/
def cacheTtl : ℕ := 30000

/-- `TenantCache`: the answer for a hash, also a negative one, and when it was
stored. -/
structure TenantCache where
  inner : DashMap (Option Tenant × ℕ)

namespace TenantCache

/-- `TenantCache::get`. -/
def get (cache : TenantCache) (now : ℕ) (hash : String) : Option (Option Tenant) :=
  match cache.inner.lookup hash with
  | some (value, storedAt) => if cacheTtl < now - storedAt then none else some value
  | none => none

/-- `TenantCache::put`. -/
def put (cache : TenantCache) (now : ℕ) (hash : String) (value : Option Tenant) : TenantCache :=
  ⟨cache.inner.insert hash (value, now)⟩

/-- `TenantCache::invalidate_all`. -/
def invalidateAll (_ : TenantCache) : TenantCache := ⟨∅⟩

end TenantCache

/-- `value.filter(|t| t.active)`. -/
def activeTenant (value : Option Tenant) : Option Tenant := value.filter Tenant.active

/-- `resolve_api_key` on the hash of the key, when Redis answers. -/
def resolveApiKey (store : TenantStore) (cache : TenantCache) (now : ℕ) (hash : String) :
    TenantCache × Option Tenant :=
  match cache.get now hash with
  | some cached => (cache, activeTenant cached)
  | none => (cache.put now hash (store.fetchByHash hash), activeTenant (store.fetchByHash hash))

end Dendri
