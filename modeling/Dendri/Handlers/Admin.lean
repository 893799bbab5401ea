import Dendri.Server.Tenant
import Dendri.Server.Validation

/-!
`handlers/admin.rs`: the requests that create, list, remove and re-key tenants,
and the guard in front of them.

* `HeaderMap`, `Response`: as much of a request and of a response as the handlers
  read and write;
* `ApiState`: the part of `AppState` the two APIs use;
* `rejectUnauthorized`: the guard, which compares the bearer token with the admin
  token;
* `AdminApi.createTenant`, `AdminApi.listTenants`, `AdminApi.removeTenant`,
  `AdminApi.rotateJwtSecret`: the handlers.
-/

namespace Dendri

/-! ### Requests and responses -/

/-- The `is_visible_ascii` of `HeaderValue`. -/
def isVisibleAscii (b : UInt8) : Bool := (32 ≤ b && b < 127) || b == 9

/-- `HeaderValue::to_str`. -/
def toStr (value : List UInt8) : Option String :=
  if value.all isVisibleAscii then some (String.ofList (value.map fun b => Char.ofNat b.toNat))
  else none

/-- `str::strip_prefix`. -/
def stripPrefix (s start : String) : Option String :=
  (s.toList.dropPrefix? start.toList).map String.ofList

/-- `str::trim`. -/
def trim (s : String) : String :=
  String.ofList ((s.toList.dropWhile isWhitespace).reverse.dropWhile isWhitespace).reverse

/-- The `Authorization` header of a request, in bytes. -/
structure HeaderMap where
  authorization : Option (List UInt8) := none

/-- The token of the `Authorization` header, if it is a bearer token. -/
def HeaderMap.bearer (headers : HeaderMap) : Option String :=
  (headers.authorization.bind toStr).bind fun value => stripPrefix value "Bearer "

/-- A response: its status, and the JSON value it holds. -/
structure Response where
  status : ℕ
  body : Option Value := none

namespace Response

/-- `(status, Json(json!({..})))`. -/
def json (status : ℕ) (fields : List (String × Value)) : Response :=
  ⟨status, some (.object fields)⟩

/-- `(status, Json(json!({"error": text})))`. -/
def error (status : ℕ) (text : String) : Response := json status [("error", .string text)]

/-- The `UNAUTHORIZED` response of both guards. -/
def unauthorized : Response := error 401 "unauthorized"

/-- The response to a Redis error. -/
def storageError : Response := error 500 "storage error"

end Response

/-! ### The state -/

/-- The part of `AppState` the two APIs use. The addresses with a
`no-account` slot have the time it is free again. -/
structure ApiState where
  adminToken : Option String := none
  redis : TenantStore
  tenantCache : TenantCache
  noAccount : DashMap ℕ := ∅

/-- The Redis calls of the two APIs. -/
inductive ApiCall where
  | resolveApiKey | createTenant | updateTenant | getTenantById | rotateApiKey | deleteTenant
  | listTenants | getTenantIdByEmail | acquireNoAccountSlot
  deriving DecidableEq, Repr

/-- What a request to one of the APIs finds besides the state. -/
structure ApiEnv where
  /-- Milliseconds, of the wall clock and of the monotonic clock. -/
  now : ℕ
  /-- The order in which Redis lists the keys. -/
  order : SetOrder String
  /-- Whether a Redis call succeeds. One that does not changes nothing. -/
  redisOk : ApiCall → Bool
  /-- `tenant::hash_api_key`. -/
  hashApiKey : String → String
  /-- What `generate_tenant_id`, `generate_api_key` and `generate_jwt_secret` give. -/
  newTenantId : String
  newApiKey : String
  newJwtSecret : String

/-- The result of a Redis call, `none` for an error. -/
def ApiEnv.call {α : Type} (env : ApiEnv) (c : ApiCall) (result : α) : Option α :=
  if env.redisOk c then some result else none

/-- A write to Redis, followed by `tenant_cache.invalidate_all`. -/
def ApiState.written (s : ApiState) (redis : TenantStore) : ApiState :=
  { s with redis := redis, tenantCache := s.tenantCache.invalidateAll }

/-! ### The guard -/

/-- `reject_unauthorized`. -/
def rejectUnauthorized (s : ApiState) (headers : HeaderMap) : Option Response :=
  let expected := s.adminToken.getD ""
  let provided := headers.bearer.getD ""
  if expected.isEmpty || !constantTimeStrEq provided expected then some .unauthorized else none

/-! ### The handlers -/

/-- `Option<String>` in JSON. -/
def optString : Option String → Value
  | some s => .string s
  | none => .null

/-- A `Tenant` in JSON. -/
def tenantJson (t : Tenant) : Value :=
  .object ([("id", .string t.id), ("name", .string t.name),
    ("origins", .array (t.origins.map .string)), ("active", .bool t.active),
    ("max_rooms", .number t.maxRooms.repr), ("max_peers", .number t.maxPeers.repr),
    ("email", optString t.email)] ++
    (t.jwtSecret.map fun secret => ("jwt_secret", .string secret)).toList)

namespace AdminApi

/-- `CreateTenantRequest`. -/
structure CreateTenantRequest where
  name : String
  origins : List String := []
  maxRooms : ℕ := 0
  maxPeers : ℕ := 0
  email : Option String := none
  jwtSecret : Option String := none

/-- `TenantView`, in JSON. -/
def tenantView (t : Tenant) : Value :=
  .object [("id", .string t.id), ("name", .string t.name),
    ("origins", .array (t.origins.map .string)), ("active", .bool t.active),
    ("max_rooms", .number t.maxRooms.repr), ("max_peers", .number t.maxPeers.repr),
    ("email", optString t.email), ("has_jwt_secret", .bool t.jwtSecret.isSome)]

/-- `create_tenant`. -/
def createTenant (env : ApiEnv) (s : ApiState) (headers : HeaderMap) (req : CreateTenantRequest) :
    ApiState × Response :=
  match rejectUnauthorized s headers with
  | some response => (s, response)
  | none =>
      let name := trim req.name
      if name.isEmpty then (s, .error 422 "name is required")
      else
        let tenant : Tenant :=
          { id := env.newTenantId, name, origins := req.origins, active := true,
            maxRooms := req.maxRooms, maxPeers := req.maxPeers, email := req.email,
            jwtSecret := req.jwtSecret }
        let hash := env.hashApiKey env.newApiKey
        match env.call .createTenant (s.redis.createTenant tenant hash) with
        | some redis =>
            (s.written redis,
              .json 201 [("tenant", tenantJson tenant), ("api_key", .string env.newApiKey)])
        | none => (s, .storageError)

/-- `list_tenants`. -/
def listTenants (env : ApiEnv) (s : ApiState) (headers : HeaderMap) : Response :=
  match rejectUnauthorized s headers with
  | some response => response
  | none =>
      match env.call .listTenants (s.redis.listTenants env.order) with
      | some tenants => .json 200 [("tenants", .array (tenants.map tenantView))]
      | none => .storageError

/-- `remove_tenant`. -/
def removeTenant (env : ApiEnv) (s : ApiState) (headers : HeaderMap) (id : String) :
    ApiState × Response :=
  match rejectUnauthorized s headers with
  | some response => (s, response)
  | none =>
      match env.call .deleteTenant (s.redis.deleteTenant id) with
      | some (redis, true) => (s.written redis, { status := 204 })
      | some (_, false) => (s, .error 404 "unknown tenant")
      | none => (s, .storageError)

/-- `rotate_jwt_secret`. -/
def rotateJwtSecret (env : ApiEnv) (s : ApiState) (headers : HeaderMap) (id : String) :
    ApiState × Response :=
  match rejectUnauthorized s headers with
  | some response => (s, response)
  | none =>
      match env.call .getTenantById (s.redis.getTenantById id) with
      | some (some tenant) =>
          let tenant := { tenant with jwtSecret := some env.newJwtSecret }
          match env.call .updateTenant (s.redis.updateTenant tenant) with
          | some (redis, true) =>
              (s.written redis, .json 200 [("jwt_secret", .string env.newJwtSecret)])
          | some (_, false) => (s, .error 404 "unknown tenant")
          | none => (s, .storageError)
      | some none => (s, .error 404 "unknown tenant")
      | none => (s, .storageError)

end AdminApi

end Dendri
