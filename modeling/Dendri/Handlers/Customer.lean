import Dendri.Handlers.Admin
import Dendri.Server.Email

/-!
`handlers/customer.rs`: the API of the dashboard, and the mounting of both APIs in
`main.rs`.

* `Hs256`: the `jsonwebtoken` crate, which is not part of the source;
* `signToken`, `decodeToken`, `sessionTenantId`: session tokens, signed with the
  admin token;
* `login`, `requestMagicLink`, `exchangeMagic`, `me`, `rotateKey`: the handlers;
* `ApiRequest`, `serve`: the routes, which exist only if there is an admin token.
-/

namespace Dendri

/-! ### Session tokens -/

/-- `SessionClaims`. -/
structure SessionClaims where
  sub : String
  purpose : String := ""
  exp : ℕ
  deriving DecidableEq, Repr

/-- `jsonwebtoken::encode` with a secret, and `jsonwebtoken::decode` with a secret
at a time in seconds, both for HS256. -/
structure Hs256 where
  encode : String → SessionClaims → Option String
  decode : String → ℕ → String → Option SessionClaims

/-- `SESSION_TTL_SECS`. -/
def sessionTtlSecs : ℕ := 7 * 24 * 60 * 60

/-- `MAGIC_TTL_SECS`. -/
def magicTtlSecs : ℕ := 15 * 60

/-- `now_secs`. -/
def ApiEnv.nowSecs (env : ApiEnv) : ℕ := env.now / 1000

/-- `sign_token`. -/
def signToken (jwt : Hs256) (env : ApiEnv) (secret tenantId purpose : String) (ttl : ℕ) :
    Option String :=
  jwt.encode secret { sub := tenantId, purpose, exp := env.nowSecs + ttl }

/-- `decode_token`. -/
def decodeToken (jwt : Hs256) (env : ApiEnv) (secret token : String) : Option SessionClaims :=
  jwt.decode secret env.nowSecs token

/-- `signing_secret`. -/
def signingSecret (s : ApiState) : Option String := s.adminToken

/-- `sign_session`. -/
def signSession (jwt : Hs256) (env : ApiEnv) (secret tenantId : String) : Option String :=
  signToken jwt env secret tenantId "session" sessionTtlSecs

/-- `session_tenant_id`. -/
def sessionTenantId (jwt : Hs256) (env : ApiEnv) (s : ApiState) (headers : HeaderMap) :
    Except Response String :=
  match signingSecret s with
  | none => .error .unauthorized
  | some secret =>
      match headers.bearer with
      | none => .error .unauthorized
      | some token =>
          match decodeToken jwt env secret token with
          | some claims =>
              if claims.purpose = "session" then .ok claims.sub else .error .unauthorized
          | none => .error .unauthorized

/-! ### Magic links -/

/-- The part of the configuration and of the state a magic link is made with. -/
structure MailConfig where
  mailer : Option Mailer
  dashboardUrl : String
  websiteUrl : String

/-- A mail that is handed to `Mailer::send`. -/
structure Mail where
  toAddress : String
  subject : String
  html : String

/-- `char::is_control`. -/
def isControl (c : Char) : Bool := c.toNat < 32 || (127 ≤ c.toNat && c.toNat < 160)

/-- `plausible_email`. -/
def plausibleEmail (email : String) : Bool :=
  if email.utf8ByteSize < 3 || 254 < email.utf8ByteSize then false
  else if email.toList.any fun c => isWhitespace c || isControl c then false
  else
    match email.toList.dropWhile (· ≠ '@') with
    | [] => false
    | _ :: domain =>
        !(email.toList.takeWhile (· ≠ '@')).isEmpty && domain.contains '.' &&
          !domain.contains '@' && domain.head? != some '.' && domain.getLast? != some '.'

/-- `NO_ACCOUNT_COOLDOWN_SECS`. -/
def noAccountCooldownSecs : ℕ := 10 * 60

/-- `no_account_cooldown_key`. -/
def noAccountCooldownKey (email : String) : String :=
  "auth:no-account:" ++ String.ofList (email.toList.map toAsciiLowercase)

/-- `acquire_no_account_slot`: `SET` with `EX` and `NX`. -/
def acquireNoAccountSlot (env : ApiEnv) (s : ApiState) (email : String) : ApiState × Bool :=
  let key := noAccountCooldownKey email
  if env.redisOk .acquireNoAccountSlot && (s.noAccount.lookup key).all (· ≤ env.now) then
    ({ s with noAccount := s.noAccount.insert key (env.now + 1000 * noAccountCooldownSecs) }, true)
  else (s, false)

/-- `no_account_email_html`. -/
def noAccountEmailHtml (websiteUrl dashboardUrl : String) : String :=
  "<p>You requested a sign-in link for the Dendri dashboard, but this email " ++
  "address doesn't have a hosted account yet.</p>" ++
  "<p><strong>To get one:</strong> choose a hosted plan on the " ++
  "<a href=\"" ++ websiteUrl ++ "/pricing/\">Dendri pricing page</a>. After checkout " ++
  "your API key arrives by email, and you can sign in at the " ++
  "<a href=\"" ++ dashboardUrl ++ "\">Dendri dashboard</a> with this address.</p>" ++
  "<p>Prefer to run it yourself? The Dendri server is open source and free " ++
  "forever — follow the " ++
  "<a href=\"" ++ websiteUrl ++ "/docs/self-hosting/\">self-hosting guide</a>.</p>" ++
  "<p>If you didn't request this, you can ignore this email.</p>"

/-- The body of the mail with a magic link. -/
def magicLinkHtml (link : String) : String :=
  "<p>Click to sign in to your Dendri dashboard. This link expires in 15 minutes.</p>" ++
  "<p><a href=\"" ++ link ++ "\">Sign in to Dendri</a></p>" ++
  "<p>If you didn't request this, you can ignore this email.</p>"

/-- `trim_end_matches('/')`. -/
def trimEndSlash (s : String) : String :=
  String.ofList (s.toList.reverse.dropWhile (· = '/')).reverse

/-! ### The handlers -/

namespace CustomerApi

/-- `tenant_view`. -/
def tenantView (t : Tenant) : Value :=
  .object [("id", .string t.id), ("name", .string t.name), ("email", optString t.email),
    ("active", .bool t.active), ("max_rooms", .number t.maxRooms.repr),
    ("max_peers", .number t.maxPeers.repr)]

/-- The end of `login` and of `exchange_magic`. -/
def issueSession (jwt : Hs256) (env : ApiEnv) (secret : String) (tenant : Tenant) : Response :=
  match signSession jwt env secret tenant.id with
  | some token => .json 200 [("token", .string token), ("tenant", tenantView tenant)]
  | none => .error 500 "could not issue session"

/-- The response without a signing secret. -/
def notConfigured : Response := .error 503 "dashboard not configured"

/-- `resolve_api_key`, which takes a Redis error for an unknown key. -/
def resolve (env : ApiEnv) (s : ApiState) (apiKey : String) : TenantCache × Option Tenant :=
  let hash := env.hashApiKey apiKey
  if env.redisOk .resolveApiKey then resolveApiKey s.redis s.tenantCache env.now hash
  else resolveApiKey { s.redis with byHash := ∅ } s.tenantCache env.now hash

/-- `login`. -/
def login (jwt : Hs256) (env : ApiEnv) (s : ApiState) (apiKey : String) : ApiState × Response :=
  match signingSecret s with
  | none => (s, notConfigured)
  | some secret =>
      let (cache, tenant) := resolve env s apiKey
      let s := { s with tenantCache := cache }
      match tenant with
      | some tenant => (s, issueSession jwt env secret tenant)
      | none => (s, .error 401 "invalid api key")

/-- The response of `request_magic_link`, whatever the address. -/
def generic : Response :=
  .json 200 [("message", .string "Check your inbox for an email from Dendri.")]

/-- `request_magic_link`, with the mail it hands to the mailer. -/
def requestMagicLink (jwt : Hs256) (cfg : MailConfig) (env : ApiEnv) (s : ApiState)
    (address : String) : ApiState × Option Mail :=
  match signingSecret s, cfg.mailer with
  | some secret, some _ =>
      let email := trim address
      if plausibleEmail email then
        match env.call .getTenantIdByEmail (s.redis.getTenantIdByEmail email) with
        | some (some tenantId) =>
            (s, (signToken jwt env secret tenantId "magic" magicTtlSecs).map fun token =>
              ⟨email, "Sign in to Dendri",
                magicLinkHtml (trimEndSlash cfg.dashboardUrl ++ "/#magic=" ++ token)⟩)
        | some none =>
            let (s, acquired) := acquireNoAccountSlot env s email
            if acquired then
              (s, some ⟨email, "Sign in to Dendri — no account found",
                noAccountEmailHtml (trimEndSlash cfg.websiteUrl) (trimEndSlash cfg.dashboardUrl)⟩)
            else (s, none)
        | none => (s, none)
      else (s, none)
  | _, _ => (s, none)

/-- `exchange_magic`. -/
def exchangeMagic (jwt : Hs256) (env : ApiEnv) (s : ApiState) (token : String) : Response :=
  match signingSecret s with
  | none => notConfigured
  | some secret =>
      match decodeToken jwt env secret token with
      | some claims =>
          if claims.purpose = "magic" then
            match env.call .getTenantById (s.redis.getTenantById claims.sub) with
            | some (some tenant) => issueSession jwt env secret tenant
            | _ => .error 404 "account not found"
          else .error 401 "invalid or expired link"
      | none => .error 401 "invalid or expired link"

/-- `me`. -/
def me (jwt : Hs256) (env : ApiEnv) (s : ApiState) (headers : HeaderMap) : Response :=
  match sessionTenantId jwt env s headers with
  | .error response => response
  | .ok tenantId =>
      match env.call .getTenantById (s.redis.getTenantById tenantId) with
      | some (some tenant) => .json 200 [("tenant", tenantView tenant)]
      | some none => .error 404 "tenant not found"
      | none => .storageError

/-- `rotate_key`. -/
def rotateKey (jwt : Hs256) (env : ApiEnv) (s : ApiState) (headers : HeaderMap) :
    ApiState × Response :=
  match sessionTenantId jwt env s headers with
  | .error response => (s, response)
  | .ok tenantId =>
      let newHash := env.hashApiKey env.newApiKey
      match env.call .rotateApiKey (s.redis.rotateApiKey tenantId newHash) with
      | some (redis, true) => (s.written redis, .json 200 [("api_key", .string env.newApiKey)])
      | some (_, false) => (s, .error 404 "tenant not found")
      | none => (s, .storageError)

end CustomerApi

/-! ### The routes -/

/-- A request to one of the two APIs. -/
inductive ApiRequest where
  | createTenant (headers : HeaderMap) (req : AdminApi.CreateTenantRequest)
  | listTenants (headers : HeaderMap)
  | removeTenant (headers : HeaderMap) (id : String)
  | rotateJwtSecret (headers : HeaderMap) (id : String)
  | login (apiKey : String)
  | requestMagicLink (email : String)
  | exchangeMagic (token : String)
  | me (headers : HeaderMap)
  | rotateKey (headers : HeaderMap)

/-- The handler of a route. -/
def handle (jwt : Hs256) (cfg : MailConfig) (env : ApiEnv) (s : ApiState) :
    ApiRequest → ApiState × Response
  | .createTenant headers req => AdminApi.createTenant env s headers req
  | .listTenants headers => (s, AdminApi.listTenants env s headers)
  | .removeTenant headers id => AdminApi.removeTenant env s headers id
  | .rotateJwtSecret headers id => AdminApi.rotateJwtSecret env s headers id
  | .login apiKey => CustomerApi.login jwt env s apiKey
  | .requestMagicLink email =>
      ((CustomerApi.requestMagicLink jwt cfg env s email).1, CustomerApi.generic)
  | .exchangeMagic token => (s, CustomerApi.exchangeMagic jwt env s token)
  | .me headers => (s, CustomerApi.me jwt env s headers)
  | .rotateKey headers => CustomerApi.rotateKey jwt env s headers

/-- The router of `main`: both APIs are mounted if there is an admin token, and the
fallback answers otherwise. -/
def serve (jwt : Hs256) (cfg : MailConfig) (env : ApiEnv) (s : ApiState) (request : ApiRequest) :
    ApiState × Response :=
  if s.adminToken.isSome then handle jwt cfg env s request else (s, .error 404 "Not Found")

end Dendri
