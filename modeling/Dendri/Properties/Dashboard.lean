import Dendri.Handlers.Customer
import Dendri.Properties.Signature

/-!
The two guards of the APIs when no admin token is configured. `rejectUnauthorized`
takes an empty admin token for none; `sessionTenantId` and `exchangeMagic` take it
for a secret, with which anyone can sign.

* `Hs256.Signs`: what is assumed of the `jsonwebtoken` crate, and `plainHs256`, a
  scheme that has it;
* `session_of_signToken`: which tokens of the server are sessions, and how long;
* `Forgeable`: the tokens an outsider can build;
* `Closed`: no such token is accepted, and no request with one reads or changes a
  tenant;
* `dashboard_closed_iff`: the APIs are closed whenever the admin guard rejects all
  headers, unless the admin token is the empty text;
* `empty_token_opens`, `empty_token_forged`: with the empty text every tenant is
  open to everyone.
-/

namespace Dendri

/-! ### Signatures -/

/-- A text that can be sent in a header. -/
def VisibleText (s : String) : Prop := ∀ c ∈ s.toList, 32 ≤ c.toNat ∧ c.toNat < 127

/-- HS256 as the source relies on it: whoever has a secret can sign with it; a token
verifies with a secret just when it was signed with that one and is not expired, up
to the leeway of a minute; and tokens can be sent in a header. -/
structure Hs256.Signs (jwt : Hs256) (Signed : String → SessionClaims → String → Prop) :
    Prop where
  encode_signed : ∀ secret claims, ∃ token,
    jwt.encode secret claims = some token ∧ Signed secret claims token
  decode_iff : ∀ secret now token claims,
    jwt.decode secret now token = some claims ↔ Signed secret claims token ∧ now ≤ claims.exp + 60
  secret_unique : ∀ {secret secret' claims claims' token},
    Signed secret claims token → Signed secret' claims' token → secret = secret'
  visible : ∀ {secret claims token}, Signed secret claims token → VisibleText token

/-- A token an outsider can build: it is signed with no secret but the empty one. -/
def Forgeable (Signed : String → SessionClaims → String → Prop) (token : String) : Prop :=
  ∀ secret claims, Signed secret claims token → secret = ""

/-- The request has a credential of the APIs, an arbitrary header for an admin route
and a forgeable token for a dashboard route. -/
def PresentsForgeable (Signed : String → SessionClaims → String → Prop) : ApiRequest → Prop
  | .createTenant _ _ | .listTenants _ | .removeTenant _ _ | .rotateJwtSecret _ _ => True
  | .login _ | .requestMagicLink _ => False
  | .exchangeMagic token => Forgeable Signed token
  | .me headers | .rotateKey headers => ∀ token ∈ headers.bearer, Forgeable Signed token

/-- The admin guard rejects every header. -/
def RejectsAll (s : ApiState) : Prop := ∀ headers, (rejectUnauthorized s headers).isSome = true

/-- No token of an outsider is accepted, and no request with one reads or changes a
tenant. -/
structure Closed (jwt : Hs256) (Signed : String → SessionClaims → String → Prop)
    (cfg : MailConfig) (env : ApiEnv) (s : ApiState) : Prop where
  session : ∀ headers : HeaderMap, (∀ token ∈ headers.bearer, Forgeable Signed token) →
    sessionTenantId jwt env s headers = .error .unauthorized
  magic : ∀ token, Forgeable Signed token →
    (CustomerApi.exchangeMagic jwt env s token).status = 401 ∨
      (CustomerApi.exchangeMagic jwt env s token).status = 503
  served : ∀ request, PresentsForgeable Signed request → ∃ response,
    serve jwt cfg env s request = (s, response) ∧ 400 ≤ response.status

/-! ### Headers -/

/-- The headers with a bearer token. -/
def bearerHeader (token : String) : HeaderMap :=
  ⟨some (("Bearer " ++ token).toList.map fun c => UInt8.ofNat c.toNat)⟩

lemma isVisibleAscii_ofNat {n : ℕ} (h : 32 ≤ n) (h' : n < 127) :
    isVisibleAscii (UInt8.ofNat n) = true := by
  interval_cases n <;> rfl

lemma toStr_visibleText {s : String} (h : VisibleText s) :
    toStr (s.toList.map fun c => UInt8.ofNat c.toNat) = some s := by
  have hall : (s.toList.map fun c => UInt8.ofNat c.toNat).all isVisibleAscii = true := by
    rw [List.all_eq_true]
    intro b hb
    obtain ⟨c, hc, rfl⟩ := List.mem_map.mp hb
    exact isVisibleAscii_ofNat (h c hc).1 (h c hc).2
  rw [toStr, if_pos hall, List.map_map]
  have hchars :
      s.toList.map ((fun b : UInt8 => Char.ofNat b.toNat) ∘ fun c => UInt8.ofNat c.toNat) =
        s.toList := by
    conv_rhs => rw [← List.map_id s.toList]
    refine List.map_congr_left fun c hc => ?_
    have hlt : c.toNat < 256 := by have := (h c hc).2; omega
    rw [Function.comp_apply, UInt8.toNat_ofNat_of_lt' hlt, Char.ofNat_toNat, id]
  rw [hchars, String.ofList_toList]

lemma stripPrefix_append (start s : String) : stripPrefix (start ++ s) start = some s := by
  have hdrop : (start ++ s).toList.dropPrefix? start.toList = some s.toList :=
    List.dropPrefix?_eq_some_iff.mpr ⟨start.toList, by simp, beq_self_eq_true _⟩
  rw [stripPrefix, hdrop, Option.map_some, String.ofList_toList]

/-- The token of a bearer header is read back. -/
lemma bearer_bearerHeader {token : String} (h : VisibleText token) :
    (bearerHeader token).bearer = some token := by
  have hvisible : VisibleText ("Bearer " ++ token) := by
    intro c hc
    rw [String.toList_append, List.mem_append] at hc
    rcases hc with hc | hc
    · fin_cases hc <;> decide
    · exact h c hc
  rw [HeaderMap.bearer, bearerHeader, Option.bind_some, toStr_visibleText hvisible,
    Option.bind_some, stripPrefix_append]

/-! ### A scheme -/

/-- The parts with `&` between them, each percent-encoded. -/
def joinParts (parts : List String) : String := "&".intercalate (parts.map rfc3986)

/-- The parts of a text that `joinParts` made. -/
def splitParts (text : String) : Option (List String) :=
  (text.toList.splitOn '&').mapM fun part => percentDecode (String.ofList part)

/-- A token that has the secret it was signed with for a signature. -/
def plainToken (secret : String) (claims : SessionClaims) : String :=
  joinParts [secret, claims.sub, claims.purpose, String.ofList (Nat.toDigits 10 claims.exp)]

/-- The claims in a token. -/
def plainClaims (token : String) : Option SessionClaims :=
  match splitParts token with
  | some [_, sub, purpose, exp] => some ⟨sub, purpose, Nat.ofDigitChars 10 exp.toList 0⟩
  | _ => none

/-- The scheme of these tokens: a token is checked by signing its claims again. -/
def plainHs256 : Hs256 where
  encode secret claims := some (plainToken secret claims)
  decode secret now token :=
    (plainClaims token).filter fun claims =>
      decide (token = plainToken secret claims ∧ now ≤ claims.exp + 60)

/-- The token was signed with the secret for the claims. -/
def PlainSigned (secret : String) (claims : SessionClaims) (token : String) : Prop :=
  token = plainToken secret claims

lemma splitParts_joinParts {parts : List String} (hne : parts ≠ []) :
    splitParts (joinParts parts) = some parts := by
  have hsplit :
      (joinParts parts).toList.splitOn '&' = parts.map fun part => (rfc3986 part).toList := by
    rw [joinParts, String.toList_intercalate, List.map_map]
    refine List.splitOn_intercalate '&' (fun part hpart => ?_) (by simpa using hne)
    obtain ⟨s, -, rfl⟩ := List.mem_map.mp hpart
    exact (separator_notMem_rfc3986 s).2
  rw [splitParts, hsplit]
  clear hsplit hne
  induction parts with
  | nil => rfl
  | cons part parts ih =>
    rw [List.map_cons, List.mapM_cons, String.ofList_toList, percentDecode_rfc3986, ih]
    rfl

lemma plainClaims_plainToken (secret : String) (claims : SessionClaims) :
    plainClaims (plainToken secret claims) = some claims := by
  rw [plainClaims, plainToken, splitParts_joinParts (by simp)]
  simp

lemma unreserved_visible {b : UInt8} (h : PercentEncoding.unreserved b = true) :
    32 ≤ b.toNat ∧ b.toNat < 127 := by
  simp only [PercentEncoding.unreserved, Bool.or_eq_true, Bool.and_eq_true, decide_eq_true_eq,
    beq_iff_eq, UInt8.le_iff_toNat_le] at h
  rcases h with (((((h | h) | h) | rfl) | rfl) | rfl) | rfl
  all_goals simp at *
  all_goals omega

lemma visibleText_rfc3986 (s : String) : VisibleText (rfc3986 s) := by
  intro c hc
  rw [toList_rfc3986] at hc
  obtain ⟨b, -, hb⟩ := List.mem_flatMap.mp hc
  rcases PercentEncoding.mem_encodeByte hb with rfl | ⟨b', hfree, rfl⟩
  · decide
  · rw [PercentEncoding.toNat_ofNat_toNat]
    exact unreserved_visible hfree

lemma visibleText_joinParts (parts : List String) : VisibleText (joinParts parts) := by
  intro c hc
  rw [joinParts, String.toList_intercalate] at hc
  induction parts with
  | nil => cases hc
  | cons part rest ih =>
    cases rest with
    | nil =>
      rw [List.map_singleton, List.map_singleton, List.intercalate_singleton] at hc
      exact visibleText_rfc3986 part c hc
    | cons next rest =>
      rw [List.map_cons, List.map_cons, List.map_cons, List.map_cons, List.intercalate_cons_cons,
        List.append_assoc, List.mem_append, List.mem_append] at hc
      rcases hc with hc | hc | hc
      · exact visibleText_rfc3986 part c hc
      · rw [List.mem_singleton.mp hc]
        decide
      · exact ih hc

lemma plainHs256_signs : plainHs256.Signs PlainSigned where
  encode_signed secret claims := ⟨_, rfl, rfl⟩
  decode_iff secret now token claims := by
    change (plainClaims token).filter _ = some claims ↔ token = plainToken secret claims ∧ _
    rw [Option.filter_eq_some_iff, decide_eq_true_eq]
    refine ⟨fun h => h.2, fun h => ⟨?_, h⟩⟩
    rw [h.1, plainClaims_plainToken]
  secret_unique {secret secret' claims claims' token} hsigned hsigned' := by
    have hparts := congrArg splitParts (hsigned.symm.trans hsigned')
    rw [plainToken, plainToken, splitParts_joinParts (by simp), splitParts_joinParts (by simp)]
      at hparts
    exact (List.cons.inj (Option.some.inj hparts)).1
  visible {secret claims token} hsigned := by
    rw [hsigned]
    exact visibleText_joinParts _

/-! ### The guards -/

section

variable {jwt : Hs256} {Signed : String → SessionClaims → String → Prop} {env : ApiEnv}
  {s : ApiState}

/-- The admin guard rejects all headers just when there is no token to present. -/
lemma rejectsAll_iff :
    RejectsAll s ↔ ∀ token ∈ s.adminToken, token = "" ∨ ∀ headers : HeaderMap,
      headers.bearer ≠ some token := by
  constructor
  · intro h token htoken
    by_cases hempty : token = ""
    · exact Or.inl hempty
    · refine Or.inr fun headers hbearer => ?_
      have hreject := h headers
      rw [rejectUnauthorized, Option.mem_def.mp htoken, hbearer] at hreject
      have heq : constantTimeStrEq token token = true := constantTimeStrEq_iff.mpr rfl
      simp [hempty, heq] at hreject
  · intro h headers
    rw [rejectUnauthorized]
    by_cases hexpected : s.adminToken.getD "" = ""
    · simp [hexpected]
    · have hne : constantTimeStrEq (headers.bearer.getD "") (s.adminToken.getD "") = false := by
        rw [Bool.eq_false_iff]
        intro heq
        have hprovided := constantTimeStrEq_iff.mp heq
        cases htoken : s.adminToken with
        | none =>
          rw [htoken] at hexpected
          exact hexpected rfl
        | some token =>
          rw [htoken, Option.getD_some] at hexpected hprovided
          cases hbearer : headers.bearer with
          | none =>
            rw [hbearer] at hprovided
            exact hexpected hprovided.symm
          | some provided =>
            rw [hbearer, Option.getD_some] at hprovided
            rw [hprovided] at hbearer
            exact (h token htoken).elim hexpected fun hnone => hnone headers hbearer
      simp [hne]

/-- What the session guard accepts. -/
lemma sessionTenantId_eq_ok_iff {headers : HeaderMap} {id : String} :
    sessionTenantId jwt env s headers = .ok id ↔
      ∃ secret token claims, s.adminToken = some secret ∧ headers.bearer = some token ∧
        jwt.decode secret env.nowSecs token = some claims ∧ claims.purpose = "session" ∧
        claims.sub = id := by
  rw [sessionTenantId, signingSecret]
  cases s.adminToken with
  | none => simp
  | some secret =>
    cases headers.bearer with
    | none => simp
    | some token =>
      cases hdecode : jwt.decode secret env.nowSecs token with
      | none => simp [decodeToken, hdecode]
      | some claims =>
        by_cases hpurpose : claims.purpose = "session"
        · simp [decodeToken, hdecode, hpurpose]
        · simp [decodeToken, hdecode, hpurpose]

/-- What it does not accept gets the one response. -/
lemma eq_unauthorized_of_error {headers : HeaderMap} {response : Response}
    (h : sessionTenantId jwt env s headers = .error response) : response = .unauthorized := by
  rw [sessionTenantId] at h
  split at h
  · exact (Except.error.inj h).symm
  · split at h
    · exact (Except.error.inj h).symm
    · split at h
      · split_ifs at h
        exact (Except.error.inj h).symm
      · exact (Except.error.inj h).symm

/-- A token of an outsider verifies with the empty secret only. -/
lemma Hs256.Signs.eq_empty_of_decode (h : jwt.Signs Signed) {secret token : String} {now : ℕ}
    {claims : SessionClaims} (hforged : Forgeable Signed token)
    (hdecode : jwt.decode secret now token = some claims) : secret = "" :=
  hforged secret claims ((h.decode_iff secret now token claims).mp hdecode).1

/-- Everyone can sign with the empty secret. -/
lemma Hs256.Signs.forgeable_of_signed (h : jwt.Signs Signed) {token : String}
    {claims : SessionClaims} (hsigned : Signed "" claims token) :
    ∀ token' ∈ (bearerHeader token).bearer, Forgeable Signed token' := by
  intro token' htoken' secret claims' hother
  rw [bearer_bearerHeader (h.visible hsigned), Option.mem_some_iff] at htoken'
  rw [← htoken'] at hother
  exact h.secret_unique hother hsigned

/-- A session signed with the admin token is accepted, whoever signed it. -/
lemma Hs256.Signs.session_of_signed (h : jwt.Signs Signed) {secret token : String}
    {claims : SessionClaims} (hsigned : Signed secret claims token)
    (hsecret : s.adminToken = some secret) (hpurpose : claims.purpose = "session")
    (hnow : env.nowSecs ≤ claims.exp + 60) :
    sessionTenantId jwt env s (bearerHeader token) = .ok claims.sub :=
  sessionTenantId_eq_ok_iff.mpr ⟨secret, token, claims, hsecret,
    bearer_bearerHeader (h.visible hsigned), (h.decode_iff _ _ _ _).mpr ⟨hsigned, hnow⟩,
    hpurpose, rfl⟩

/-! ### Sessions -/

/-- A token has the claims it was signed with. -/
lemma Hs256.Signs.claims_unique (h : jwt.Signs Signed) {secret token : String}
    {claims claims' : SessionClaims} (hsigned : Signed secret claims token)
    (hsigned' : Signed secret claims' token) : claims = claims' := by
  have hdecode := (h.decode_iff secret 0 token claims).mpr ⟨hsigned, Nat.zero_le _⟩
  have hdecode' := (h.decode_iff secret 0 token claims').mpr ⟨hsigned', Nat.zero_le _⟩
  rw [hdecode] at hdecode'
  exact Option.some.inj hdecode'

lemma Hs256.Signs.signed_of_signToken (h : jwt.Signs Signed) {secret id purpose token : String}
    {ttl : ℕ} (htoken : signToken jwt env secret id purpose ttl = some token) :
    Signed secret ⟨id, purpose, env.nowSecs + ttl⟩ token := by
  obtain ⟨token', hencode, hsigned⟩ := h.encode_signed secret ⟨id, purpose, env.nowSecs + ttl⟩
  rw [signToken, hencode] at htoken
  rw [← Option.some.inj htoken]
  exact hsigned

/-- A token of the server is a session, and one of its tenant, just when it was
signed for one with the same admin token and has not expired. A magic link is never
a session. -/
theorem session_of_signToken (h : jwt.Signs Signed) {secret id purpose token : String} {ttl : ℕ}
    (htoken : signToken jwt env secret id purpose ttl = some token) (env' : ApiEnv) (id' : String) :
    sessionTenantId jwt env' s (bearerHeader token) = .ok id' ↔
      s.adminToken = some secret ∧ purpose = "session" ∧ id' = id ∧
        env'.nowSecs ≤ env.nowSecs + ttl + 60 := by
  have hsigned := h.signed_of_signToken htoken
  constructor
  · intro hsession
    obtain ⟨secret', token', claims, hsecret, hbearer, hdecode, hpurpose, rfl⟩ :=
      sessionTenantId_eq_ok_iff.mp hsession
    rw [bearer_bearerHeader (h.visible hsigned)] at hbearer
    obtain rfl := Option.some.inj hbearer
    obtain ⟨hother, hnow⟩ := (h.decode_iff _ _ _ _).mp hdecode
    obtain rfl := h.secret_unique hother hsigned
    obtain rfl := h.claims_unique hother hsigned
    exact ⟨hsecret, hpurpose, rfl, hnow⟩
  · rintro ⟨hsecret, hpurpose, rfl, hnow⟩
    exact h.session_of_signed hsigned hsecret hpurpose hnow

/-! ### Closed and open -/

/-- With another secret than the empty one, no session of an outsider is accepted. -/
lemma session_rejected (h : jwt.Signs Signed) (hne : s.adminToken ≠ some "") {headers : HeaderMap}
    (hforged : ∀ token ∈ headers.bearer, Forgeable Signed token) :
    sessionTenantId jwt env s headers = .error .unauthorized := by
  cases hresult : sessionTenantId jwt env s headers with
  | error response => rw [eq_unauthorized_of_error hresult]
  | ok id =>
    obtain ⟨secret, token, claims, hsecret, hbearer, hdecode, -, -⟩ :=
      sessionTenantId_eq_ok_iff.mp hresult
    have hempty := h.eq_empty_of_decode (hforged token hbearer) hdecode
    rw [hempty] at hsecret
    exact absurd hsecret hne

/-- Nor is a magic link. -/
lemma magic_rejected (h : jwt.Signs Signed) (hne : s.adminToken ≠ some "") (env : ApiEnv)
    {token : String} (hforged : Forgeable Signed token) :
    CustomerApi.exchangeMagic jwt env s token = CustomerApi.notConfigured ∨
      CustomerApi.exchangeMagic jwt env s token = .error 401 "invalid or expired link" := by
  rw [CustomerApi.exchangeMagic, signingSecret]
  cases hsecret : s.adminToken with
  | none => exact Or.inl rfl
  | some secret =>
    have hdecode : decodeToken jwt env secret token = none := by
      rw [Option.eq_none_iff_forall_ne_some]
      intro claims hclaims
      rw [h.eq_empty_of_decode hforged hclaims] at hsecret
      exact hne hsecret
    exact Or.inr (by simp only [hdecode])

/-- The admin guard has one response. -/
lemma RejectsAll.eq_unauthorized (hall : RejectsAll s) (headers : HeaderMap) :
    rejectUnauthorized s headers = some .unauthorized := by
  have hreject := hall headers
  rw [rejectUnauthorized] at hreject ⊢
  split_ifs at hreject ⊢ with hcondition
  · rfl
  · cases hreject

/-- A request that its guard rejects leaves the state as it is. -/
lemma handle_of_rejected (h : jwt.Signs Signed) (hne : s.adminToken ≠ some "")
    (hall : RejectsAll s) (cfg : MailConfig) {request : ApiRequest}
    (hforged : PresentsForgeable Signed request) : ∃ response,
      handle jwt cfg env s request = (s, response) ∧ 400 ≤ response.status := by
  cases request with
  | createTenant headers req =>
    exact ⟨.unauthorized, by rw [handle, AdminApi.createTenant, hall.eq_unauthorized], by decide⟩
  | listTenants headers =>
    exact ⟨.unauthorized, by rw [handle, AdminApi.listTenants, hall.eq_unauthorized], by decide⟩
  | removeTenant headers id =>
    exact ⟨.unauthorized, by rw [handle, AdminApi.removeTenant, hall.eq_unauthorized], by decide⟩
  | rotateJwtSecret headers id =>
    exact ⟨.unauthorized, by rw [handle, AdminApi.rotateJwtSecret, hall.eq_unauthorized],
      by decide⟩
  | login apiKey => exact hforged.elim
  | requestMagicLink email => exact hforged.elim
  | exchangeMagic token =>
    rcases magic_rejected h hne env hforged with hresponse | hresponse
    · exact ⟨CustomerApi.notConfigured, by rw [handle, hresponse], by decide⟩
    · exact ⟨.error 401 "invalid or expired link", by rw [handle, hresponse], by decide⟩
  | me headers =>
    exact ⟨.unauthorized, by rw [handle, CustomerApi.me, session_rejected h hne hforged],
      by decide⟩
  | rotateKey headers =>
    exact ⟨.unauthorized, by rw [handle, CustomerApi.rotateKey, session_rejected h hne hforged],
      by decide⟩

lemma serve_of_rejected (h : jwt.Signs Signed) (hne : s.adminToken ≠ some "")
    (hall : RejectsAll s) (cfg : MailConfig) {request : ApiRequest}
    (hforged : PresentsForgeable Signed request) : ∃ response,
      serve jwt cfg env s request = (s, response) ∧ 400 ≤ response.status := by
  rw [serve]
  split_ifs
  · exact handle_of_rejected h hne hall cfg hforged
  · exact ⟨_, rfl, by decide⟩

lemma closed_of_rejectsAll (h : jwt.Signs Signed) (hne : s.adminToken ≠ some "")
    (hall : RejectsAll s) (cfg : MailConfig) : Closed jwt Signed cfg env s where
  session _ hforged := session_rejected h hne hforged
  magic token hforged := by
    rcases magic_rejected h hne env hforged with hresponse | hresponse
    · exact Or.inr (by rw [hresponse]; rfl)
    · exact Or.inl (by rw [hresponse]; rfl)
  served _ hforged := serve_of_rejected h hne hall cfg hforged

/-- With the empty secret everyone has a session for every tenant. -/
lemma exists_forged_session (h : jwt.Signs Signed) (hempty : s.adminToken = some "") (env : ApiEnv)
    (id : String) : ∃ headers : HeaderMap, (∀ token ∈ headers.bearer, Forgeable Signed token) ∧
      sessionTenantId jwt env s headers = .ok id := by
  obtain ⟨token, -, hsigned⟩ := h.encode_signed "" ⟨id, "session", env.nowSecs⟩
  exact ⟨bearerHeader token, h.forgeable_of_signed hsigned,
    h.session_of_signed hsigned hempty rfl (Nat.le_add_right _ _)⟩

lemma TenantStore.rotateApiKey_of_getTenantById {store : TenantStore} {id : String}
    {tenant : Tenant} (h : store.getTenantById id = some tenant) (newHash : String) :
    ∃ oldHash, store.byId.lookup id = some oldHash ∧
      store.rotateApiKey id newHash = (store.moveKey id oldHash newHash tenant, true) := by
  rw [getTenantById] at h
  cases hhash : store.byId.lookup id with
  | none =>
    rw [hhash] at h
    cases h
  | some oldHash =>
    rw [hhash] at h
    exact ⟨oldHash, rfl, by rw [rotateApiKey, hhash]; simp only [h]⟩

/-- With it, every tenant can be read and have its key rotated by an outsider, while
the admin routes are closed. -/
theorem empty_token_opens (h : jwt.Signs Signed) (hempty : s.adminToken = some "")
    (cfg : MailConfig) {env : ApiEnv} (hredis : ∀ call, env.redisOk call = true) {id : String}
    {tenant : Tenant} (htenant : s.redis.getTenantById id = some tenant) :
    ∃ headers : HeaderMap, (∀ token ∈ headers.bearer, Forgeable Signed token) ∧
      serve jwt cfg env s (.me headers) =
        (s, .json 200 [("tenant", CustomerApi.tenantView tenant)]) ∧
      ∃ oldHash, s.redis.byId.lookup id = some oldHash ∧
        serve jwt cfg env s (.rotateKey headers) =
          (s.written (s.redis.moveKey id oldHash (env.hashApiKey env.newApiKey) tenant),
            .json 200 [("api_key", .string env.newApiKey)]) := by
  obtain ⟨headers, hforged, hsession⟩ := exists_forged_session h hempty env id
  obtain ⟨oldHash, hold, hrotate⟩ :=
    TenantStore.rotateApiKey_of_getTenantById htenant (env.hashApiKey env.newApiKey)
  have hmounted : s.adminToken.isSome = true := by rw [hempty]; rfl
  refine ⟨headers, hforged, ?_, oldHash, hold, ?_⟩
  · rw [serve, if_pos hmounted, handle, CustomerApi.me, hsession]
    simp only [ApiEnv.call, hredis, htenant, if_true]
  · rw [serve, if_pos hmounted, handle, CustomerApi.rotateKey, hsession]
    simp only [ApiEnv.call, hredis, hrotate, if_true]

/-- The APIs are closed to outsiders whenever the admin guard rejects all headers,
unless the admin token is the empty text. -/
theorem dashboard_closed_iff (h : jwt.Signs Signed) (cfg : MailConfig) (env : ApiEnv)
    (s : ApiState) : (RejectsAll s → Closed jwt Signed cfg env s) ↔ s.adminToken ≠ some "" := by
  constructor
  · intro hclosed hempty
    have hall : RejectsAll s := rejectsAll_iff.mpr fun token htoken => by
      rw [hempty, Option.mem_some_iff] at htoken
      exact Or.inl htoken.symm
    obtain ⟨headers, hforged, hsession⟩ := exists_forged_session h hempty env "t_acme"
    have hrejected := (hclosed hall).session headers hforged
    rw [hsession] at hrejected
    cases hrejected
  · intro hne hall
    exact closed_of_rejectsAll h hne hall cfg

end

/-- The tenant `t_acme`. -/
def acmeTenant : Tenant := { id := "t_acme", name := "Acme" }

/-- A server with one tenant and the given admin token. -/
def acmeApi (adminToken : Option String) : ApiState where
  adminToken := adminToken
  redis := (⟨∅, ∅, ∅⟩ : TenantStore).createTenant acmeTenant "h0"
  tenantCache := ⟨∅⟩

/-- A request at second one, with a Redis that answers. -/
def acmeEnv : ApiEnv where
  now := 1000
  order := SetOrder.sorted String
  redisOk _ := true
  hashApiKey key := "h" ++ key
  newTenantId := "t_new"
  newApiKey := "dk_new"
  newJwtSecret := "jwt_new"

/-- No mail is sent. -/
def noMail : MailConfig := ⟨none, "https://app.dendri.dev", "https://dendri.dev"⟩

/-- The header an outsider makes up. -/
def forgedHeader : HeaderMap := bearerHeader (plainToken "" ⟨"t_acme", "session", 1000⟩)

theorem dashboard_closed_unset :
    RejectsAll (acmeApi none) ∧ Closed plainHs256 PlainSigned noMail acmeEnv (acmeApi none) :=
  have hall : RejectsAll (acmeApi none) := fun _ => rfl
  ⟨hall, (dashboard_closed_iff plainHs256_signs noMail acmeEnv (acmeApi none)).mpr
    (by decide) hall⟩

/-- With the empty admin token the admin routes are closed, and the session of an
outsider reads the tenant. -/
theorem empty_token_forged :
    RejectsAll (acmeApi (some "")) ∧
      (∀ token ∈ forgedHeader.bearer, Forgeable PlainSigned token) ∧
      sessionTenantId plainHs256 acmeEnv (acmeApi (some "")) forgedHeader = .ok "t_acme" ∧
      serve plainHs256 noMail acmeEnv (acmeApi (some "")) (.me forgedHeader) =
        (acmeApi (some ""), .json 200 [("tenant", CustomerApi.tenantView acmeTenant)]) ∧
      ¬ (RejectsAll (acmeApi (some "")) →
        Closed plainHs256 PlainSigned noMail acmeEnv (acmeApi (some ""))) := by
  have hsigned : PlainSigned "" ⟨"t_acme", "session", 1000⟩
      (plainToken "" ⟨"t_acme", "session", 1000⟩) := rfl
  have hforged : ∀ token ∈ forgedHeader.bearer, Forgeable PlainSigned token :=
    plainHs256_signs.forgeable_of_signed hsigned
  have hsession :
      sessionTenantId plainHs256 acmeEnv (acmeApi (some "")) forgedHeader = .ok "t_acme" :=
    plainHs256_signs.session_of_signed hsigned rfl rfl (by decide)
  have hall : RejectsAll (acmeApi (some "")) := fun _ => rfl
  refine ⟨hall, hforged, hsession, ?_, fun hclosed => ?_⟩
  · have hmounted : (acmeApi (some "")).adminToken.isSome = true := rfl
    rw [serve, if_pos hmounted, handle, CustomerApi.me, hsession]
    rfl
  · have hrejected := (hclosed hall).session forgedHeader hforged
    rw [hsession] at hrejected
    cases hrejected

end Dendri
