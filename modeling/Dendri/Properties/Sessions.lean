import Dendri.Lib.Transition
import Dendri.Properties.Dashboard

/-!
Where the sessions of the dashboard come from. The server keeps no list of sessions: a
session is a text that it once signed, and so is a magic link.

* `Mail.linkToken`: the token of the link in a mail, read off its text;
* `Grant`, `grants`: the tokens in the response to a request and in the mail that it causes,
  with what they were given for;
* `Unforged`: a request presents no token under the admin secret but those handed out before,
  which is what keeping the secret comes to;
* `requestMagicLink_cases`: what a request by email does;
* `signed_of_mem_grants`: every grant is signed, for a link or for a session;
* `Backed`: who is let in. A session is accepted for a week and a minute after it was granted
  whatever happened since, a magic link any number of times for a quarter of an hour and a
  minute while the account is there, and a session for a link came after the link was mailed;
* `sessions_backed`: this holds at every request of every run.
-/

namespace Dendri

open Transition

/-! ### Grants -/

/-- What a token was given for: an API key, a magic link or a request by email. -/
inductive Ground where
  | key (apiKey : String)
  | link (token : String)
  | mailbox (address : String)

/-- A token that the server hands out, with its tenant, and when, in seconds. -/
structure Grant where
  ground : Ground
  tenantId : String
  token : String
  time : ℕ

/-- What a token for a ground is for: to be a magic link, or a session. -/
def Ground.purpose : Ground → String
  | .mailbox _ => "magic"
  | _ => "session"

/-- How long a token is meant to be good for, in seconds. -/
def Ground.ttl : Ground → ℕ
  | .mailbox _ => magicTtlSecs
  | _ => sessionTtlSecs

/-- The claims of a grant. -/
def Grant.claims (g : Grant) : SessionClaims := ⟨g.tenantId, g.ground.purpose, g.time + g.ground.ttl⟩

/-- The token is accepted at a time: it has not expired, or did so within the last minute, the
leeway that `jsonwebtoken` allows. -/
def Grant.GoodAt (g : Grant) (now : ℕ) : Prop := now ≤ g.time + g.ground.ttl + 60

/-- The session in a response: its tenant and its token. -/
def Response.session (r : Response) : Option (String × String) :=
  (r.body.bind fun body => body.get "token").bind fun token =>
    (r.body.bind fun body => body.get "tenant").bind fun tenant =>
      token.asStr.bind fun token =>
        ((tenant.get "id").bind Value.asStr).map fun id => (id, token)

/-- What stands in the mail with a magic link before its token. -/
def linkHead (cfg : MailConfig) : String :=
  "<p>Click to sign in to your Dendri dashboard. This link expires in 15 minutes.</p>" ++
  "<p><a href=\"" ++ trimEndSlash cfg.dashboardUrl ++ "/#magic="

/-- What stands in the mail with a magic link after its token. -/
def linkTail : String :=
  "\">Sign in to Dendri</a></p>" ++
  "<p>If you didn't request this, you can ignore this email.</p>"

/-- The part of a text between the given beginning and end. -/
def between (head tail text : String) : Option String :=
  ((text.toList.dropPrefix? head.toList).bind fun rest =>
    rest.dropSuffix? tail.toList).map String.ofList

/-- The token of the link in a mail, as its reader finds it. -/
def Mail.linkToken (cfg : MailConfig) (mail : Mail) : Option String :=
  between (linkHead cfg) linkTail mail.html

/-- What a mail grants: the token of its link, for the tenant of its address. -/
def Mail.grant (cfg : MailConfig) (env : ApiEnv) (s : ApiState) (mail : Mail) : Option Grant :=
  (mail.linkToken cfg).bind fun token =>
    (s.redis.getTenantIdByEmail mail.toAddress).map fun id =>
      ⟨.mailbox mail.toAddress, id, token, env.nowSecs⟩

/-- The tokens in the response to a request, and in the mail that it causes. -/
def grants (jwt : Hs256) (cfg : MailConfig) (env : ApiEnv) (s : ApiState) :
    ApiRequest → List Grant
  | .login apiKey =>
      ((CustomerApi.login jwt env s apiKey).2.session.map fun p =>
        ⟨.key apiKey, p.1, p.2, env.nowSecs⟩).toList
  | .exchangeMagic token =>
      ((CustomerApi.exchangeMagic jwt env s token).session.map fun p =>
        ⟨.link token, p.1, p.2, env.nowSecs⟩).toList
  | .requestMagicLink address =>
      ((CustomerApi.requestMagicLink jwt cfg env s address).2.bind (Mail.grant cfg env s)).toList
  | _ => []

/-- The token that a request presents to the dashboard. -/
def presented : ApiRequest → Option String
  | .exchangeMagic token => some token
  | .me headers | .rotateKey headers => headers.bearer
  | _ => none

/-- A request, and what it finds besides the state. -/
structure ApiLabel where
  env : ApiEnv
  request : ApiRequest

/-- The requests one after the other, with a record of the tokens handed out. Both APIs are
mounted. -/
def apiStep (jwt : Hs256) (cfg : MailConfig) :
    ApiState × List Grant → ApiLabel → Option (ApiState × List Grant) :=
  withRecord (fun s l => some (handle jwt cfg l.env s l.request).1)
    fun s l => grants jwt cfg l.env s l.request

section

variable {jwt : Hs256} {Signed : String → SessionClaims → String → Prop} {cfg : MailConfig}
  {env : ApiEnv} {s : ApiState}

/-- A token that is signed with the admin secret and presented was handed out before. -/
def Unforged (Signed : String → SessionClaims → String → Prop) (w : ApiState × List Grant)
    (l : ApiLabel) : Prop :=
  ∀ secret token claims, signingSecret w.1 = some secret → presented l.request = some token →
    Signed secret claims token → ∃ g ∈ w.2, g.token = token

/-! ### What is granted -/

lemma session_error (status : ℕ) (text : String) : (Response.error status text).session = none :=
  rfl

/-- A response with a session comes of a tenant and of the signature of a session for it. -/
lemma session_issueSession {secret id token : String} {tenant : Tenant} :
    (CustomerApi.issueSession jwt env secret tenant).session = some (id, token) ↔
      tenant.id = id ∧ signToken jwt env secret id "session" sessionTtlSecs = some token := by
  rw [CustomerApi.issueSession, signSession]
  cases hsign : signToken jwt env secret tenant.id "session" sessionTtlSecs with
  | none =>
      refine ⟨fun h => absurd h (by simp [session_error]), fun h => ?_⟩
      obtain ⟨rfl, htoken⟩ := h
      exact absurd (hsign.symm.trans htoken) (by simp)
  | some token' =>
      have hsession : (Response.json 200 [("token", .string token'),
          ("tenant", CustomerApi.tenantView tenant)]).session = some (tenant.id, token') := rfl
      dsimp only
      rw [hsession, Option.some.injEq, Prod.mk.injEq]
      constructor
      · rintro ⟨rfl, rfl⟩
        exact ⟨rfl, hsign⟩
      · rintro ⟨rfl, htoken⟩
        exact ⟨rfl, Option.some.inj (hsign.symm.trans htoken)⟩

/-- A login with a session. -/
lemma session_login {apiKey id token : String}
    (h : (CustomerApi.login jwt env s apiKey).2.session = some (id, token)) :
    ∃ secret tenant, signingSecret s = some secret ∧
      (CustomerApi.resolve env s apiKey).2 = some tenant ∧ tenant.id = id ∧
      signToken jwt env secret id "session" sessionTtlSecs = some token := by
  rw [CustomerApi.login] at h
  cases hsecret : signingSecret s with
  | none => rw [hsecret] at h; exact absurd h (by simp [CustomerApi.notConfigured, session_error])
  | some secret =>
      rw [hsecret] at h
      dsimp only at h
      cases htenant : (CustomerApi.resolve env s apiKey).2 with
      | none => rw [htenant] at h; exact absurd h (by simp [session_error])
      | some tenant =>
          rw [htenant] at h
          exact ⟨secret, tenant, rfl, rfl, session_issueSession.mp h⟩

/-- An exchange with a session, read off the claims of the link. -/
lemma session_exchangeMagic {link id token : String} :
    (CustomerApi.exchangeMagic jwt env s link).session = some (id, token) ↔
      ∃ secret claims tenant, signingSecret s = some secret ∧
        jwt.decode secret env.nowSecs link = some claims ∧ claims.purpose = "magic" ∧
        env.redisOk .getTenantById = true ∧ s.redis.getTenantById claims.sub = some tenant ∧
        tenant.id = id ∧ signToken jwt env secret id "session" sessionTtlSecs = some token := by
  rw [CustomerApi.exchangeMagic]
  cases hsecret : signingSecret s with
  | none => simp [CustomerApi.notConfigured, session_error]
  | some secret =>
      dsimp only
      rw [decodeToken]
      cases hdecode : jwt.decode secret env.nowSecs link with
      | none => simp [session_error, hdecode]
      | some claims =>
          dsimp only
          by_cases hpurpose : claims.purpose = "magic"
          · rw [if_pos hpurpose, ApiEnv.call]
            by_cases hok : env.redisOk .getTenantById = true
            · rw [if_pos hok]
              cases htenant : s.redis.getTenantById claims.sub with
              | none =>
                  dsimp only
                  simp only [session_error]
                  constructor
                  · exact fun h => absurd h (by simp)
                  · rintro ⟨secret', claims', tenant, hsecret', hclaims, -, -, hfound, -⟩
                    obtain rfl := Option.some.inj hsecret'
                    rw [← Option.some.inj (hdecode.symm.trans hclaims), htenant] at hfound
                    exact absurd hfound (by simp)
              | some tenant =>
                  dsimp only
                  rw [session_issueSession]
                  constructor
                  · rintro ⟨hid, htoken⟩
                    exact ⟨secret, claims, tenant, rfl, hdecode, hpurpose, hok, htenant, hid, htoken⟩
                  · rintro ⟨secret', claims', tenant', hsecret', hclaims, -, -, hfound, hid, htoken⟩
                    obtain rfl := Option.some.inj hsecret'
                    obtain rfl := Option.some.inj (hdecode.symm.trans hclaims)
                    obtain rfl := Option.some.inj (htenant.symm.trans hfound)
                    exact ⟨hid, htoken⟩
            · rw [if_neg hok]
              simp only [session_error]
              constructor
              · exact fun h => absurd h (by simp)
              · rintro ⟨_, _, _, -, -, -, hok', -⟩
                exact absurd hok' hok
          · rw [if_neg hpurpose]
            simp only [session_error]
            constructor
            · exact fun h => absurd h (by simp)
            · rintro ⟨secret', claims', tenant, hsecret', hclaims, hpurpose', -⟩
              obtain rfl := Option.some.inj hsecret'
              rw [← Option.some.inj (hdecode.symm.trans hclaims)] at hpurpose'
              exact absurd hpurpose' hpurpose

/-! ### Mails -/

/-- The mail with a magic link. -/
def linkMail (cfg : MailConfig) (address token : String) : Mail :=
  ⟨address, "Sign in to Dendri",
    magicLinkHtml (trimEndSlash cfg.dashboardUrl ++ "/#magic=" ++ token)⟩

/-- The mail that there is no account. -/
def noAccountMail (cfg : MailConfig) (address : String) : Mail :=
  ⟨address, "Sign in to Dendri — no account found",
    noAccountEmailHtml (trimEndSlash cfg.websiteUrl) (trimEndSlash cfg.dashboardUrl)⟩

lemma between_eq_some_iff {head tail text part : String} :
    between head tail text = some part ↔ text = head ++ part ++ tail := by
  rw [between, Option.map_eq_some_iff]
  simp only [Option.bind_eq_some_iff, List.dropPrefix?_eq_some_iff, List.dropSuffix?_eq_some_iff,
    beq_iff_eq]
  constructor
  · rintro ⟨_, ⟨rest, ⟨_, htext, rfl⟩, _, rfl, rfl⟩, rfl⟩
    rw [← String.toList_inj, htext, String.toList_append, String.toList_append,
      String.toList_ofList, List.append_assoc]
  · rintro rfl
    refine ⟨part.toList, ⟨part.toList ++ tail.toList, ⟨_, ?_, rfl⟩, _, rfl, rfl⟩,
      String.ofList_toList⟩
    rw [String.toList_append, String.toList_append, List.append_assoc]

/-- The token of a magic link is found in its mail. -/
lemma linkToken_linkMail (cfg : MailConfig) (address token : String) :
    (linkMail cfg address token).linkToken cfg = some token := by
  rw [Mail.linkToken, between_eq_some_iff, linkMail]
  delta magicLinkHtml linkHead linkTail
  simp only [String.append_assoc]

/-- The mail that there is no account has no link with a token. -/
lemma linkToken_noAccountMail (cfg : MailConfig) (address : String) :
    (noAccountMail cfg address).linkToken cfg = none := by
  rw [Option.eq_none_iff_forall_ne_some]
  intro token htoken
  have hhtml : (noAccountMail cfg address).html = linkHead cfg ++ token ++ linkTail :=
    between_eq_some_iff.mp htoken
  -- the texts differ in their fourth letter
  have hletter : (noAccountMail cfg address).html.toList[3]? =
      (linkHead cfg ++ token ++ linkTail).toList[3]? := by rw [hhtml]
  rw [noAccountMail] at hletter
  delta noAccountEmailHtml linkHead at hletter
  simp only [String.append_assoc, String.toList_append] at hletter
  rw [List.getElem?_append_left (by simp), List.getElem?_append_left (by simp)] at hletter
  simp at hletter

/-- A request by email has a link mailed that is signed for the account of the address, it has
nothing mailed, or it is for an address without an account and tries to get a slot. -/
lemma requestMagicLink_cases (jwt : Hs256) (cfg : MailConfig) (env : ApiEnv) (s : ApiState)
    (address : String) :
    (∃ secret id token, plausibleEmail (trim address) = true ∧ signingSecret s = some secret ∧
        s.redis.getTenantIdByEmail (trim address) = some id ∧
        signToken jwt env secret id "magic" magicTtlSecs = some token ∧
        CustomerApi.requestMagicLink jwt cfg env s address =
          (s, some (linkMail cfg (trim address) token))) ∨
      CustomerApi.requestMagicLink jwt cfg env s address = (s, none) ∨
      (plausibleEmail (trim address) = true ∧
        s.redis.getTenantIdByEmail (trim address) = none ∧
        CustomerApi.requestMagicLink jwt cfg env s address =
          ((acquireNoAccountSlot env s (trim address)).1,
            if (acquireNoAccountSlot env s (trim address)).2 then
              some (noAccountMail cfg (trim address))
            else none)) := by
  rw [CustomerApi.requestMagicLink]
  cases hsecret : signingSecret s with
  | none => exact Or.inr (Or.inl rfl)
  | some secret =>
      cases cfg.mailer with
      | none => exact Or.inr (Or.inl rfl)
      | some mailer =>
          dsimp only
          by_cases hproper : plausibleEmail (trim address) = true
          · rw [if_pos hproper]
            cases hcall : env.call .getTenantIdByEmail (s.redis.getTenantIdByEmail (trim address)) with
            | none => exact Or.inr (Or.inl rfl)
            | some found =>
                have hfound : s.redis.getTenantIdByEmail (trim address) = found := by
                  rw [ApiEnv.call] at hcall
                  split_ifs at hcall
                  exact Option.some.inj hcall
                cases found with
                | some id =>
                    dsimp only
                    cases htoken : signToken jwt env secret id "magic" magicTtlSecs with
                    | none => exact Or.inr (Or.inl rfl)
                    | some token =>
                        exact Or.inl ⟨secret, id, token, hproper, rfl, hfound, htoken, rfl⟩
                | none =>
                    refine Or.inr (Or.inr ⟨hproper, hfound, ?_⟩)
                    dsimp only
                    split_ifs <;> rfl
          · rw [if_neg hproper]
            exact Or.inr (Or.inl rfl)

/-- What a request by email grants: the token of the link in the mail, signed for the account
of its address. -/
lemma grant_of_requestMagicLink {address : String} {g : Grant}
    (hg : g ∈ grants jwt cfg env s (.requestMagicLink address)) :
    ∃ secret id token, signingSecret s = some secret ∧
      signToken jwt env secret id "magic" magicTtlSecs = some token ∧
      g = ⟨.mailbox (trim address), id, token, env.nowSecs⟩ := by
  obtain ⟨mail, hmail, hgrant⟩ := Option.bind_eq_some_iff.mp (Option.mem_toList.mp hg)
  obtain ⟨token, htoken, hmap⟩ := Option.bind_eq_some_iff.mp hgrant
  obtain ⟨id, hid, rfl⟩ := Option.map_eq_some_iff.mp hmap
  rcases requestMagicLink_cases jwt cfg env s address with
    ⟨secret, id', token', -, hsecret, hid', hsign, heq⟩ | heq | ⟨-, -, heq⟩
  · rw [heq, Option.some.injEq] at hmail
    subst hmail
    obtain rfl := Option.some.inj ((linkToken_linkMail cfg _ token').symm.trans htoken)
    obtain rfl := Option.some.inj (hid'.symm.trans hid)
    exact ⟨secret, id', token', hsecret, hsign, rfl⟩
  · rw [heq] at hmail
    exact absurd hmail (by simp)
  · rw [heq] at hmail
    dsimp only at hmail
    split_ifs at hmail
    rw [← Option.some.inj hmail, linkToken_noAccountMail] at htoken
    exact absurd htoken (by simp)

lemma adminToken_acquireNoAccountSlot (env : ApiEnv) (s : ApiState) (email : String) :
    (acquireNoAccountSlot env s email).1.adminToken = s.adminToken := by
  rw [acquireNoAccountSlot]
  split_ifs <;> rfl

/-- Every grant of a request is signed with the admin secret, for its tenant, its purpose and
its time. -/
lemma signed_of_mem_grants (h : jwt.Signs Signed) {request : ApiRequest} {g : Grant}
    (hg : g ∈ grants jwt cfg env s request) :
    g.time = env.nowSecs ∧ ∃ secret, signingSecret s = some secret ∧ Signed secret g.claims g.token := by
  have hsession : ∀ (ground : Ground) (r : Response), ground.purpose = "session" →
      ground.ttl = sessionTtlSecs →
      (∀ id token, r.session = some (id, token) → ∃ secret, signingSecret s = some secret ∧
        signToken jwt env secret id "session" sessionTtlSecs = some token) →
      g ∈ (r.session.map fun p => (⟨ground, p.1, p.2, env.nowSecs⟩ : Grant)).toList →
      g.time = env.nowSecs ∧
        ∃ secret, signingSecret s = some secret ∧ Signed secret g.claims g.token := by
    intro ground r hpurpose httl hsigned hmem
    obtain ⟨⟨id, token⟩, hr, rfl⟩ := Option.map_eq_some_iff.mp (Option.mem_toList.mp hmem)
    obtain ⟨secret, hsecret, htoken⟩ := hsigned id token hr
    refine ⟨rfl, secret, hsecret, ?_⟩
    rw [Grant.claims]
    dsimp only
    rw [hpurpose, httl]
    exact h.signed_of_signToken htoken
  cases request with
  | login apiKey =>
      refine hsession (.key apiKey) _ rfl rfl (fun id token hr => ?_) hg
      obtain ⟨secret, tenant, hsecret, -, -, htoken⟩ := session_login hr
      exact ⟨secret, hsecret, htoken⟩
  | exchangeMagic link =>
      refine hsession (.link link) _ rfl rfl (fun id token hr => ?_) hg
      obtain ⟨secret, _, _, hsecret, -, -, -, -, -, htoken⟩ := session_exchangeMagic.mp hr
      exact ⟨secret, hsecret, htoken⟩
  | requestMagicLink address =>
      obtain ⟨secret, id, token, hsecret, htoken, rfl⟩ := grant_of_requestMagicLink hg
      exact ⟨rfl, secret, hsecret, h.signed_of_signToken htoken⟩
  | _ => exact absurd hg (by simp [grants])

/-! ### Who is let in -/

/-- Who is let in by a request after some grants. -/
structure Backed (jwt : Hs256) (w : ApiState × List Grant) (l : ApiLabel) : Prop where
  /-- A session is accepted just when it was granted within the last week and the minute of
  leeway. -/
  session : ∀ headers, (l.request = .me headers ∨ l.request = .rotateKey headers) → ∀ id,
    sessionTenantId jwt l.env w.1 headers = .ok id ↔
      ∃ g ∈ w.2, g.ground.purpose = "session" ∧ g.tenantId = id ∧
        headers.bearer = some g.token ∧ g.GoodAt l.env.nowSecs
  /-- A link is exchanged for a session just when it was mailed within the last quarter of an
  hour and the minute of leeway and the account is there, and not only once. -/
  exchange : ∀ link, l.request = .exchangeMagic link → ∀ id,
    (∃ token, (CustomerApi.exchangeMagic jwt l.env w.1 link).session = some (id, token)) ↔
      ∃ g ∈ w.2, g.ground.purpose = "magic" ∧ g.token = link ∧ g.GoodAt l.env.nowSecs ∧
        l.env.redisOk .getTenantById = true ∧
        (w.1.redis.getTenantById g.tenantId).map Tenant.id = some id

/-- Every session for a link came while the link was good. -/
def LinksMailed (log : List Grant) : Prop :=
  ∀ g ∈ log, ∀ link, g.ground = .link link →
    ∃ m ∈ log, m.ground.purpose = "magic" ∧ m.token = link ∧ m.GoodAt g.time

/-- The record of a run: the grants are signed with the admin secret, and the sessions for
links go back to the links. -/
structure Recorded (Signed : String → SessionClaims → String → Prop) (secret : Option String)
    (w : ApiState × List Grant) : Prop where
  kept : signingSecret w.1 = secret
  signed : ∀ g ∈ w.2, ∃ key, secret = some key ∧ Signed key g.claims g.token
  mailed : LinksMailed w.2

/-- A token that is presented and verifies is a grant that is still good. -/
lemma grant_of_decode (h : jwt.Signs Signed) {w : ApiState × List Grant} {l : ApiLabel}
    {key token : String} {claims : SessionClaims} (hw : Recorded Signed (some key) w)
    (hsafe : Unforged Signed w l) (hpresented : presented l.request = some token)
    (hdecode : jwt.decode key l.env.nowSecs token = some claims) :
    ∃ g ∈ w.2, g.token = token ∧ g.claims = claims ∧ g.GoodAt l.env.nowSecs := by
  obtain ⟨hsigned, hnow⟩ := (h.decode_iff _ _ _ _).mp hdecode
  obtain ⟨g, hg, rfl⟩ := hsafe key token claims hw.kept hpresented hsigned
  obtain ⟨key', hkey, hgrant⟩ := hw.signed g hg
  obtain rfl := Option.some.inj hkey
  obtain rfl := h.claims_unique hgrant hsigned
  exact ⟨g, hg, rfl, rfl, hnow⟩

/-- A grant that is still good verifies. -/
lemma decode_of_grant (h : jwt.Signs Signed) {w : ApiState × List Grant} {secret : Option String}
    {g : Grant} {now : ℕ} (hw : Recorded Signed secret w) (hg : g ∈ w.2) (hgood : g.GoodAt now) :
    ∃ key, signingSecret w.1 = some key ∧ jwt.decode key now g.token = some g.claims := by
  obtain ⟨key, rfl, hsigned⟩ := hw.signed g hg
  exact ⟨key, hw.kept, (h.decode_iff _ _ _ _).mpr ⟨hsigned, hgood⟩⟩

lemma backed_of_recorded (h : jwt.Signs Signed) {w : ApiState × List Grant} {l : ApiLabel}
    {secret : Option String} (hw : Recorded Signed secret w) (hsafe : Unforged Signed w l) :
    Backed jwt w l := by
  constructor
  · intro headers hrequest id
    rw [sessionTenantId_eq_ok_iff]
    have hpresented : presented l.request = headers.bearer := by
      rcases hrequest with hreq | hreq <;> rw [hreq] <;> rfl
    constructor
    · rintro ⟨key, token, claims, hkey, hbearer, hdecode, hpurpose, rfl⟩
      have hsecret : secret = some key := hw.kept.symm.trans hkey
      rw [hsecret] at hw
      obtain ⟨g, hg, rfl, rfl, hgood⟩ :=
        grant_of_decode h hw hsafe (hpresented.trans hbearer) hdecode
      exact ⟨g, hg, hpurpose, rfl, hbearer, hgood⟩
    · rintro ⟨g, hg, hpurpose, rfl, hbearer, hgood⟩
      obtain ⟨key, hkey, hdecode⟩ := decode_of_grant h hw hg hgood
      exact ⟨key, g.token, g.claims, hkey, hbearer, hdecode, hpurpose, rfl⟩
  · intro link hrequest id
    have hpresented : presented l.request = some link := by rw [hrequest]; rfl
    constructor
    · rintro ⟨token, hsession⟩
      obtain ⟨key, claims, tenant, hkey, hdecode, hpurpose, hok, htenant, hid, -⟩ :=
        session_exchangeMagic.mp hsession
      have hsecret : secret = some key := hw.kept.symm.trans hkey
      rw [hsecret] at hw
      obtain ⟨g, hg, rfl, rfl, hgood⟩ := grant_of_decode h hw hsafe hpresented hdecode
      refine ⟨g, hg, hpurpose, rfl, hgood, hok, ?_⟩
      rw [show w.1.redis.getTenantById g.tenantId = some tenant from htenant, Option.map_some, hid]
    · rintro ⟨g, hg, hpurpose, rfl, hgood, hok, hfound⟩
      obtain ⟨tenant, htenant, hid⟩ := Option.map_eq_some_iff.mp hfound
      obtain ⟨key, hkey, hdecode⟩ := decode_of_grant h hw hg hgood
      obtain ⟨token, hencode, -⟩ := h.encode_signed key ⟨id, "session", l.env.nowSecs + sessionTtlSecs⟩
      exact ⟨token, session_exchangeMagic.mpr
        ⟨key, g.claims, tenant, hkey, hdecode, hpurpose, hok, htenant, hid, hencode⟩⟩

/-- A request other than one by email touches the tenants and the cache only. -/
lemma handle_keeps {α : Type*} (f : ApiState → α)
    (hf : ∀ (t : ApiState) (redis : TenantStore) (cache : TenantCache),
      f { t with redis := redis, tenantCache := cache } = f t) {request : ApiRequest}
    (hrequest : ∀ address, request ≠ .requestMagicLink address) :
    f (handle jwt cfg env s request).1 = f s := by
  have hwritten : ∀ redis, f (s.written redis) = f s := fun redis => hf s redis _
  cases request with
  | createTenant headers req =>
      show f (AdminApi.createTenant env s headers req).1 = _
      rw [AdminApi.createTenant]
      split
      · rfl
      · dsimp only
        split_ifs
        · rfl
        · split
          · exact hwritten _
          · rfl
  | removeTenant headers id =>
      show f (AdminApi.removeTenant env s headers id).1 = _
      rw [AdminApi.removeTenant]
      split
      · rfl
      · split
        · exact hwritten _
        · rfl
        · rfl
  | rotateJwtSecret headers id =>
      show f (AdminApi.rotateJwtSecret env s headers id).1 = _
      rw [AdminApi.rotateJwtSecret]
      split
      · rfl
      · split
        · dsimp only
          split
          · exact hwritten _
          · rfl
          · rfl
        · rfl
        · rfl
  | login apiKey =>
      show f (CustomerApi.login jwt env s apiKey).1 = _
      rw [CustomerApi.login]
      split
      · rfl
      · have hcache : ∀ cache, f { s with tenantCache := cache } = f s := fun cache => hf s _ cache
        dsimp only
        split
        · exact hcache _
        · exact hcache _
  | requestMagicLink address => exact absurd rfl (hrequest address)
  | rotateKey headers =>
      show f (CustomerApi.rotateKey jwt env s headers).1 = _
      rw [CustomerApi.rotateKey]
      split
      · rfl
      · dsimp only
        split
        · exact hwritten _
        · rfl
        · rfl
  | _ => rfl

/-- No request changes the admin token. -/
lemma adminToken_handle (request : ApiRequest) :
    (handle jwt cfg env s request).1.adminToken = s.adminToken := by
  by_cases hemail : ∃ address, request = .requestMagicLink address
  · obtain ⟨address, rfl⟩ := hemail
    show (CustomerApi.requestMagicLink jwt cfg env s address).1.adminToken = _
    rcases requestMagicLink_cases jwt cfg env s address with
      ⟨_, _, _, -, -, -, -, h⟩ | h | ⟨-, -, h⟩
    · rw [h]
    · rw [h]
    · rw [h]
      exact adminToken_acquireNoAccountSlot env s (trim address)
  · exact handle_keeps ApiState.adminToken (fun _ _ _ => rfl) fun address h => hemail ⟨address, h⟩

/-- A request adds to the record what it grants. -/
lemma recorded_of_step (h : jwt.Signs Signed) {w w' : ApiState × List Grant} {l : ApiLabel}
    {secret : Option String} (hw : Recorded Signed secret w) (hstep : apiStep jwt cfg w l = some w')
    (hsafe : Unforged Signed w l) : Recorded Signed secret w' := by
  rw [apiStep, withRecord, Option.map_some, Option.some.injEq] at hstep
  subst hstep
  refine ⟨?_, fun g hg => ?_, fun g hg link hground => ?_⟩
  · rw [← hw.kept]
    exact adminToken_handle l.request
  · rcases List.mem_append.mp hg with hold | hnew
    · exact hw.signed g hold
    · obtain ⟨-, key, hkey, hsigned⟩ := signed_of_mem_grants h hnew
      exact ⟨key, hw.kept.symm.trans hkey, hsigned⟩
  · rcases List.mem_append.mp hg with hold | hnew
    · obtain ⟨m, hm, hmail⟩ := hw.mailed g hold link hground
      exact ⟨m, List.mem_append_left _ hm, hmail⟩
    · -- a session for a link is granted by an exchange of it
      have htime := (signed_of_mem_grants h hnew).1
      obtain ⟨env, request⟩ := l
      cases request with
      | exchangeMagic link' =>
          obtain ⟨⟨id, token⟩, hsession, rfl⟩ :=
            Option.map_eq_some_iff.mp (Option.mem_toList.mp hnew)
          obtain rfl := Ground.link.inj hground
          obtain ⟨m, hm, hpurpose, htoken, hgood, -⟩ :=
            ((backed_of_recorded h hw hsafe).exchange link' rfl id).mp ⟨token, hsession⟩
          exact ⟨m, List.mem_append_left _ hm, hpurpose, htoken, hgood⟩
      | login apiKey =>
          obtain ⟨p, -, rfl⟩ := Option.map_eq_some_iff.mp (Option.mem_toList.mp hnew)
          exact absurd hground (by simp)
      | requestMagicLink address =>
          obtain ⟨_, _, _, -, -, rfl⟩ := grant_of_requestMagicLink hnew
          exact absurd hground (by simp)
      | _ => exact absurd hnew (by simp [grants])

/-- In every run of requests in which the admin secret is not used from outside, each request
lets in whom `Backed` says, and every session for a magic link goes back to a mailed link. -/
theorem sessions_backed (h : jwt.Signs Signed) (cfg : MailConfig) (s : ApiState)
    (ls : List ApiLabel)
    (hsafe : AllSteps (apiStep jwt cfg) (fun w l _ => Unforged Signed w l) (s, []) ls) :
    AllSteps (apiStep jwt cfg) (fun w l w' => Backed jwt w l ∧ LinksMailed w'.2) (s, []) ls := by
  have hinit : Recorded Signed (signingSecret s) (s, []) :=
    ⟨rfl, fun g hg => absurd hg (by simp), fun g hg => absurd hg (by simp)⟩
  refine AllSteps.of_invariant (I := Recorded Signed (signingSecret s))
    (P := fun w l _ => Unforged Signed w l) (fun w l w' hw hstep hunforged => ?_) hinit hsafe
  have hw' := recorded_of_step h hw hstep hunforged
  exact ⟨hw', backed_of_recorded h hw hunforged, hw'.mailed⟩

end

/-- The tenant `t_acme` with an email address. -/
def mailedTenant : Tenant := { id := "t_acme", name := "Acme", email := some "ops@acme.dev" }

/-- A server with this tenant. -/
def mailedApi : ApiState where
  adminToken := some "admin"
  redis := (⟨∅, ∅, ∅⟩ : TenantStore).createTenant mailedTenant "h0"
  tenantCache := ⟨∅⟩

/-- Mails are sent. -/
def sentMail : MailConfig :=
  ⟨some { accessKeyId := "id", accessKeySecret := "key", region := "eu", from_ := "hi@dendri.dev" },
    "https://app.dendri.dev", "https://dendri.dev"⟩

/-- The magic link that is mailed to the tenant at second one. -/
def acmeLink : String := plainToken "admin" ⟨"t_acme", "magic", 1 + magicTtlSecs⟩

/-- The session that the tenant is granted at second one. -/
def acmeSession : String := plainToken "admin" ⟨"t_acme", "session", 1 + sessionTtlSecs⟩

/-- The tenant asks for a magic link, exchanges it for a session and uses the session. -/
def acmeVisit : List ApiLabel :=
  [⟨acmeEnv, .requestMagicLink " ops@acme.dev"⟩, ⟨acmeEnv, .exchangeMagic acmeLink⟩,
    ⟨acmeEnv, .me (bearerHeader acmeSession)⟩]

lemma apiStep_acmeMail :
    apiStep plainHs256 sentMail (mailedApi, []) ⟨acmeEnv, .requestMagicLink " ops@acme.dev"⟩ =
      some (mailedApi, [⟨.mailbox "ops@acme.dev", "t_acme", acmeLink, 1⟩]) := by
  have hmail : CustomerApi.requestMagicLink plainHs256 sentMail acmeEnv mailedApi
      " ops@acme.dev" = (mailedApi, some (linkMail sentMail "ops@acme.dev" acmeLink)) := rfl
  rw [apiStep, withRecord, Option.map_some]
  dsimp only
  rw [grants, hmail, Option.bind_some, Mail.grant, linkToken_linkMail]
  rfl

lemma apiStep_acmeExchange (log : List Grant) :
    apiStep plainHs256 sentMail (mailedApi, log) ⟨acmeEnv, .exchangeMagic acmeLink⟩ =
      some (mailedApi, log ++ [⟨.link acmeLink, "t_acme", acmeSession, 1⟩]) := by
  have hdecode : plainHs256.decode "admin" 1 acmeLink = some ⟨"t_acme", "magic", 1 + magicTtlSecs⟩ :=
    (plainHs256_signs.decode_iff _ _ _ _).mpr ⟨rfl, by decide⟩
  have hsession : (CustomerApi.exchangeMagic plainHs256 acmeEnv mailedApi acmeLink).session =
      some ("t_acme", acmeSession) :=
    session_exchangeMagic.mpr ⟨"admin", _, mailedTenant, rfl, hdecode, rfl, rfl, rfl, rfl, rfl⟩
  rw [apiStep, withRecord, Option.map_some]
  dsimp only
  rw [grants, hsession]
  rfl

theorem sessions_backed_acme :
    AllSteps (apiStep plainHs256 sentMail) (fun w l w' => Backed plainHs256 w l ∧ LinksMailed w'.2)
      (mailedApi, []) acmeVisit := by
  refine sessions_backed plainHs256_signs sentMail _ _
    fun w hw => ⟨?_, fun w' hw' => ⟨?_, fun w'' _ => ⟨?_, trivial⟩⟩⟩
  · intro secret token claims _ hpresented
    exact absurd hpresented (by simp [presented])
  · -- the link was mailed
    intro secret token claims _ hpresented _
    obtain rfl := Option.some.inj (apiStep_acmeMail.symm.trans hw)
    exact ⟨_, List.mem_singleton_self _, Option.some.inj hpresented⟩
  · -- the session was granted for the link
    intro secret token claims _ hpresented _
    obtain rfl := Option.some.inj (apiStep_acmeMail.symm.trans hw)
    obtain rfl := Option.some.inj ((apiStep_acmeExchange _).symm.trans hw')
    have hsigned : PlainSigned "admin" ⟨"t_acme", "session", 1 + sessionTtlSecs⟩ acmeSession := rfl
    rw [presented, bearer_bearerHeader (plainHs256_signs.visible hsigned)] at hpresented
    exact ⟨_, List.mem_append_right _ (List.mem_singleton_self _), Option.some.inj hpresented⟩

end Dendri
