import Dendri.Handlers.Admits

/-!
Who is admitted, and what a refusal leaves behind.

* `rejected_unchanged_iff`: a refused connect leaves the shared maps and the
  counter alone just when the claims its JWT check stored, if any, were already
  the stored ones: `enforce_jwt` writes before the id and the limit are
  checked;
* `isAdmitted_ws_iff`, `isAdmitted_http_iff`: the decisions of the transports;
* `transports_agree_iff`: when the three transports decide alike. The HTTP
  transports neither validate identifiers nor ask Redis for the id's token,
  and they ignore a failed registration in Redis.
-/

namespace Dendri

open AppState

/-! ### Refused requests -/

/-- The maps and the counter that the connect handlers write are the same. -/
structure Unchanged (s s' : AppState) : Prop where
  clients : s'.clients = s.clients
  wsSenders : s'.wsSenders = s.wsSenders
  clientClaims : s'.clientClaims = s.clientClaims
  clientTenants : s'.clientTenants = s.clientTenants
  rooms : s'.rooms = s.rooms
  clientRooms : s'.clientRooms = s.clientRooms
  pendingRemovals : s'.pendingRemovals = s.pendingRemovals
  pollingReceivers : s'.pollingReceivers = s.pollingReceivers
  activeConnections : s'.activeConnections = s.activeConnections

/-- A refused connect changes nothing just when the claims it stored were
already there. -/
theorem rejected_unchanged_iff {env : Env} {cfg : Config} {s s' : AppState} {r : Request}
    {why : Refusal} (h : connect env cfg s r = .rejected why s') :
    Unchanged s s' ↔
      ∀ id claims, storedClaims env cfg r = some (id, claims) →
        s.clientClaims.lookup id = some claims := by
  rw [connect_rejected h]
  cases hstored : storedClaims env cfg r with
  | none =>
      refine ⟨fun _ id claims hc => absurd hc (by simp), fun _ => ?_⟩
      exact ⟨rfl, rfl, rfl, rfl, rfl, rfl, rfl, rfl, rfl⟩
  | some pair =>
      obtain ⟨id, claims⟩ := pair
      have hclaims : (s.withClaims (some (id, claims))).clientClaims =
          s.clientClaims.insert id claims := rfl
      constructor
      · intro hu id' claims' heq
        rw [Option.some.injEq, Prod.mk.injEq] at heq
        obtain ⟨rfl, rfl⟩ := heq
        have hsame := hu.clientClaims
        rw [hclaims] at hsame
        exact FinMap.insert_eq_self_iff.mp hsame
      · intro hpre
        have hlookup := hpre id claims rfl
        exact ⟨rfl, rfl, hclaims.trans (FinMap.insert_eq_self_iff.mpr hlookup), rfl, rfl, rfl, rfl,
          rfl, rfl⟩

/-- Claims that allow the rooms of a list. -/
def roomClaims (rooms : List String) : Value :=
  .object [("rooms", .array (rooms.map .string))]

/-- A world in which the JWT `"jwt-r"` is signed and allows the room `r`, for
the rooms of a list. -/
def Env.withRoomTokens (env : Env) (rooms : List String) : Env :=
  { env with
    validateJwt := fun _ jwt => (rooms.find? fun r => "jwt-" ++ r == jwt).map fun r =>
      roomClaims [r] }

/-- A server that requires a JWT. -/
def jwtConfig : Config := { jwtSecret := some "secret" }

/-- A world in which the tokens for `lobby` and `vip` are signed. -/
def jwtEnv : Env := (Env.quiet 0).withRoomTokens ["lobby", "vip"]

/-- A server that requires a JWT, where `alice` is connected with
claims for `lobby`. -/
def aliceInLobby : AppState :=
  { ((AppState.new jwtConfig ⟨∅, ∅, ∅, ∅⟩).insertClient 0 "alice" "tok"
      .WebSocket).storeClaims "alice" (some (roomClaims ["lobby"])) with
    activeConnections := 1 }

/-- A connect for `alice` with another token, and with a JWT for a room. -/
def hijack (room : String) : Request :=
  .ws { id := some "alice", token := some "other", key := some "dendri",
        jwt := some ("jwt-" ++ room) }

/-- It is refused, and leaves everything as it was if the room is the one that
`alice` has already. -/
theorem rejected_unchanged_same_claims :
    ∃ s', connect jwtEnv jwtConfig aliceInLobby (hijack "lobby") = .rejected .idTaken s' ∧
      Unchanged aliceInLobby s' := by
  have heq : ∃ s', connect jwtEnv jwtConfig aliceInLobby (hijack "lobby") = .rejected .idTaken s' :=
    ⟨_, rfl⟩
  obtain ⟨s', heq⟩ := heq
  refine ⟨s', heq, (rejected_unchanged_iff heq).mpr ?_⟩
  intro id claims hstored
  have heval : storedClaims jwtEnv jwtConfig (hijack "lobby") =
      some ("alice", roomClaims ["lobby"]) := rfl
  rw [heval, Option.some.injEq, Prod.mk.injEq] at hstored
  obtain ⟨rfl, rfl⟩ := hstored
  rfl

/-- With another room it is refused as well, but the claims of the client that
owns the id are replaced. -/
theorem rejected_connect_can_replace_claims :
    ¬∀ (env : Env) (cfg : Config) (s s' : AppState) (r : Request) (why : Refusal),
      connect env cfg s r = .rejected why s' → Unchanged s s' := by
  intro hall
  have hout : ∃ s', connect jwtEnv jwtConfig aliceInLobby (hijack "vip") = .rejected .idTaken s' ∧
      (s'.clientClaims.lookup "alice").map (roomAllowed · "vip") = some true := by
    refine ⟨_, rfl, ?_⟩
    decide
  obtain ⟨s', heq, hvip⟩ := hout
  have hsame := (hall _ _ _ s' _ _ heq).clientClaims
  rw [hsame] at hvip
  exact absurd hvip (by decide)

/-! ### The decisions of the three transports -/

/-- The parameters of a connect, the same on every transport. -/
structure Params where
  id : String
  token : String
  key : Option String := none
  lastSeq : Option ℕ := none
  apiKey : Option String := none
  jwt : Option String := none

namespace Params

/-- The connect over WebSocket. -/
def ws (p : Params) : Request :=
  .ws { id := some p.id, token := some p.token, key := p.key, lastSeq := p.lastSeq, jwt := p.jwt,
        apiKey := p.apiKey }

/-- The query of the two HTTP transports. -/
def query (p : Params) : HttpQuery :=
  { id := p.id, token := p.token, key := p.key, lastSeq := p.lastSeq, apiKey := p.apiKey,
    jwt := p.jwt }

/-- The parameters of a connect with the default key. -/
def plain (id token : String) : Params := { id := id, token := token, key := some "dendri" }

/-- Both identifiers are valid. -/
def Valid (p : Params) : Prop := isValidIdentifier p.id = true ∧ isValidIdentifier p.token = true

/-- The request authenticates. -/
def Authenticates (env : Env) (cfg : Config) (p : Params) : Prop :=
  ∃ auth, authenticate env cfg p.key p.apiKey p.jwt = .ok auth

end Params

/-- A WebSocket request determines its id and its token. -/
lemma Params.ws_inj {p p' : Params} (h : p.ws = p'.ws) : p.id = p'.id ∧ p.token = p'.token := by
  have hq := Request.ws.inj h
  exact ⟨Option.some.inj (congrArg WsQuery.id hq), Option.some.inj (congrArg WsQuery.token hq)⟩

/-- The parameters of a WebSocket request that was admitted. -/
lemma exists_params {env : Env} {cfg : Config} {q : WsQuery} {K : Conn}
    (hK : K.AdmittedFor env cfg (.ws q)) :
    ∃ p : Params, Request.ws q = p.ws ∧ p.id = K.id ∧ p.token = K.token := by
  obtain ⟨id, token, key, lastSeq, jwt, apiKey⟩ := q
  have hid : id = some K.id := hK.id
  have htoken : token = some K.token := hK.token
  subst hid htoken
  exact ⟨⟨K.id, K.token, key, lastSeq, apiKey, jwt⟩, rfl, rfl, rfl⟩

/-- All slots are taken. -/
def Full (cfg : Config) (s : AppState) : Prop := cfg.concurrentLimit ≤ s.activeConnections

/-- What `handle_socket` requires of the id: it is registered with the token,
in memory or in Redis, or it is new, there is a slot, and Redis takes it. -/
def OwnsId (env : Env) (cfg : Config) (s : AppState) (p : Params) : Prop :=
  match existingToken env s p.id with
  | some token => p.token = token
  | none => ¬Full cfg s ∧ env.redisOk .registerClient p.id = true

/-- What `sse_handler` and `poll_handler` require of it. -/
def OwnsIdHttp (cfg : Config) (s : AppState) (p : Params) : Prop :=
  match s.clients.lookup p.id with
  | some client => p.token = client.token
  | none => ¬Full cfg s

lemma isAdmitted_admitSocket (env : Env) (cfg : Config) (s : AppState) (p : Params) (auth : Auth) :
    (admitSocket env cfg s p.id p.token auth p.lastSeq).isAdmitted = true ↔
      OwnsId env cfg s p := by
  rw [admitSocket, OwnsId]
  cases existingToken env s p.id with
  | some token =>
      dsimp only
      split_ifs with h
      · exact ⟨fun hc => absurd hc (by simp [Outcome.isAdmitted]), fun hc => absurd hc h⟩
      · exact ⟨fun _ => not_not.mp h, fun _ => rfl⟩
  | none =>
      rw [tryReserveConnectionSlot_eq]
      dsimp only
      by_cases hfull : cfg.concurrentLimit ≤ s.activeConnections
      · rw [if_pos hfull]
        exact ⟨fun hc => absurd hc (by simp [Outcome.isAdmitted]), fun hc => absurd hfull hc.1⟩
      · rw [if_neg hfull]
        dsimp only
        cases env.redisOk .registerClient p.id with
        | false => exact ⟨fun hc => absurd hc (by simp [Outcome.isAdmitted]),
            fun hc => absurd hc.2 (by simp)⟩
        | true => exact ⟨fun _ => ⟨hfull, rfl⟩, fun _ => rfl⟩

lemma not_authenticates_of_error {env : Env} {cfg : Config} {p : Params} {why : AuthFailure}
    (h : authenticate env cfg p.key p.apiKey p.jwt = .error why) : ¬p.Authenticates env cfg := by
  rintro ⟨auth, hok⟩
  rw [h] at hok
  exact absurd hok (by simp)

/-- Whom the WebSocket transport admits. -/
lemma isAdmitted_ws_iff (env : Env) (cfg : Config) (s : AppState) (p : Params) :
    (connect env cfg s p.ws).isAdmitted = true ↔
      p.Authenticates env cfg ∧ p.Valid ∧ OwnsId env cfg s p := by
  simp only [connect, Params.ws, handleSocket]
  cases hkey : p.key with
  | none =>
      have hauth : authenticate env cfg p.key p.apiKey p.jwt = .error .invalidKey := by
        rw [hkey]
        rfl
      exact ⟨fun hc => absurd hc (by simp [Outcome.isAdmitted]),
        fun hc => absurd hc.1 (not_authenticates_of_error hauth)⟩
  | some key =>
      dsimp only
      by_cases hvalid : p.Valid
      · rw [if_neg (by simp [hvalid.1, hvalid.2]), ← hkey]
        cases hauth : authenticate env cfg p.key p.apiKey p.jwt with
        | error why =>
            exact ⟨fun hc => absurd hc (by simp [Outcome.isAdmitted]),
              fun hc => absurd hc.1 (not_authenticates_of_error hauth)⟩
        | ok auth =>
            have howns := isAdmitted_admitSocket env cfg (s.storeClaims p.id auth.claims) p auth
            exact ⟨fun hc => ⟨⟨auth, hauth⟩, hvalid, howns.mp hc⟩, fun hc => howns.mpr hc.2.2⟩
      · have hfail : (!isValidIdentifier p.id || !isValidIdentifier p.token) = true := by
          rw [Params.Valid, not_and_or, Bool.not_eq_true, Bool.not_eq_true] at hvalid
          rw [Bool.or_eq_true_iff, Bool.not_eq_true', Bool.not_eq_true']
          exact hvalid
        rw [if_pos hfail]
        exact ⟨fun hc => absurd hc (by simp [Outcome.isAdmitted]), fun hc => absurd hc.2.1 hvalid⟩

lemma claimId_eq (cfg : Config) (s : AppState) (p : Params) :
    (claimId cfg s p.id p.token).2 = none ↔ OwnsIdHttp cfg s p := by
  rw [claimId, OwnsIdHttp]
  cases s.clients.lookup p.id with
  | some client =>
      dsimp only
      split_ifs with h
      · exact ⟨fun hc => absurd hc (by simp), fun hc => absurd hc.symm h⟩
      · exact ⟨fun _ => (not_not.mp h).symm, fun _ => rfl⟩
  | none =>
      rw [tryReserveConnectionSlot_eq]
      by_cases hfull : cfg.concurrentLimit ≤ s.activeConnections
      · rw [if_pos hfull]
        exact ⟨fun hc => absurd hc (by simp), fun hc => absurd hfull hc⟩
      · rw [if_neg hfull]
        exact ⟨fun _ => hfull, fun _ => rfl⟩

/-- Whom the HTTP transports admit: both of them the same requests. -/
lemma isAdmitted_http_iff (env : Env) (cfg : Config) (s : AppState) (p : Params) :
    ((connect env cfg s (.sse p.query)).isAdmitted = true ↔
        p.Authenticates env cfg ∧ OwnsIdHttp cfg s p) ∧
      ((connect env cfg s (.poll p.query)).isAdmitted = true ↔
        p.Authenticates env cfg ∧ OwnsIdHttp cfg s p) := by
  simp only [connect, sseHandler, pollHandler]
  have hquery : authenticate env cfg p.query.key p.query.apiKey p.query.jwt =
      authenticate env cfg p.key p.apiKey p.jwt := rfl
  rw [hquery]
  cases hauth : authenticate env cfg p.key p.apiKey p.jwt with
  | error why =>
      have hno := not_authenticates_of_error hauth
      simp [Outcome.isAdmitted, hno]
  | ok auth =>
      have hyes : p.Authenticates env cfg := ⟨auth, hauth⟩
      have howns := claimId_eq cfg (s.storeClaims p.id auth.claims) p
      have howns' : OwnsIdHttp cfg (s.storeClaims p.id auth.claims) p ↔ OwnsIdHttp cfg s p :=
        Iff.rfl
      rw [howns'] at howns
      dsimp only [Params.query]
      cases hclaim : claimId cfg (s.storeClaims p.id auth.claims) p.id p.token with
      | mk t refusal =>
          rw [hclaim] at howns
          cases refusal with
          | some why =>
              have hno : ¬OwnsIdHttp cfg s p := fun ho => absurd (howns.mpr ho) (by simp)
              simp [Outcome.isAdmitted, hno]
          | none =>
              have ho : OwnsIdHttp cfg s p := howns.mp rfl
              simp [Outcome.isAdmitted, openStream, hyes, ho]

/-- The WebSocket and the HTTP requirements on the id coincide: exactly when
the id and the token are valid, Redis knows no other token, and Redis takes
the registration, wherever these decide. -/
def RequirementsMeet (env : Env) (cfg : Config) (s : AppState) (p : Params) : Prop :=
  match s.clients.lookup p.id with
  | some client => p.token = client.token → p.Valid
  | none =>
      match s.redisClientToken env p.id with
      | some token => p.Valid ∧ p.token = token ↔ ¬Full cfg s
      | none => ¬Full cfg s → p.Valid ∧ env.redisOk .registerClient p.id = true

/-- The three transports decide alike on a request just when it does not
authenticate, or the requirements on the id coincide. -/
theorem transports_agree_iff (env : Env) (cfg : Config) (s : AppState) (p : Params) :
    ((connect env cfg s p.ws).isAdmitted = (connect env cfg s (.sse p.query)).isAdmitted ∧
        (connect env cfg s p.ws).isAdmitted = (connect env cfg s (.poll p.query)).isAdmitted) ↔
      (p.Authenticates env cfg → RequirementsMeet env cfg s p) := by
  have hws := isAdmitted_ws_iff env cfg s p
  obtain ⟨hsse, hpoll⟩ := isAdmitted_http_iff env cfg s p
  rw [Bool.eq_iff_iff.trans (iff_congr hws hsse), Bool.eq_iff_iff.trans (iff_congr hws hpoll),
    and_self_iff]
  by_cases hauth : p.Authenticates env cfg
  · simp only [hauth, true_and, forall_const]
    rw [OwnsId, OwnsIdHttp, RequirementsMeet, existingToken]
    cases s.clients.lookup p.id with
    | some client =>
        exact ⟨fun h ht => (h.mpr ht).1, fun h => ⟨fun hc => hc.2, fun ht => ⟨h ht, ht⟩⟩⟩
    | none =>
        dsimp only
        cases s.redisClientToken env p.id with
        | some token =>
            by_cases hfull : Full cfg s
            · simp [hfull]
            · simp [hfull]
        | none =>
            by_cases hfull : Full cfg s
            · simp [hfull]
            · simp [hfull]
  · simp [hauth]

/-- An empty server in front of a Redis database where `alice` is registered
with the token `tok`. -/
def aliceInRedis : AppState :=
  AppState.new {} { clientToken := (∅ : DashMap String).insert "alice" "tok"
                    queue := ∅, queueMeta := ∅, queues := ∅ }

/-- The transports do not always agree: with another token `alice` is taken for
a WebSocket, and free for an event stream. -/
theorem sse_admits_id_taken_in_redis :
    ¬∀ (env : Env) (cfg : Config) (s : AppState) (p : Params),
      (connect env cfg s p.ws).isAdmitted = (connect env cfg s (.sse p.query)).isAdmitted ∧
        (connect env cfg s p.ws).isAdmitted = (connect env cfg s (.poll p.query)).isAdmitted := by
  intro hall
  have hsse := (hall (Env.quiet 0) {} aliceInRedis (Params.plain "alice" "other")).1
  exact absurd hsse (by decide)

end Dendri
