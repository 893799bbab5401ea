import Dendri.Handlers.Message

/-!
Connecting and disconnecting: `handlers/mod.rs`, `handle_socket` and the two
ends of `run_client` in `handlers/ws.rs`, and `sse_handler`, `poll_handler` and
`cleanup_client` in `handlers/http.rs`.

* `authenticate`: the shared key, the API key and the JWT, in the order all
  three transports check them;
* `handleSocket`, `sseHandler`, `pollHandler`: a connect request ends in an
  `Outcome`, a refusal or an admitted connection, with the state it leaves;
* `teardown`: the statements the end of a WebSocket and the end of an event
  stream share; `closeSocket` runs it only for the current channel of the id,
  `cleanupClient` always.
-/

namespace Dendri

open AppState

/-! ### Requests and outcomes -/

/-- `WsQuery`. -/
structure WsQuery where
  id : Option String
  token : Option String
  key : Option String
  lastSeq : Option ℕ := none
  jwt : Option String := none
  apiKey : Option String := none

/-- `HttpQuery`. -/
structure HttpQuery where
  id : String
  token : String
  key : Option String := none
  lastSeq : Option ℕ := none
  apiKey : Option String := none
  jwt : Option String := none

/-- An admitted connection: what it authenticated with, and the channel it
receives on. An event stream starts with a watchdog. -/
structure Conn where
  id : String
  token : String
  transport : TransportKind
  tenant : Option String
  claims : Option Value
  chan : ℕ
  isOpen : Bool := true
  watchdog : Bool := false

/-- What a refused request is answered with: a WebSocket by an `ERROR` or an
`ID-TAKEN` frame before it is closed, an HTTP request by a status and a text. -/
inductive Refusal where
  | error (e : PeerError)
  | idTaken
  | http (status : ℕ) (message : String)
  deriving DecidableEq, Repr

/-- How a connect request ends, with the state it leaves. -/
inductive Outcome where
  | rejected (why : Refusal) (s : AppState)
  | admitted (conn : Conn) (s : AppState)

/-- The request is admitted. -/
def Outcome.isAdmitted : Outcome → Bool
  | rejected _ _ => false
  | admitted _ _ => true

/-! ### Authentication -/

/-- Why a request does not authenticate. -/
inductive AuthFailure where
  | invalidKey | unknownApiKey | apiKeyRequired | invalidToken
  deriving DecidableEq, Repr

/-- The error frame of `handle_socket`. -/
def AuthFailure.peerError : AuthFailure → PeerError
  | .invalidKey | .unknownApiKey | .apiKeyRequired => .InvalidKey
  | .invalidToken => .InvalidToken

/-- The response of `sse_handler` and `poll_handler`. -/
def AuthFailure.httpRefusal : AuthFailure → Refusal
  | .invalidKey => .http 401 "Invalid key"
  | .unknownApiKey => .http 401 "Invalid api_key"
  | .apiKeyRequired => .http 401 "api_key required"
  | .invalidToken => .http 403 "Invalid token"

/-- What a request authenticated as: its tenant, and the claims of its JWT if
a secret is configured. -/
structure Auth where
  tenant : Option Tenant
  claims : Option Value

/-- The tenant id of a request. -/
def Auth.tenantId (auth : Auth) : Option String := auth.tenant.map Tenant.id

/-- The tenant resolution of the three connect handlers. -/
def resolveTenant (env : Env) (cfg : Config) (apiKey : Option String) :
    Except AuthFailure (Option Tenant) :=
  match apiKey with
  | some apiKey =>
      match env.resolveApiKey apiKey with
      | some tenant => .ok (some tenant)
      | none => .error .unknownApiKey
  | none => if cfg.requireApiKey then .error .apiKeyRequired else .ok none

/-- The verification part of `enforce_jwt`: the claims it stores, none when no
secret is in effect. -/
def verifyJwt (env : Env) (cfg : Config) (tenant : Option Tenant) (jwt : Option String) :
    Except AuthFailure (Option Value) :=
  match effectiveJwtSecret (tenant.bind Tenant.jwtSecret) cfg.jwtSecret with
  | none => .ok none
  | some secret =>
      match env.validateJwt secret (jwt.getD "") with
      | none => .error .invalidToken
      | some claims =>
          match tenant with
          | some t => if tidMatches claims t.id then .ok (some claims) else .error .invalidToken
          | none => .ok (some claims)

/-- The checks all transports make, in their order: shared key, API key, JWT. -/
def authenticate (env : Env) (cfg : Config) (key apiKey jwt : Option String) :
    Except AuthFailure Auth :=
  match key with
  | none => .error .invalidKey
  | some key =>
      if constantTimeStrEq key cfg.key then
        match resolveTenant env cfg apiKey with
        | .error why => .error why
        | .ok tenant =>
            match verifyJwt env cfg tenant jwt with
            | .error why => .error why
            | .ok claims => .ok ⟨tenant, claims⟩
      else .error .invalidKey

/-- The storing part of `enforce_jwt`. -/
def AppState.storeClaims (s : AppState) (id : String) (claims : Option Value) : AppState :=
  { s with clientClaims := FinMap.insertOpt s.clientClaims id claims }

/-! ### What a new connection is sent -/

/-- The `OPEN` message. -/
def openFrame : Frame := .relay { type_ := .OPEN }

/-- The `REPLAY_GAP` error, if the requested sequence number is older than the
buffer. -/
def gapFrames (s : AppState) (id : String) (lastSeq : Option ℕ) : List Frame :=
  match lastSeq, s.replayBuffer.oldestSeq id with
  | some requested, some oldest => if requested < oldest then [.replayGap oldest requested] else []
  | _, _ => []

/-- The messages `replay_since` gives for a request with a sequence number. -/
def replayFrames (env : Env) (s : AppState) (id : String) (lastSeq : Option ℕ) : List Frame :=
  match lastSeq with
  | some requested => s.replayBuffer.replaySince env.now id requested
  | none => []

/-- `deliver_queued_messages`. -/
def deliverQueuedMessages (env : Env) (s : AppState) (id : String) (c : ℕ) : AppState :=
  let messages := s.redisQueue env id
  let s := s.redisTouchQueue env id
  if messages = [] then s
  else
    (s.send c ((messages.filterMap QueueEntry.parse).map .relay)).redisClearMessageQueue env id

/-- The `ROOM-PEERS` frames for restored rooms. -/
def restoredFrames (s : AppState) (rooms : List String) : List Frame :=
  rooms.filterMap fun key =>
    (s.rooms.lookup key).map fun members => .roomPeers (roomDisplay key) members

/-- `ws_senders.insert(id, tx)`. -/
def AppState.setSender (s : AppState) (id : String) (c : ℕ) : AppState :=
  { s with wsSenders := s.wsSenders.insert id c }

/-! ### The WebSocket transport -/

/-- The token an id is registered with: in memory, else in Redis. -/
def existingToken (env : Env) (s : AppState) (id : String) : Option String :=
  match s.clients.lookup id with
  | some client => some client.token
  | none => s.redisClientToken env id

/-- `run_client` up to its read loop. -/
def runClient (env : Env) (s : AppState) (id token : String) (auth : Auth) (lastSeq : Option ℕ)
    (restored : List String) : Outcome :=
  let c := s.nextChan
  let s := s.newChannel.setSender id c
  let s := s.send c (openFrame :: gapFrames s id lastSeq)
  let s := deliverQueuedMessages env s id c
  let s := s.send c (restoredFrames s restored)
  .admitted
    { id := id, token := token, transport := .WebSocket, tenant := auth.tenantId,
      claims := auth.claims, chan := c } s

/-- The part of `handle_socket` after authentication. -/
def admitSocket (env : Env) (cfg : Config) (s : AppState) (id token : String) (auth : Auth)
    (lastSeq : Option ℕ) : Outcome :=
  match existingToken env s id with
  | some storedToken =>
      if token ≠ storedToken then .rejected .idTaken s
      else
        let s := (s.insertClient env.now id token .WebSocket).insertTenant id auth.tenantId
        runClient env (restoreSession s id) id token auth lastSeq (restoredRooms s id)
  | none =>
      match s.tryReserveConnectionSlot cfg.concurrentLimit with
      | (s, false) => .rejected (.error .ConnectionLimitExceed) s
      | (s, true) =>
          if !env.redisOk .registerClient id then
            .rejected (.error .InvalidWsParameters) s.releaseConnectionSlot
          else
            let s := s.redisRegisterClient env id token
            let s := (s.insertClient env.now id token .WebSocket).insertTenant id auth.tenantId
            runClient env s id token auth lastSeq []

/-- `handle_socket` up to the read loop. -/
def handleSocket (env : Env) (cfg : Config) (s : AppState) (q : WsQuery) : Outcome :=
  match q.id, q.token, q.key with
  | some id, some token, some key =>
      if !isValidIdentifier id || !isValidIdentifier token then
        .rejected (.error .InvalidWsParameters) s
      else
        match authenticate env cfg (some key) q.apiKey q.jwt with
        | .error why => .rejected (.error why.peerError) s
        | .ok auth => admitSocket env cfg (s.storeClaims id auth.claims) id token auth q.lastSeq
  | _, _, _ => .rejected (.error .InvalidWsParameters) s

/-! ### The HTTP transports -/

/-- The ownership check and the slot reservation of `sse_handler` and
`poll_handler`: the state they leave, and the refusal if there is one. -/
def claimId (cfg : Config) (s : AppState) (id token : String) : AppState × Option Refusal :=
  match s.clients.lookup id with
  | some existing => (s, if existing.token ≠ token then some (.http 409 "ID is taken") else none)
  | none =>
      match s.tryReserveConnectionSlot cfg.concurrentLimit with
      | (s, false) => (s, some (.http 503 "Connection limit reached"))
      | (s, true) => (s, none)

/-- `sse_handler` after the id is claimed. -/
def openStream (env : Env) (s : AppState) (q : HttpQuery) (auth : Auth) : Outcome :=
  let s := s.redisRegisterClient env q.id q.token
  let c := s.nextChan
  let s := (s.newChannel.insertClient env.now q.id q.token .Sse).setSender q.id c
  let s := (s.insertTenant q.id auth.tenantId).send c [openFrame]
  let s := deliverQueuedMessages env s q.id c
  let s := s.send c (gapFrames s q.id q.lastSeq ++ replayFrames env s q.id q.lastSeq)
  .admitted
    { id := q.id, token := q.token, transport := .Sse, tenant := auth.tenantId,
      claims := auth.claims, chan := c, watchdog := true } s

/-- `sse_handler` up to the stream. -/
def sseHandler (env : Env) (cfg : Config) (s : AppState) (q : HttpQuery) : Outcome :=
  match authenticate env cfg q.key q.apiKey q.jwt with
  | .error why => .rejected why.httpRefusal s
  | .ok auth =>
      match claimId cfg (s.storeClaims q.id auth.claims) q.id q.token with
      | (s, some why) => .rejected why s
      | (s, none) => openStream env s q auth

/-- The sender and the receiver of a polling client: the stored ones if both
are there, else a new pair. -/
def pollingPair (s : AppState) (id : String) : AppState × ℕ × ℕ :=
  match s.pollingReceivers.lookup id, s.wsSenders.lookup id with
  | some rx, some tx => (s, tx, rx)
  | _, _ =>
      let c := s.nextChan
      let s := s.newChannel.setSender id c
      ({ s with pollingReceivers := s.pollingReceivers.insert id c }, c, c)

/-- The registration of a new polling client, or the heartbeat of a known
one. -/
def registerPoll (env : Env) (s : AppState) (isNewClient : Bool) (tx : ℕ) (q : HttpQuery)
    (auth : Auth) : AppState :=
  if isNewClient then
    let s := s.redisRegisterClient env q.id q.token
    let s := (s.insertClient env.now q.id q.token .Polling).insertTenant q.id auth.tenantId
    deliverQueuedMessages env (s.send tx [openFrame]) q.id tx
  else s.touch env.now q.id

/-- `poll_handler` up to the wait for messages. -/
def pollHandler (env : Env) (cfg : Config) (s : AppState) (q : HttpQuery) : Outcome :=
  match authenticate env cfg q.key q.apiKey q.jwt with
  | .error why => .rejected why.httpRefusal s
  | .ok auth =>
      let s := s.storeClaims q.id auth.claims
      let isNewClient := (s.clients.lookup q.id).isNone
      match claimId cfg s q.id q.token with
      | (s, some why) => .rejected why s
      | (s, none) =>
          let (s, tx, rx) := pollingPair s q.id
          let s := registerPoll env s isNewClient tx q auth
          let s := s.send tx (gapFrames s q.id q.lastSeq ++ replayFrames env s q.id q.lastSeq)
          .admitted
            { id := q.id, token := q.token, transport := .Polling, tenant := auth.tenantId,
              claims := auth.claims, chan := rx } s

/-! ### Any transport -/

/-- A connect request on one of the three transports. -/
inductive Request where
  | ws (q : WsQuery)
  | sse (q : HttpQuery)
  | poll (q : HttpQuery)

/-- A connect request is handled by its transport. -/
def connect (env : Env) (cfg : Config) (s : AppState) : Request → Outcome
  | .ws q => handleSocket env cfg s q
  | .sse q => sseHandler env cfg s q
  | .poll q => pollHandler env cfg s q

/-- The claims the request's `enforce_jwt` stores, with the id they are stored
under. -/
def storedClaims (env : Env) (cfg : Config) : Request → Option (String × Value)
  | .ws q =>
      match q.id, q.token, authenticate env cfg q.key q.apiKey q.jwt with
      | some id, some token, .ok auth =>
          if isValidIdentifier id ∧ isValidIdentifier token then auth.claims.map fun c => (id, c)
          else none
      | _, _, _ => none
  | .sse q | .poll q =>
      match authenticate env cfg q.key q.apiKey q.jwt with
      | .ok auth => auth.claims.map fun c => (q.id, c)
      | .error _ => none

/-! ### Disconnecting -/

/-- The receiver of the channel `c` is dropped. -/
def AppState.closeChannel (s : AppState) (c : ℕ) : AppState :=
  { s with chans := fun i => if i = c then { s.chans c with closed := true } else s.chans i }

/-- `client_claims.remove(id)` and `client_tenants.remove(id)`. -/
def AppState.eraseAuth (s : AppState) (id : String) : AppState :=
  { s with clientClaims := s.clientClaims.erase id, clientTenants := s.clientTenants.erase id }

/-- The removal statements that the end of a WebSocket and `cleanup_client`
share. -/
def teardown (env : Env) (cfg : Config) (s : AppState) (id : String) : AppState :=
  let s := ((s.dropClient id).eraseAuth id).removeBuckets id
  (removeClientFromAllRooms env cfg s id).redisRemoveClient env id

/-- The end of `run_client`: the removal if the connection's channel `c` is
still the id's, and the end of the writer task. -/
def closeSocket (env : Env) (cfg : Config) (s : AppState) (id : String) (c : ℕ) : AppState :=
  let s := if s.wsSenders.lookup id = some c then teardown env cfg s id else s
  s.closeChannel c

/-- `cleanup_client`. -/
def cleanupClient (env : Env) (cfg : Config) (s : AppState) (id : String) : AppState :=
  teardown env cfg { s with pollingReceivers := s.pollingReceivers.erase id } id

end Dendri
