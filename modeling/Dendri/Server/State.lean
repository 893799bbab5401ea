import Dendri.Lib.FinMap
import Dendri.Server.Message
import Dendri.Server.Jwt
import Dendri.Server.ReplayBuffer
import Mathlib.Data.String.Basic

/-!
`config.rs`, `state.rs`, `rate_limiter.rs` and `redis_realm.rs`: the
configuration, the shared state of the server, and what the outside world
answers during one handler.

* `AppState`: the shared maps, with the channels their senders and receivers
  point to and the Redis database behind the server's connection;
* `Env`: what is outside the program during one step: the clock, the order in
  which hash sets are visited, which Redis calls succeed, the API-key lookup,
  the JWT signature check and the rate limiter's verdict;
* `send`, `sendTo`, `fanOut`: putting a frame on one channel, on the channel of
  a client, on the channels of the members of a room;
* `dropClient`: the statements every removal path shares.

All functions are written as one record update, so that what they leave alone
is read off their definition.
-/

namespace Dendri

/-- A `DashMap` keyed by strings. -/
abbrev DashMap (V : Type) := Finmap fun _ : String => V

/-- The fields of `Config` that the modelled functions read. -/
structure Config where
  key : String := "dendri"
  concurrentLimit : UInt64 := 10000
  aliveTimeout : UInt64 := 60000
  idleTimeout : UInt64 := 900000
  expireTimeout : UInt64 := 5000
  enableRelay : Bool := false
  maxMessageSize : ℕ := 65536
  maxRoomSize : ℕ := 50
  maxRoomsPerClient : ℕ := 32
  maxTotalRooms : ℕ := 10000
  replayBufferSize : ℕ := 1000
  replayBufferTtl : ℕ := 300000
  sessionTtl : ℕ := 30000
  jwtSecret : Option String := none
  requireApiKey : Bool := false

/-- `TransportKind`. -/
inductive TransportKind where
  | WebSocket | Sse | Polling
  deriving DecidableEq, Repr

/-- `ClientMeta`. -/
structure ClientMeta where
  token : String
  lastPing : ℤ
  lastMessage : ℤ
  transport : TransportKind
  deriving DecidableEq

/-- `PendingRemoval`. -/
structure PendingRemoval where
  rooms : List String
  disconnectedAt : ℕ
  deriving DecidableEq

/-- One unbounded `mpsc` channel: the frames not yet received, and whether the
receiver is gone. -/
structure Channel where
  queue : List Frame := []
  closed : Bool := false

/-- Frames that are sent to a channel one after the other. -/
def Channel.push (ch : Channel) (frames : List Frame) : Channel :=
  if ch.closed = false then { ch with queue := ch.queue ++ frames } else ch

lemma Channel.push_nil (ch : Channel) : ch.push [] = ch := by
  rw [Channel.push, List.append_nil]
  exact ite_self _

lemma Channel.push_push (ch : Channel) (frames frames' : List Frame) :
    (ch.push frames).push frames' = ch.push (frames ++ frames') := by
  rw [Channel.push, Channel.push, Channel.push]
  by_cases hopen : ch.closed = false
  · rw [if_pos hopen, if_pos hopen, if_pos hopen, List.append_assoc]
  · rw [if_neg hopen, if_neg hopen, if_neg hopen]

/-- `RateLimiter`: which buckets exist, by client and bucket type. The tokens
in a bucket are the `governor` crate's. -/
structure RateLimiter where
  buckets : Finset (String × String)

/-- The Redis keys the handlers use: the token of `peer:client:{id}`, the list
`peer:queue:{id}`, the timestamp `peer:queue_meta:{id}` and the set
`peer:queues`. -/
structure Redis where
  clientToken : DashMap String
  queue : DashMap (List QueueEntry)
  queueMeta : DashMap ℤ
  queues : Finset String

/-- `AppState`. The channels the stored senders and receivers belong to are
numbered in the order they were created; `nextChan` is the next number. -/
structure AppState where
  wsSenders : DashMap ℕ
  clients : DashMap ClientMeta
  rooms : DashMap (Finset String)
  clientRooms : DashMap (Finset String)
  seqCounter : ℕ
  rateLimiter : RateLimiter
  replayBuffer : ReplayBuffer Frame
  pendingRemovals : DashMap PendingRemoval
  presence : DashMap (DashMap String)
  clientClaims : DashMap Value
  clientTenants : DashMap String
  activeConnections : UInt64
  pollingReceivers : DashMap ℕ
  redis : Redis
  chans : ℕ → Channel
  nextChan : ℕ

/-- The Redis calls that can fail. -/
inductive RedisCall where
  | registerClient | removeClient | getClientToken | addMessageToQueue
  | readAllMessages | clearMessageQueue | getClientIdsWithQueue | getQueueLastReadAt
  deriving DecidableEq, Repr

/-- What the world outside the program answers during one step. -/
structure Env where
  /-- Milliseconds, of the wall clock and of the monotonic clock. -/
  now : ℕ
  /-- The order in which hash sets and hash maps are visited. -/
  order : SetOrder String
  /-- Whether a Redis call for an id succeeds. -/
  redisOk : RedisCall → String → Bool
  /-- `tenant::resolve_api_key`. -/
  resolveApiKey : String → Option Tenant
  /-- `jwt::validate_jwt` on a secret and a token. -/
  validateJwt : String → String → Option Value
  /-- `check` of the `governor` bucket of a client and a bucket type. -/
  governorCheck : String → String → Bool

/-- A world in which all calls succeed, no API key or JWT is known and no
client is throttled. -/
def Env.quiet (now : ℕ) : Env where
  now := now
  order := SetOrder.sorted String
  redisOk := fun _ _ => true
  resolveApiKey := fun _ => none
  validateJwt := fun _ _ => none
  governorCheck := fun _ _ => true

namespace AppState

/-- `AppState::new`: an empty server in front of a Redis database. -/
def new (cfg : Config) (redis : Redis) : AppState where
  wsSenders := ∅
  clients := ∅
  rooms := ∅
  clientRooms := ∅
  seqCounter := 0
  rateLimiter := ⟨∅⟩
  replayBuffer := ⟨∅, cfg.replayBufferSize, cfg.replayBufferTtl⟩
  pendingRemovals := ∅
  presence := ∅
  clientClaims := ∅
  clientTenants := ∅
  activeConnections := 0
  pollingReceivers := ∅
  redis := redis
  chans := fun _ => {}
  nextChan := 0

/-! ### Connection slots -/

/-- `try_reserve_connection_slot`: `fetch_add`, undone when the limit was
reached. -/
def tryReserveConnectionSlot (s : AppState) (limit : UInt64) : AppState × Bool :=
  let prev := s.activeConnections
  let s := { s with activeConnections := s.activeConnections + 1 }
  if limit ≤ prev then ({ s with activeConnections := s.activeConnections - 1 }, false)
  else (s, true)

/-- `release_connection_slot`. -/
def releaseConnectionSlot (s : AppState) : AppState :=
  { s with activeConnections := s.activeConnections - 1 }

/-! ### Channels -/

/-- `sender.send(..)` on the channel `c` for each of `frames` in turn; frames
for a closed channel are lost. -/
def send (s : AppState) (c : ℕ) (frames : List Frame) : AppState :=
  { s with
    chans := fun i =>
      if i = c ∧ (s.chans c).closed = false then
        { s.chans c with queue := (s.chans c).queue ++ frames }
      else s.chans i }

lemma chans_send_self (s : AppState) (c : ℕ) (frames : List Frame) :
    (s.send c frames).chans c = (s.chans c).push frames := by
  rw [send, Channel.push]
  simp only [true_and]

/-- Look up a client's sender and send, ignoring the result. -/
def sendTo (s : AppState) (id : String) (frames : List Frame) : AppState :=
  { s with
    chans :=
      match s.wsSenders.lookup id with
      | some c => (s.send c frames).chans
      | none => s.chans }

lemma chans_sendTo_push (s : AppState) (id : String) (frames : List Frame) (c : ℕ) :
    (s.sendTo id frames).chans c =
      if s.wsSenders.lookup id = some c then (s.chans c).push frames else s.chans c := by
  rw [sendTo]
  cases hsender : s.wsSenders.lookup id with
  | none => rw [if_neg (by simp)]
  | some c' =>
    dsimp only
    by_cases hc : c' = c
    · rw [hc, if_pos rfl, chans_send_self]
    · rw [if_neg (by simpa using hc), send]
      dsimp only
      rw [if_neg fun h => hc h.1.symm]

/-- The loop that sends `frame` to every id of `members`. Distinct ids have
distinct channels, so the order of the loop does not matter. -/
def fanOut (s : AppState) (members : Finset String) (frame : Frame) : AppState :=
  { s with
    chans := fun i =>
      if (∃ m ∈ members, s.wsSenders.lookup m = some i) ∧ (s.chans i).closed = false then
        { s.chans i with queue := (s.chans i).queue ++ [frame] }
      else s.chans i }

lemma chans_fanOut_push (s : AppState) (members : Finset String) (frame : Frame) (c : ℕ) :
    (s.fanOut members frame).chans c =
      if ∃ m ∈ members, s.wsSenders.lookup m = some c then (s.chans c).push [frame]
      else s.chans c := by
  rw [Channel.push, ← ite_and]
  rfl

/-- `mpsc::unbounded_channel()`: the new channel's number is `s.nextChan`. -/
def newChannel (s : AppState) : AppState :=
  { s with
    chans := fun i => if i = s.nextChan then {} else s.chans i
    nextChan := s.nextChan + 1 }

/-! ### Client records -/

/-- `ClientMeta::touch` on a registered client. -/
def touch (s : AppState) (now : ℕ) (id : String) : AppState :=
  { s with clients := FinMap.modify s.clients id fun m => { m with lastPing := now } }

/-- `ClientMeta::record_message` on a registered client. -/
def recordMessage (s : AppState) (now : ℕ) (id : String) : AppState :=
  { s with clients := FinMap.modify s.clients id fun m => { m with lastMessage := now } }

/-- `clients.insert(id, ClientMeta::with_transport(token, transport))`. -/
def insertClient (s : AppState) (now : ℕ) (id token : String) (transport : TransportKind) :
    AppState :=
  { s with clients := s.clients.insert id ⟨token, now, now, transport⟩ }

/-- `if let Some(tenant_id) = tenant_id { client_tenants.insert(id, tenant_id) }`. -/
def insertTenant (s : AppState) (id : String) (tenantId : Option String) : AppState :=
  { s with clientTenants := FinMap.insertOpt s.clientTenants id tenantId }

/-- Remove a client's sender and its record, and release its slot if there was
a record. Every removal path of the server contains these statements. -/
def dropClient (s : AppState) (id : String) : AppState :=
  { s with
    wsSenders := s.wsSenders.erase id
    clients := s.clients.erase id
    activeConnections :=
      if (s.clients.lookup id).isSome then s.activeConnections - 1 else s.activeConnections }

/-! ### The rate limiter -/

/-- `RateLimiter::check_and_consume`: the bucket is created if it is not
there; the verdict is the bucket's. -/
def checkAndConsume (s : AppState) (env : Env) (id bucket : String) : AppState × Bool :=
  ({ s with rateLimiter := ⟨insert (id, bucket) s.rateLimiter.buckets⟩ },
    env.governorCheck id bucket)

/-- `RateLimiter::remove_client`. -/
def removeBuckets (s : AppState) (id : String) : AppState :=
  { s with rateLimiter := ⟨s.rateLimiter.buckets.filter fun b => b.1 ≠ id⟩ }

/-! ### Redis -/

/-- `redis_realm::register_client`, ignoring an error. -/
def redisRegisterClient (s : AppState) (env : Env) (id token : String) : AppState :=
  { s with
    redis :=
      if env.redisOk .registerClient id then
        { s.redis with clientToken := s.redis.clientToken.insert id token }
      else s.redis }

/-- `redis_realm::remove_client`, ignoring an error. -/
def redisRemoveClient (s : AppState) (env : Env) (id : String) : AppState :=
  { s with
    redis :=
      if env.redisOk .removeClient id then
        { s.redis with clientToken := s.redis.clientToken.erase id }
      else s.redis }

/-- `redis_realm::get_client_token`, an error read as absence. -/
def redisClientToken (s : AppState) (env : Env) (id : String) : Option String :=
  if env.redisOk .getClientToken id then s.redis.clientToken.lookup id else none

/-- `redis_realm::add_message_to_queue`, ignoring an error. -/
def redisAddMessageToQueue (s : AppState) (env : Env) (id : String) (entry : QueueEntry) :
    AppState :=
  { s with
    redis :=
      if env.redisOk .addMessageToQueue id then
        { s.redis with
          queue := s.redis.queue.insert id ((s.redis.queue.lookup id).getD [] ++ [entry])
          queueMeta := s.redis.queueMeta.insert id env.now
          queues := insert id s.redis.queues }
      else s.redis }

/-- The state after `redis_realm::read_all_messages`: the last-read time is
updated. -/
def redisTouchQueue (s : AppState) (env : Env) (id : String) : AppState :=
  { s with
    redis :=
      if env.redisOk .readAllMessages id then
        { s.redis with queueMeta := s.redis.queueMeta.insert id env.now }
      else s.redis }

/-- The answer of `redis_realm::read_all_messages`, an error read as an empty
queue. -/
def redisQueue (s : AppState) (env : Env) (id : String) : List QueueEntry :=
  if env.redisOk .readAllMessages id then (s.redis.queue.lookup id).getD [] else []

/-- `redis_realm::clear_message_queue`, ignoring an error. -/
def redisClearMessageQueue (s : AppState) (env : Env) (id : String) : AppState :=
  { s with
    redis :=
      if env.redisOk .clearMessageQueue id then
        { s.redis with
          queue := s.redis.queue.erase id
          queueMeta := s.redis.queueMeta.erase id
          queues := s.redis.queues.erase id }
      else s.redis }

end AppState

end Dendri
