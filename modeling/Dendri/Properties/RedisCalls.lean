import Dendri.Properties.Supplies

/-!
The Redis calls of the handlers. Each step of the server makes some calls of
`redis_realm.rs` that write, in an order that depends on the state before the step and on
which calls succeed.

* `RedisOp`: the writing calls, and what each of them does;
* `redisOps`: the calls of a step that succeed, handler by handler;
* `redis_of_step`: the Redis database after a step is the one before with these calls
  made on it.
-/

namespace Dendri

open AppState

/-- A call of `redis_realm.rs` that writes. -/
inductive RedisOp where
  | register (id token : String)
  | remove (id : String)
  | enqueue (id : String) (entry : QueueEntry)
  | touch (id : String)
  | clear (id : String)

namespace RedisOp

/-- The function that makes the call, and the id it is about. -/
def call : RedisOp → RedisCall × String
  | register id _ => (.registerClient, id)
  | remove id => (.removeClient, id)
  | enqueue id _ => (.addMessageToQueue, id)
  | touch id => (.readAllMessages, id)
  | clear id => (.clearMessageQueue, id)

/-- What a call does that succeeds. -/
def apply (now : ℕ) (r : Redis) : RedisOp → Redis
  | register id token => { r with clientToken := r.clientToken.insert id token }
  | remove id => { r with clientToken := r.clientToken.erase id }
  | enqueue id entry =>
      { r with
        queue := r.queue.insert id ((r.queue.lookup id).getD [] ++ [entry])
        queueMeta := r.queueMeta.insert id now
        queues := insert id r.queues }
  | touch id => { r with queueMeta := r.queueMeta.insert id now }
  | clear id =>
      { r with
        queue := r.queue.erase id
        queueMeta := r.queueMeta.erase id
        queues := r.queues.erase id }

/-- The call, if it succeeds. -/
def tried (env : Env) (op : RedisOp) : List RedisOp :=
  if env.redisOk op.call.1 op.call.2 then [op] else []

lemma mem_tried_iff {env : Env} {op op' : RedisOp} :
    op' ∈ op.tried env ↔ env.redisOk op.call.1 op.call.2 = true ∧ op' = op := by
  rw [tried]
  split_ifs with hok <;> simp [hok]

end RedisOp

/-- Redis after some calls. -/
def Redis.after (r : Redis) (now : ℕ) (ops : List RedisOp) : Redis := ops.foldl (RedisOp.apply now) r

lemma Redis.after_append (r : Redis) (now : ℕ) (ops ops' : List RedisOp) :
    r.after now (ops ++ ops') = (r.after now ops).after now ops' :=
  List.foldl_append

lemma Redis.after_tried (r : Redis) (env : Env) (op : RedisOp) :
    r.after env.now (op.tried env) =
      if env.redisOk op.call.1 op.call.2 then op.apply env.now r else r := by
  rw [RedisOp.tried]
  split_ifs <;> rfl

section Functions

variable (s : AppState) (env : Env) (id : String)

lemma redis_redisRegisterClient (token : String) : (s.redisRegisterClient env id token).redis =
    s.redis.after env.now ((RedisOp.register id token).tried env) :=
  (Redis.after_tried s.redis env (.register id token)).symm

lemma redis_redisRemoveClient : (s.redisRemoveClient env id).redis =
    s.redis.after env.now ((RedisOp.remove id).tried env) :=
  (Redis.after_tried s.redis env (.remove id)).symm

lemma redis_redisAddMessageToQueue (entry : QueueEntry) :
    (s.redisAddMessageToQueue env id entry).redis =
      s.redis.after env.now ((RedisOp.enqueue id entry).tried env) :=
  (Redis.after_tried s.redis env (.enqueue id entry)).symm

lemma redis_redisTouchQueue : (s.redisTouchQueue env id).redis =
    s.redis.after env.now ((RedisOp.touch id).tried env) :=
  (Redis.after_tried s.redis env (.touch id)).symm

lemma redis_redisClearMessageQueue : (s.redisClearMessageQueue env id).redis =
    s.redis.after env.now ((RedisOp.clear id).tried env) :=
  (Redis.after_tried s.redis env (.clear id)).symm

end Functions

/-! ### The calls of each handler -/

/-- The calls of `deliver_queued_messages`. -/
def deliveryOps (env : Env) (s : AppState) (id : String) : List RedisOp :=
  (RedisOp.touch id).tried env ++
    if s.redisQueue env id = [] then [] else (RedisOp.clear id).tried env

/-- The id that a relayed message is queued for, if any. -/
def queuedFor (s : AppState) (msg : Message) : Option String :=
  let dstId := msg.dst.getD ""
  if dstId ≠ "" then
    match s.wsSenders.lookup dstId with
    | some _ => none
    | none => if msg.type_ = .LEAVE ∨ msg.type_ = .EXPIRE then none else some dstId
  else none

/-- The calls of `handle_transmission`. -/
def transmissionOps (env : Env) (s : AppState) (msg : Message) : List RedisOp :=
  (removedBy s msg).elim [] (fun id => (RedisOp.remove id).tried env) ++
    (queuedFor s msg).elim [] fun id => (RedisOp.enqueue id (.message msg)).tried env

/-- The calls for a received message. -/
def messageOps (env : Env) (s : AppState) (id : String) (msg : Message) : List RedisOp :=
  if allowed env id msg.type_ = true ∧ msg.type_.isTransmission = true then
    transmissionOps env s { msg with src := some id }
  else []

/-- The calls for a request that is admitted. -/
def connectOps (env : Env) (s : AppState) : Request → List RedisOp
  | .ws q =>
      match q.id, q.token with
      | some id, some token =>
          (if (existingToken env s id).isSome then [] else (RedisOp.register id token).tried env) ++
            deliveryOps env s id
      | _, _ => []
  | .sse q => (RedisOp.register q.id q.token).tried env ++ deliveryOps env s q.id
  | .poll q =>
      if (s.clients.lookup q.id).isNone then
        (RedisOp.register q.id q.token).tried env ++ deliveryOps env s q.id
      else []

/-- The calls for one queue in a pass of `messages_expire`. -/
def expiryOps (env : Env) (cfg : Config) (s : AppState) (id : String) : List RedisOp :=
  if env.now - queueLastReadAt env s id < asI64 cfg.expireTimeout then []
  else (RedisOp.touch id).tried env ++ (RedisOp.clear id).tried env

/-- The calls of a step. -/
def redisOps (cfg : Config) (w : World) (l : Label) : List RedisOp :=
  match l.event with
  | .connect r => if (connect l.env cfg w.app r).isAdmitted then connectOps l.env w.app r else []
  | .evictBroken =>
      (toEvict l.env cfg w.app).flatMap fun id =>
        (RedisOp.clear id).tried l.env ++ (RedisOp.remove id).tried l.env
  | .expireMessages =>
      if l.env.redisOk .getClientIdsWithQueue "" then
        (l.env.order.toList w.app.redis.queues).flatMap (expiryOps l.env cfg w.app)
      else []
  | ev =>
      match incoming cfg w ev, cleanedUp w ev with
      | some (id, msg), _ => messageOps l.env w.app id msg
      | none, some (_, K) => (RedisOp.remove K.id).tried l.env
      | none, none => []

/-! ### What the handlers leave in Redis -/

lemma redis_deliverQueuedMessages (env : Env) (s : AppState) (id : String) (c : ℕ) :
    (deliverQueuedMessages env s id c).redis = s.redis.after env.now (deliveryOps env s id) := by
  have htouch := redis_redisTouchQueue s env id
  rw [deliverQueuedMessages, deliveryOps, Redis.after_append, ← htouch]
  split_ifs
  · rfl
  · rw [redis_redisClearMessageQueue]
    rfl

lemma redis_handleTransmission (env : Env) (s : AppState) (msg : Message) :
    (handleTransmission env s msg).redis = s.redis.after env.now (transmissionOps env s msg) := by
  rw [handleTransmission, transmissionOps, removedBy, queuedFor]
  by_cases hdst : msg.dst.getD "" ≠ ""
  · simp only [if_pos hdst]
    cases s.wsSenders.lookup (msg.dst.getD "") with
    | none =>
        dsimp only
        split_ifs
        · rfl
        · exact redis_redisAddMessageToQueue s env _ _
    | some c =>
        dsimp only
        split_ifs
        · rw [Option.elim_none, List.append_nil]
          exact redis_redisRemoveClient (s.dropClient _) env _
        · rfl
  · simp only [if_neg hdst]
    split_ifs
    · rw [Option.elim_none, List.append_nil]
      exact redis_redisRemoveClient (s.dropClient _) env _
    · rfl

lemma redis_removeClientFromRoom (s : AppState) (id room : String) :
    (removeClientFromRoom s id room).redis = s.redis := by
  rw [removeClientFromRoom]
  split
  · rfl
  · dsimp only
    split_ifs <;> rfl

lemma redis_handleRoomJoin (env : Env) (cfg : Config) (s : AppState) (id : String) (msg : Message) :
    (handleRoomJoin env cfg s id msg).redis = s.redis := by
  rw [handleRoomJoin]
  split
  · rfl
  · split <;> rfl

lemma redis_handleRoomLeave (s : AppState) (id : String) (msg : Message) :
    (handleRoomLeave s id msg).redis = s.redis := by
  rw [handleRoomLeave]
  split
  · rfl
  · split_ifs
    · rfl
    · exact redis_removeClientFromRoom s id _

lemma redis_handlePresenceUpdate (s : AppState) (id : String) (msg : Message) :
    (handlePresenceUpdate s id msg).redis = s.redis := by
  rw [handlePresenceUpdate]
  split
  · rfl
  · split_ifs <;> rfl

lemma redis_handleData (env : Env) (cfg : Config) (s : AppState) (id : String) (msg : Message) :
    (handleData env cfg s id msg).redis = s.redis :=
  handleData_induction (P := fun t => t.redis = s.redis) rfl rfl (fun _ _ _ => rfl)
    (fun _ _ _ _ => rfl) rfl

/-- The record of a message's activity does not show in what its calls depend on. -/
lemma transmissionOps_recorded (env : Env) (s : AppState) (id : String) (type_ : MessageType)
    (msg : Message) : transmissionOps env (recorded env s id type_) msg = transmissionOps env s msg := by
  rw [recorded]
  split_ifs <;> rfl

lemma redis_recorded (env : Env) (s : AppState) (id : String) (type_ : MessageType) :
    (recorded env s id type_).redis = s.redis := by
  rw [recorded]
  split_ifs <;> rfl

lemma redis_handleMessage (env : Env) (cfg : Config) (s : AppState) (id : String) (msg : Message) :
    (handleMessage env cfg s id msg).redis = s.redis.after env.now
      (if msg.type_.isTransmission = true then transmissionOps env s { msg with src := some id }
        else []) := by
  have hrec := redis_recorded env s id msg.type_
  -- every handler but `handle_transmission` leaves Redis alone
  have hkeep : ∀ t : AppState, msg.type_.isTransmission = false → t.redis = s.redis →
      t.redis = s.redis.after env.now
        (if msg.type_.isTransmission = true then transmissionOps env s { msg with src := some id }
          else []) := by
    intro t htype ht
    rw [htype, if_neg (by simp), ht]
    rfl
  refine handleMessage_induction (P := fun t => t.redis = s.redis.after env.now
    (if msg.type_.isTransmission = true then transmissionOps env s { msg with src := some id }
      else [])) ?_ ?_ ?_ ?_ ?_ ?_ ?_
  · exact fun h => hkeep _ (by rw [h]; rfl) rfl
  · intro h
    rw [redis_handleTransmission, if_pos h, hrec, transmissionOps_recorded]
  · exact fun h => hkeep _ (by rw [h]; rfl) ((redis_handleData env cfg _ id _).trans hrec)
  · exact fun h => hkeep _ (by rw [h]; rfl) ((redis_handleRoomJoin env cfg _ id _).trans hrec)
  · exact fun h => hkeep _ (by rw [h]; rfl) ((redis_handleRoomLeave _ id _).trans hrec)
  · exact fun h => hkeep _ (by rw [h]; rfl) ((redis_handlePresenceUpdate _ id _).trans hrec)
  · exact fun _ h => hkeep _ h hrec

lemma redis_receive (env : Env) (cfg : Config) (s : AppState) (id : String) (msg : Message) :
    (receive env cfg s id msg).1.redis = s.redis.after env.now (messageOps env s id msg) := by
  obtain ⟨hok, -⟩ := meter_eq env s id msg.type_
  have hmeter : (meter env s id msg.type_).1.redis = s.redis ∧
      transmissionOps env (meter env s id msg.type_).1 { msg with src := some id } =
        transmissionOps env s { msg with src := some id } := by
    rw [meter]
    cases msg.type_.bucket with
    | none => exact ⟨rfl, rfl⟩
    | some bucket => exact ⟨rfl, rfl⟩
  rw [receive, messageOps]
  dsimp only
  rw [hok]
  cases allowed env id msg.type_ with
  | false => exact hmeter.1
  | true =>
      have h := redis_handleMessage env cfg (meter env s id msg.type_).1 id msg
      rw [hmeter.1, hmeter.2] at h
      simpa using h

lemma redis_removeClientFromAllRooms (env : Env) (cfg : Config) (s : AppState) (id : String) :
    (removeClientFromAllRooms env cfg s id).redis = s.redis :=
  removeClientFromAllRooms_induction (P := fun t => t.redis = s.redis) env cfg rfl rfl
    (fun t room ht => (redis_removeClientFromRoom t id room).trans ht) (fun _ _ => rfl)
    fun _ ht => ht

lemma redis_teardown (env : Env) (cfg : Config) (s : AppState) (id : String) :
    (teardown env cfg s id).redis = s.redis.after env.now ((RedisOp.remove id).tried env) := by
  rw [teardown, redis_redisRemoveClient, redis_removeClientFromAllRooms]
  rfl

lemma redis_evictBroken (env : Env) (cfg : Config) (s : AppState) :
    (evictBroken env cfg s).redis = s.redis.after env.now ((toEvict env cfg s).flatMap fun id =>
      (RedisOp.clear id).tried env ++ (RedisOp.remove id).tried env) := by
  rw [evictBroken]
  generalize toEvict env cfg s = ids
  induction ids generalizing s with
  | nil => rfl
  | cons id ids ih =>
      have hid : (evictClient env s id).redis = s.redis.after env.now
          ((RedisOp.clear id).tried env ++ (RedisOp.remove id).tried env) := by
        rw [evictClient, redis_redisRemoveClient, redis_redisClearMessageQueue, Redis.after_append]
        rfl
      rw [List.foldl_cons, ih, hid, List.flatMap_cons, ← Redis.after_append]

lemma redis_expireSession (s : AppState) (id : String) : (expireSession s id).redis = s.redis :=
  expireSession_induction (P := fun t => t.redis = s.redis) rfl rfl
    fun t room ht => (redis_removeClientFromRoom t id room).trans ht

lemma redis_cleanupExpiredSessions (env : Env) (cfg : Config) (s : AppState) :
    (cleanupExpiredSessions env cfg s).redis = s.redis :=
  cleanupExpiredSessions_induction (P := fun t => t.redis = s.redis) env cfg rfl
    fun t id ht => (redis_expireSession t id).trans ht

/-- The round of one queue. -/
lemma redis_expireQueue_after (env : Env) (cfg : Config) (s : AppState) (id : String) :
    (expireQueue env cfg s id).redis = s.redis.after env.now (expiryOps env cfg s id) := by
  rw [redis_expireQueue, expiryOps]
  split_ifs
  · rfl
  · rw [redis_redisClearMessageQueue, redis_redisTouchQueue, Redis.after_append]

lemma redis_messagesExpire (env : Env) (cfg : Config) (s : AppState) :
    (messagesExpire env cfg s).redis = s.redis.after env.now
      (if env.redisOk .getClientIdsWithQueue "" then
        (env.order.toList s.redis.queues).flatMap (expiryOps env cfg s) else []) := by
  rw [messagesExpire]
  split_ifs
  · have hnodup := env.order.nodup_toList s.redis.queues
    generalize env.order.toList s.redis.queues = ids at hnodup
    induction ids generalizing s with
    | nil => rfl
    | cons id ids ih =>
        obtain ⟨hnotin, hnodup⟩ := List.nodup_cons.mp hnodup
        -- the times of the queues not visited yet are as they were
        have hrest : ids.flatMap (expiryOps env cfg (expireQueue env cfg s id)) =
            ids.flatMap (expiryOps env cfg s) := by
          refine List.flatMap_congr fun other hother => ?_
          have hmeta := (expireQueue_of_ne env cfg s
            (fun heq => hnotin (heq ▸ hother) : other ≠ id)).2
          rw [expiryOps, expiryOps, queueLastReadAt, hmeta, queueLastReadAt]
        rw [List.foldl_cons, ih _ hnodup, redis_expireQueue_after, hrest, List.flatMap_cons,
          Redis.after_append]
  · rfl

/-! ### Connecting -/

/-- The calls for queued messages depend on Redis only, and not on the tokens there. -/
lemma deliveryOps_congr {env : Env} {s t : AppState} (h : t.redis.queue = s.redis.queue)
    (id : String) : deliveryOps env t id = deliveryOps env s id := by
  rw [deliveryOps, deliveryOps, redisQueue, redisQueue, h]

lemma queue_after_register (r : Redis) (env : Env) (id token : String) :
    (r.after env.now ((RedisOp.register id token).tried env)).queue = r.queue := by
  rw [Redis.after_tried]
  split_ifs <;> rfl

lemma redis_runClient {env : Env} {s s' : AppState} {id token : String} {auth : Auth}
    {lastSeq : Option ℕ} {restored : List String} {K : Conn}
    (h : runClient env s id token auth lastSeq restored = .admitted K s') :
    s'.redis = s.redis.after env.now (deliveryOps env s id) := by
  obtain ⟨-, hs⟩ := Outcome.admitted.inj h
  rw [← hs]
  exact redis_deliverQueuedMessages env _ id _

lemma redis_restoreSession (s : AppState) (id : String) : (restoreSession s id).redis = s.redis := by
  rw [restoreSession]
  split <;> rfl

/-- The calls of a WebSocket that is admitted. -/
lemma redis_admitSocket {env : Env} {cfg : Config} {s s' : AppState} {id token : String}
    {auth : Auth} {lastSeq : Option ℕ} {K : Conn}
    (h : admitSocket env cfg s id token auth lastSeq = .admitted K s') :
    s'.redis = s.redis.after env.now
      ((if (existingToken env s id).isSome then [] else (RedisOp.register id token).tried env) ++
        deliveryOps env s id) := by
  rcases runClient_of_admitSocket h with
    ⟨htoken, t, restored, ht, hrun⟩ | ⟨htoken, -, t, ht, hrun⟩
  · have hredis : (restoreSession t id).redis = s.redis := by
      rw [redis_restoreSession, ht]
      rfl
    rw [redis_runClient hrun, hredis, deliveryOps_congr (congrArg Redis.queue hredis), htoken]
    rfl
  · have hredis : t.redis = s.redis.after env.now ((RedisOp.register id token).tried env) := by
      rw [ht]
      exact redis_redisRegisterClient _ env id token
    have hqueue : t.redis.queue = s.redis.queue :=
      (congrArg Redis.queue hredis).trans (queue_after_register s.redis env id token)
    rw [redis_runClient hrun, htoken, Option.isSome_none, if_neg (by simp), Redis.after_append,
      ← hredis, ← deliveryOps_congr (s := s) hqueue]
    rfl

lemma redis_openStream {env : Env} {s s' : AppState} {q : HttpQuery} {auth : Auth} {K : Conn}
    (h : openStream env s q auth = .admitted K s') :
    s'.redis = s.redis.after env.now
      ((RedisOp.register q.id q.token).tried env ++ deliveryOps env s q.id) := by
  obtain ⟨-, hs⟩ := Outcome.admitted.inj h
  have hreg := redis_redisRegisterClient s env q.id q.token
  rw [← hs, Redis.after_append, ← hreg, ← deliveryOps_congr (s := s)]
  · exact redis_deliverQueuedMessages env _ q.id _
  · exact (congrArg Redis.queue hreg).trans (queue_after_register _ env q.id q.token)

/-- The reservation of a slot leaves Redis alone. -/
lemma redis_claimId {cfg : Config} {s t : AppState} {id token : String} {claims : Option Value}
    (h : claimId cfg (s.storeClaims id claims) id token = (t, none)) : t.redis = s.redis := by
  obtain ⟨n, hn⟩ := claimId_counter cfg (s.storeClaims id claims) id token
  rw [h] at hn
  rw [show t = _ from hn]
  rfl

lemma redis_registerPoll (env : Env) (s : AppState) (isNew : Bool) (tx : ℕ) (q : HttpQuery)
    (auth : Auth) : (registerPoll env s isNew tx q auth).redis = s.redis.after env.now
      (if isNew then (RedisOp.register q.id q.token).tried env ++ deliveryOps env s q.id else []) := by
  rw [registerPoll]
  split_ifs
  · have hreg := redis_redisRegisterClient s env q.id q.token
    rw [Redis.after_append, ← hreg, ← deliveryOps_congr (s := s)]
    · exact redis_deliverQueuedMessages env _ q.id _
    · exact (congrArg Redis.queue hreg).trans (queue_after_register _ env q.id q.token)
  · rfl

lemma redis_pollingPair (s : AppState) (id : String) : (pollingPair s id).1.redis = s.redis := by
  rw [pollingPair]
  split <;> rfl

/-- The calls of a request that is admitted. -/
lemma redis_connect {env : Env} {cfg : Config} {s s' : AppState} {r : Request} {K : Conn}
    (h : connect env cfg s r = .admitted K s') :
    s'.redis = s.redis.after env.now (connectOps env s r) := by
  cases r with
  | ws q =>
      rcases handleSocket_cases env cfg s q with ⟨_, hout, -⟩ | ⟨id, token, auth, hid, htoken, h'⟩
      · exact absurd (h.symm.trans hout) (by simp)
      · obtain ⟨-, -, -, -, hout⟩ := h'
        have hadmit := redis_admitSocket (hout.symm.trans h)
        rw [connectOps, hid, htoken]
        exact hadmit
  | sse q =>
      rcases sseHandler_cases env cfg s q with ⟨_, hout⟩ | ⟨auth, t, -, hclaim, hout⟩
      · exact absurd (h.symm.trans hout) (by simp)
      · have hredis : t.redis = s.redis := (redis_claimId hclaim)
        rw [redis_openStream (hout.symm.trans h), hredis, connectOps,
          deliveryOps_congr (congrArg Redis.queue hredis)]
  | poll q =>
      rcases pollHandler_cases env cfg s q with ⟨_, hout⟩ | ⟨auth, t, u, -, hclaim, hu, hout⟩
      · exact absurd (h.symm.trans hout) (by simp)
      · have hredis : (pollingPair t q.id).1.redis = s.redis :=
          (redis_pollingPair t q.id).trans (redis_claimId hclaim)
        obtain ⟨-, hs⟩ := Outcome.admitted.inj (hout.symm.trans h)
        rw [← hs, hu]
        refine (redis_registerPoll env _ _ _ q auth).trans ?_
        rw [hredis, connectOps, deliveryOps_congr (congrArg Redis.queue hredis)]

/-! ### Steps -/

lemma redis_wsText (env : Env) (cfg : Config) (s : AppState) (c : ℕ) (id : String) (len : ℕ)
    (parsed : Option Message) : (wsText env cfg s c id len parsed).redis =
      s.redis.after env.now
        ((if cfg.maxMessageSize < len then none else parsed).elim [] (messageOps env s id)) := by
  rw [wsText.eq_def]
  by_cases hlen : cfg.maxMessageSize < len
  · rw [if_pos hlen, if_pos hlen]
    rfl
  · rw [if_neg hlen, if_neg hlen]
    cases parsed with
    | none => rfl
    | some msg =>
        have h := redis_receive env cfg s id msg
        dsimp only
        split_ifs
        · exact h
        · exact h

lemma redis_sendHandler (env : Env) (cfg : Config) (s : AppState) (id token : String)
    (parsed : Option Message) : (sendHandler env cfg s id token parsed).1.redis =
      s.redis.after env.now
        ((((s.clients.lookup id).filter fun client => decide (client.token = token)).bind fun _ =>
          parsed).elim [] (messageOps env s id)) := by
  rw [sendHandler]
  cases s.clients.lookup id with
  | none => rfl
  | some client =>
      dsimp only
      rw [Option.filter_some]
      by_cases htoken : client.token = token
      · rw [if_pos htoken, if_pos (by simpa using htoken)]
        cases parsed with
        | none => rfl
        | some msg => exact redis_receive env cfg (s.touch env.now id) id msg
      · rw [if_neg htoken, if_neg (by simpa using htoken)]
        rfl

/-- The calls of a disconnect cleanup. -/
lemma redisOps_of_cleanedUp {cfg : Config} {w : World} {env : Env} {ev : Event} {k : ℕ} {K : Conn}
    (h : cleanedUp w ev = some (k, K)) :
    redisOps cfg w ⟨env, ev⟩ = (RedisOp.remove K.id).tried env := by
  cases ev with
  | wsClose k => simp only [redisOps, incoming, h]
  | watchdogTick k => simp only [redisOps, incoming, h]
  | streamEnd k => simp only [redisOps, incoming, h]
  | _ => exact absurd h (by simp [cleanedUp])

/-- The calls for a received message. -/
lemma redisOps_of_incoming {cfg : Config} {w : World} {env : Env} {ev : Event} {id : String}
    {msg : Message} (h : incoming cfg w ev = some (id, msg)) :
    redisOps cfg w ⟨env, ev⟩ = messageOps env w.app id msg := by
  cases ev with
  | wsText k len parsed => simp only [redisOps, h]
  | httpSend id token parsed => simp only [redisOps, h]
  | _ => exact absurd h (by simp [incoming])

/-- Nothing comes in and nothing is cleaned up. -/
lemma redisOps_of_none {cfg : Config} {w : World} {env : Env} {ev : Event}
    (hin : incoming cfg w ev = none) (hdown : cleanedUp w ev = none) (hconnect : ∀ r, ev ≠ .connect r)
    (hevict : ev ≠ .evictBroken) (hexpire : ev ≠ .expireMessages) :
    redisOps cfg w ⟨env, ev⟩ = [] := by
  cases ev with
  | connect r => exact absurd rfl (hconnect r)
  | evictBroken => exact absurd rfl hevict
  | expireMessages => exact absurd rfl hexpire
  | _ => simp only [redisOps, hin, hdown]

lemma redis_of_connect {cfg : Config} {w w' : World} {env : Env} {r : Request}
    (h : step cfg w ⟨env, .connect r⟩ = some w') :
    w'.app.redis = w.app.redis.after env.now (redisOps cfg w ⟨env, .connect r⟩) := by
  rw [step] at h
  rw [redisOps]
  dsimp only at h ⊢
  cases hout : connect env cfg w.app r with
  | rejected why s =>
      rw [hout, Option.some.injEq] at h
      rw [← h, connect_rejected hout, Outcome.isAdmitted, if_neg (by simp)]
      show (w.app.withClaims (storedClaims env cfg r)).redis = w.app.redis
      cases storedClaims env cfg r with
      | none => rfl
      | some claims => rfl
  | admitted K s =>
      rw [hout, Option.some.injEq] at h
      rw [← h, Outcome.isAdmitted, if_pos rfl]
      exact redis_connect hout

lemma redis_of_wsText {cfg : Config} {w : World} {env : Env} {k len : ℕ} {parsed : Option Message}
    {K : Conn} (hK : w.openConn k .WebSocket = some K) :
    (wsText env cfg w.app K.chan K.id len parsed).redis =
      w.app.redis.after env.now (redisOps cfg w ⟨env, .wsText k len parsed⟩) := by
  have hin : incoming cfg w (.wsText k len parsed) =
      (if cfg.maxMessageSize < len then none else parsed).map fun msg => (K.id, msg) := by
    rw [incoming, hK, Option.bind_some, apply_ite (Option.map _), Option.map_none]
  rw [redis_wsText]
  cases hmsg : (if cfg.maxMessageSize < len then none else parsed) with
  | none =>
      rw [hmsg] at hin
      rw [redisOps_of_none hin rfl (by simp) (by simp) (by simp), Option.elim_none]
  | some msg =>
      rw [hmsg] at hin
      rw [redisOps_of_incoming hin, Option.elim_some]

lemma redis_of_httpSend {cfg : Config} {w : World} {env : Env} {id token : String}
    {parsed : Option Message} : (sendHandler env cfg w.app id token parsed).1.redis =
      w.app.redis.after env.now (redisOps cfg w ⟨env, .httpSend id token parsed⟩) := by
  have hin : incoming cfg w (.httpSend id token parsed) =
      (((w.app.clients.lookup id).filter fun client => decide (client.token = token)).bind
        fun _ => parsed).map fun msg => (id, msg) := by
    rw [incoming, Option.map_bind]
    rfl
  rw [redis_sendHandler]
  cases hmsg : ((w.app.clients.lookup id).filter fun client => decide (client.token = token)).bind
      fun _ => parsed with
  | none =>
      rw [hmsg] at hin
      rw [redisOps_of_none hin rfl (by simp) (by simp) (by simp), Option.elim_none]
  | some msg =>
      rw [hmsg] at hin
      rw [redisOps_of_incoming hin, Option.elim_some]

lemma redis_of_wsClose {cfg : Config} {w : World} {env : Env} {k : ℕ} {K : Conn}
    (hK : w.openConn k .WebSocket = some K) : (closeSocket env cfg w.app K.id K.chan).redis =
      w.app.redis.after env.now (redisOps cfg w ⟨env, .wsClose k⟩) := by
  rw [closeSocket]
  by_cases hcur : w.app.wsSenders.lookup K.id = some K.chan
  · have hdown : cleanedUp w (.wsClose k) = some (k, K) := by
      simp [cleanedUp, hK, hcur, Option.filter]
    rw [redisOps_of_cleanedUp hdown, if_pos hcur]
    exact redis_teardown env cfg w.app K.id
  · have hdown : cleanedUp w (.wsClose k) = none := by
      simp [cleanedUp, hK, hcur, Option.filter]
    rw [redisOps_of_none rfl hdown (by simp) (by simp) (by simp), if_neg hcur]
    rfl

/-- A watchdog cleans up when its stream was dropped, and does nothing else to the shared
state. -/
lemma app_of_watchdogTick {cfg : Config} {w w' : World} {env : Env} {k : ℕ}
    (h : watchdogTick env cfg w k = some w') :
    w'.app = (w.droppedStream k).elim w.app fun K => cleanupClient env cfg w.app K.id := by
  rw [watchdogTick] at h
  cases hK : w.droppedStream k with
  | some K =>
      rw [hK, Option.some.injEq] at h
      rw [← h]
      rfl
  | none =>
      rw [hK] at h
      obtain ⟨K, -, hw⟩ := Option.map_eq_some_iff.mp h
      rw [← hw]
      split_ifs <;> rfl

lemma redis_of_watchdogTick {cfg : Config} {w w' : World} {env : Env} {k : ℕ}
    (h : watchdogTick env cfg w k = some w') :
    w'.app.redis = w.app.redis.after env.now (redisOps cfg w ⟨env, .watchdogTick k⟩) := by
  rw [app_of_watchdogTick h]
  cases hK : w.droppedStream k with
  | some K =>
      have hdown : cleanedUp w (.watchdogTick k) = some (k, K) := by simp [cleanedUp, hK]
      rw [redisOps_of_cleanedUp hdown]
      exact redis_teardown env cfg _ K.id
  | none =>
      have hdown : cleanedUp w (.watchdogTick k) = none := by simp [cleanedUp, hK]
      rw [redisOps_of_none rfl hdown (by simp) (by simp) (by simp)]
      rfl

/-- Redis after a step is Redis before it with the calls of the step made on it. -/
theorem redis_of_step {cfg : Config} {w w' : World} {l : Label} (h : step cfg w l = some w')
    (hev : ∀ redis, l.event ≠ .redisChange redis) :
    w'.app.redis = w.app.redis.after l.env.now (redisOps cfg w l) := by
  obtain ⟨env, ev⟩ := l
  have hreacts := reacts_of_step h
  dsimp only at hreacts hev ⊢
  obtain ⟨s', hs⟩ : ∃ s', w'.app = s' := ⟨_, rfl⟩
  rw [hs] at hreacts
  cases hreacts with
  | refused r => exact redis_of_connect h
  | admitted r K s' hout => exact redis_of_connect h
  | wsText k len parsed K hK =>
      rw [hs]
      exact redis_of_wsText hK
  | httpSend id token parsed =>
      rw [hs]
      exact redis_of_httpSend
  | wsClose k K hK =>
      rw [hs]
      exact redis_of_wsClose hK
  | receiverDrop k K hK hpoll =>
      rw [hs]
      rfl
  | watchdogTick k K hK => exact redis_of_watchdogTick h
  | streamEnd k K hK =>
      have hdown : cleanedUp w (.streamEnd k) = some (k, K) := by simp [cleanedUp, hK]
      rw [hs, redisOps_of_cleanedUp hdown]
      exact redis_teardown env cfg _ K.id
  | nothing ev k hev' =>
      rcases hev' with rfl | rfl
      · exact redis_of_watchdogTick h
      · rw [hs]
        rfl
  | deliver c n =>
      rw [hs]
      rfl
  | evictBroken =>
      rw [hs]
      exact redis_evictBroken env cfg w.app
  | reconcile =>
      rw [hs]
      rfl
  | expireSessions =>
      rw [hs]
      exact redis_cleanupExpiredSessions env cfg w.app
  | expireMessages =>
      rw [hs]
      exact redis_messagesExpire env cfg w.app
  | evictReplay =>
      rw [hs]
      rfl
  | redisChange redis => exact absurd rfl (hev redis)

end Dendri
