import Dendri.Handlers.Admits
import Dendri.Lib.MachineInt

/-!
The background passes of `services/`: the eviction of broken connections, the
reconciliation of the counter, the expiry of queued messages and of replay
buffers. The session cleanup is `cleanupExpiredSessions`.

* `evictBroken`: the eviction loop of `check_broken.rs`; on the registry it
  drops the evicted ids and nothing else (`registry_evictBroken`);
* `messagesExpire`: the loop of `messages_expire.rs`, which only sends
  (`messagesExpire_frame`).
-/

namespace Dendri

open AppState

/-- A `u64` cast `as i64`. -/
def asI64 (n : UInt64) : ℤ := n.toInt64.toInt

/-- The cast in two's complement. -/
lemma asI64_eq (n : UInt64) :
    asI64 n = if n.toNat < 2 ^ 63 then (n.toNat : ℤ) else (n.toNat : ℤ) - 2 ^ 64 :=
  MachineInt.toInt_toInt64 n

/-- A `u64` below `2 ^ 63` is cast to itself. -/
lemma asI64_of_lt {n : UInt64} (h : n.toNat < 2 ^ 63) : asI64 n = n.toNat := by
  rw [asI64_eq, if_pos h]

/-- A `u64` that is cast to a positive number is cast to itself. -/
lemma asI64_of_pos {n : UInt64} (h : 0 < asI64 n) : asI64 n = n.toNat := by
  rw [asI64_eq] at h ⊢
  split_ifs at h ⊢ with hlt
  · rfl
  · have := n.toNat_lt
    omega

/-! ### Broken connections -/

/-- The alive check and the idle check of `check_broken.rs`. -/
def isBroken (cfg : Config) (now : ℕ) (client : ClientMeta) : Bool :=
  decide (asI64 cfg.aliveTimeout ≤ now - client.lastPing) ||
    (decide (0 < asI64 cfg.idleTimeout) &&
      decide (asI64 cfg.idleTimeout ≤ now - client.lastMessage))

/-- The ids to evict. -/
def toEvict (env : Env) (cfg : Config) (s : AppState) : List String :=
  (env.order.toList s.clients.keys).filter fun id =>
    match s.clients.lookup id with
    | some client => isBroken cfg env.now client
    | none => false

/-- The ids to evict are those with broken records. -/
lemma mem_toEvict {env : Env} {cfg : Config} {s : AppState} {id : String} {client : ClientMeta}
    (hclient : s.clients.lookup id = some client) :
    id ∈ toEvict env cfg s ↔ isBroken cfg env.now client = true := by
  have hkey : id ∈ env.order.toList s.clients.keys :=
    env.order.mem_toList.mpr (Finmap.mem_keys.mpr (Finmap.mem_of_lookup_eq_some hclient))
  rw [toEvict, List.mem_filter, and_iff_right hkey, hclient]

/-- One round of the eviction loop. -/
def evictClient (env : Env) (s : AppState) (id : String) : AppState :=
  ((s.dropClient id).redisClearMessageQueue env id).redisRemoveClient env id

/-- The eviction loop of `check_broken::run`. -/
def evictBroken (env : Env) (cfg : Config) (s : AppState) : AppState :=
  (toEvict env cfg s).foldl (evictClient env) s

/-- The periodic reconciliation of the counter. -/
def reconcile (s : AppState) : AppState :=
  { s with activeConnections := UInt64.ofNat s.clients.keys.card }

lemma foldl_evictClient_frame (env : Env) (l : List String) (s : AppState) :
    (l.foldl (evictClient env) s).registry = l.foldl Registry.drop s.registry ∧
      (l.foldl (evictClient env) s).roomMaps = s.roomMaps := by
  induction l generalizing s with
  | nil => exact ⟨rfl, rfl⟩
  | cons id l ih =>
      obtain ⟨hreg, hmaps⟩ := ih (evictClient env s id)
      have hdrop : (evictClient env s id).registry = s.registry.drop id := registry_dropClient s id
      rw [List.foldl_cons, List.foldl_cons, hreg, hmaps, hdrop]
      exact ⟨rfl, rfl⟩

/-- An eviction pass drops the evicted ids, and touches no membership. -/
lemma registry_evictBroken (env : Env) (cfg : Config) (s : AppState) :
    (evictBroken env cfg s).registry = (toEvict env cfg s).foldl Registry.drop s.registry ∧
      (evictBroken env cfg s).roomMaps = s.roomMaps :=
  foldl_evictClient_frame env _ s

/-! ### Queued messages -/

/-- The sender and the destination of each queued message, a pair only once.
The set of pairs seen is keyed by `{src}_{dst}`, as the source has it. -/
def expireNotices : List String → List QueueEntry → List (String × String)
  | _, [] => []
  | seen, entry :: entries =>
      match entry.parse with
      | none => expireNotices seen entries
      | some msg =>
          let src := msg.src.getD ""
          let dst := msg.dst.getD ""
          let seenKey := src ++ "_" ++ dst
          if seenKey ∈ seen then expireNotices seen entries
          else (src, dst) :: expireNotices (seenKey :: seen) entries

lemma expireNotices_malformed (seen : List String) (text : String) (entries : List QueueEntry) :
    expireNotices seen (.malformed text :: entries) = expireNotices seen entries := rfl

lemma expireNotices_message (seen : List String) (msg : Message) (entries : List QueueEntry) :
    expireNotices seen (.message msg :: entries) =
      if msg.src.getD "" ++ "_" ++ msg.dst.getD "" ∈ seen then expireNotices seen entries
      else (msg.src.getD "", msg.dst.getD "") ::
        expireNotices ((msg.src.getD "" ++ "_" ++ msg.dst.getD "") :: seen) entries := rfl

/-- The answer of `redis_realm::get_queue_last_read_at`, an error or no answer
read as `0`. -/
def queueLastReadAt (env : Env) (s : AppState) (id : String) : ℤ :=
  if env.redisOk .getQueueLastReadAt id then (s.redis.queueMeta.lookup id).getD 0 else 0

/-- One round of the loop of `messages_expire::run`. -/
def expireQueue (env : Env) (cfg : Config) (s : AppState) (dstId : String) : AppState :=
  if env.now - queueLastReadAt env s dstId < asI64 cfg.expireTimeout then s
  else
    let messages := s.redisQueue env dstId
    let s := s.redisTouchQueue env dstId
    let s := (expireNotices [] messages).foldl
      (fun s (src, dst) => s.sendTo src [.expire dst src]) s
    s.redisClearMessageQueue env dstId

/-- On Redis, the round of a queue whose time is up reads and clears the queue. -/
lemma redis_expireQueue (env : Env) (cfg : Config) (s : AppState) (dstId : String) :
    (expireQueue env cfg s dstId).redis =
      if env.now - queueLastReadAt env s dstId < asI64 cfg.expireTimeout then s.redis
      else ((s.redisTouchQueue env dstId).redisClearMessageQueue env dstId).redis := by
  have hsends : ∀ (notices : List (String × String)) (t : AppState),
      (notices.foldl (fun s n => s.sendTo n.1 [.expire n.2 n.1]) t).redis = t.redis := by
    intro notices
    induction notices with
    | nil => exact fun _ => rfl
    | cons notice notices ih => exact fun t => ih _
  have hclear : ∀ t u : AppState, t.redis = u.redis →
      (t.redisClearMessageQueue env dstId).redis = (u.redisClearMessageQueue env dstId).redis := by
    intro t u htu
    rw [redisClearMessageQueue, redisClearMessageQueue, htu]
  rw [expireQueue]
  split_ifs
  · rfl
  · exact hclear _ _ (hsends _ _)

/-- One pass of `messages_expire::run`. -/
def messagesExpire (env : Env) (cfg : Config) (s : AppState) : AppState :=
  if env.redisOk .getClientIdsWithQueue "" then
    (env.order.toList s.redis.queues).foldl (expireQueue env cfg) s
  else s

/-- A pass changes Redis and sends notices: a property that both keep is kept by
the pass. -/
lemma messagesExpire_induction {P : AppState → Prop} (env : Env) (cfg : Config) {s : AppState}
    (hs : P s) (hredis : ∀ t redis, P t → P { t with redis := redis })
    (hsend : ∀ (t : AppState) src dst, P t → P (t.sendTo src [.expire dst src])) :
    P (messagesExpire env cfg s) := by
  have hsends : ∀ (notices : List (String × String)) (t : AppState), P t →
      P (notices.foldl (fun s (src, dst) => s.sendTo src [.expire dst src]) t) := by
    intro notices
    induction notices with
    | nil => exact fun t ht => ht
    | cons notice notices ih => exact fun t ht => ih _ (hsend t notice.1 notice.2 ht)
  have hqueue : ∀ t dstId, P t → P (expireQueue env cfg t dstId) := by
    intro t dstId ht
    rw [expireQueue]
    split_ifs
    · exact ht
    · exact hredis _ _ (hsends _ _ (hredis t _ ht))
  rw [messagesExpire]
  split_ifs
  · generalize env.order.toList s.redis.queues = queues
    induction queues generalizing s with
    | nil => exact hs
    | cons dstId queues ih => exact ih (hqueue s dstId hs)
  · exact hs

/-- The expiry of queued messages touches neither the registry nor the
memberships. -/
lemma messagesExpire_frame (env : Env) (cfg : Config) (s : AppState) :
    (messagesExpire env cfg s).registry = s.registry ∧
      (messagesExpire env cfg s).roomMaps = s.roomMaps :=
  messagesExpire_induction
    (P := fun t => t.registry = s.registry ∧ t.roomMaps = s.roomMaps) env cfg ⟨rfl, rfl⟩
    (fun _ _ ht => ht) fun _ _ _ ht => ht

/-! ### Replay buffers -/

/-- One pass of `replay_evict::run`. -/
def replayEvict (env : Env) (s : AppState) : AppState :=
  { s with replayBuffer := s.replayBuffer.evictExpired env.order env.now }

end Dendri
