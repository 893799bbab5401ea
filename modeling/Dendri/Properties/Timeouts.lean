import Dendri.Properties.Supplies

/-!
The timeouts of `Config` are `u64`, and the background passes cast them to `i64`.

* `asI64_le_iff`: a check against a cast timeout succeeds when the time is up, and
  always if the timeout is `2 ^ 63` or more, since the cast is negative then. The idle
  check is switched off by such a timeout (`idle_iff`), as its time is never up;
* `mem_toEvict_iff`, `expires_iff`, `ttlSeconds_eq`: the selection of clients, the
  expiry of queues and the time to live, for every configuration;
* `timeouts_exact_and_monotone_iff`: they are those of the integers just when the alive timeout and
  the expire timeout are below `2 ^ 63`, and to raise a timeout evicts or expires more
  only if it crosses that bound.
-/

namespace Dendri

open AppState

/-- `redis_realm::ttl_seconds`. The product wraps, as it does in a release build. -/
def ttlSeconds (aliveTimeoutMs : UInt64) : ℤ := asI64 (max (aliveTimeoutMs * 2 / 1000) 1)

/-- The queue of `id` is there before a pass of `messages_expire` and not after it. -/
def Expires (env : Env) (cfg : Config) (s : AppState) (id : String) : Prop :=
  id ∈ s.redis.queues ∧ id ∉ (messagesExpire env cfg s).redis.queues

/-- The clock is an `i64`, and what a pass reads was written between the epoch and
now. -/
structure InTime (env : Env) (s : AppState) : Prop where
  now_lt : env.now < 2 ^ 63
  ping : ∀ id client, s.clients.lookup id = some client →
    0 ≤ client.lastPing ∧ client.lastPing ≤ env.now
  message : ∀ id client, s.clients.lookup id = some client →
    0 ≤ client.lastMessage ∧ client.lastMessage ≤ env.now
  read : ∀ id ∈ s.redis.queues, 0 ≤ queueLastReadAt env s id ∧ queueLastReadAt env s id ≤ env.now

/-- The timeouts are those of the integers: a client is selected when its alive timeout
is up or its idle timeout, if it has one; a queue expires when its time is up and Redis
answers; and a client's record lives for twice the alive timeout. -/
structure TimeoutsExact (cfg : Config) : Prop where
  evicts : ∀ env s, InTime env s → ∀ id client, s.clients.lookup id = some client →
    (id ∈ toEvict env cfg s ↔ (cfg.aliveTimeout.toNat : ℤ) ≤ env.now - client.lastPing ∨
      0 < cfg.idleTimeout.toNat ∧ (cfg.idleTimeout.toNat : ℤ) ≤ env.now - client.lastMessage)
  expires : ∀ env s, InTime env s → ∀ id ∈ s.redis.queues,
    (Expires env cfg s id ↔ (cfg.expireTimeout.toNat : ℤ) ≤ env.now - queueLastReadAt env s id ∧
      env.redisOk .getClientIdsWithQueue "" = true ∧ env.redisOk .clearMessageQueue id = true)
  ttl : ttlSeconds cfg.aliveTimeout = max 1 (2 * (cfg.aliveTimeout.toNat : ℤ) / 1000)

/-- The second configuration has higher timeouts. An idle timeout of `0` is none, so it
counts as the highest. -/
structure Raises (cfg cfg' : Config) : Prop where
  alive : cfg.aliveTimeout ≤ cfg'.aliveTimeout
  idle : cfg'.idleTimeout = 0 ∨ 0 < cfg.idleTimeout ∧ cfg.idleTimeout ≤ cfg'.idleTimeout
  expire : cfg.expireTimeout ≤ cfg'.expireTimeout

/-- The second configuration evicts no client and expires no queue that the first one
does not. -/
structure NeverMore (cfg cfg' : Config) : Prop where
  evicts : ∀ env s, InTime env s → ∀ id ∈ toEvict env cfg' s, id ∈ toEvict env cfg s
  expires : ∀ env s, InTime env s → ∀ id, Expires env cfg' s id → Expires env cfg s id

/-! ### The casts -/

/-- A check against a cast timeout. -/
lemma asI64_le_iff (n : UInt64) {d : ℤ} (hd : 0 ≤ d) (hd' : d < 2 ^ 63) :
    asI64 n ≤ d ↔ (n.toNat : ℤ) ≤ d ∨ 2 ^ 63 ≤ n.toNat := by
  have hlt := n.toNat_lt
  rw [asI64_eq]
  split_ifs <;> omega

/-- The idle check needs no bound: a cast timeout that is negative is none. -/
lemma idle_iff (n : UInt64) {d : ℤ} (hd' : d < 2 ^ 63) :
    0 < asI64 n ∧ asI64 n ≤ d ↔ 0 < n.toNat ∧ (n.toNat : ℤ) ≤ d := by
  have hlt := n.toNat_lt
  rw [asI64_eq]
  split_ifs <;> omega

/-- The time to live, with the product that wraps. -/
lemma ttlSeconds_eq (n : UInt64) :
    ttlSeconds n = max 1 (((n.toNat * 2 % 2 ^ 64 / 1000 : ℕ) : ℤ)) := by
  have hquot : (n * 2 / 1000).toNat = n.toNat * 2 % 2 ^ 64 / 1000 := by
    rw [UInt64.toNat_div, UInt64.toNat_mul]
    rfl
  have hmax : (max (n * 2 / 1000) 1).toNat = max 1 (n.toNat * 2 % 2 ^ 64 / 1000) := by
    have hdef : max (n * 2 / 1000) 1 = if n * 2 / 1000 ≤ 1 then 1 else n * 2 / 1000 := rfl
    rw [← hquot, hdef]
    split_ifs with h
    · rw [UInt64.le_iff_toNat_le] at h
      exact (max_eq_left h).symm
    · rw [UInt64.le_iff_toNat_le, not_le] at h
      exact (max_eq_right h.le).symm
  have hlt : max 1 (n.toNat * 2 % 2 ^ 64 / 1000) < 2 ^ 63 := by omega
  rw [ttlSeconds, asI64_of_lt (by rw [hmax]; exact hlt), hmax]
  push_cast
  rfl

/-! ### The passes -/

/-- Who is selected: a negative cast of the alive timeout selects everyone. -/
lemma mem_toEvict_iff {env : Env} {cfg : Config} {s : AppState} {id : String} {client : ClientMeta}
    (h : InTime env s) (hclient : s.clients.lookup id = some client) :
    id ∈ toEvict env cfg s ↔
      ((cfg.aliveTimeout.toNat : ℤ) ≤ env.now - client.lastPing ∨
        0 < cfg.idleTimeout.toNat ∧
          (cfg.idleTimeout.toNat : ℤ) ≤ env.now - client.lastMessage) ∨
      2 ^ 63 ≤ cfg.aliveTimeout.toNat := by
  have hnow := h.now_lt
  have hping := h.ping id client hclient
  have hmessage := h.message id client hclient
  rw [mem_toEvict hclient, isBroken, Bool.or_eq_true, Bool.and_eq_true, decide_eq_true_eq,
    decide_eq_true_eq, decide_eq_true_eq, asI64_le_iff _ (by omega) (by omega),
    idle_iff _ (by omega)]
  tauto

/-- The time of the queue of `id` is up. -/
def Overdue (env : Env) (cfg : Config) (s : AppState) (id : String) : Prop :=
  ¬env.now - queueLastReadAt env s id < asI64 cfg.expireTimeout

lemma mem_queues_expireQueue {env : Env} {cfg : Config} {s : AppState} {id d : String} :
    id ∈ (expireQueue env cfg s d).redis.queues ↔ id ∈ s.redis.queues ∧
      ¬(id = d ∧ Overdue env cfg s d ∧ env.redisOk .clearMessageQueue d = true) := by
  have htouch : (s.redisTouchQueue env d).redis.queues = s.redis.queues := by
    rw [redisTouchQueue]
    split_ifs <;> rfl
  rw [redis_expireQueue, Overdue]
  by_cases hfresh : env.now - queueLastReadAt env s d < asI64 cfg.expireTimeout
  · rw [if_pos hfresh]
    tauto
  · rw [if_neg hfresh, redisClearMessageQueue]
    by_cases hok : env.redisOk .clearMessageQueue d = true
    · rw [if_pos hok, htouch, Finset.mem_erase]
      tauto
    · rw [if_neg hok, htouch]
      tauto

/-- The rounds of a pass, one queue after the other. -/
lemma mem_queues_foldl {env : Env} {cfg : Config} {ids : List String} (hnodup : ids.Nodup)
    {s : AppState} {id : String} :
    id ∈ (ids.foldl (expireQueue env cfg) s).redis.queues ↔ id ∈ s.redis.queues ∧
      ¬(id ∈ ids ∧ Overdue env cfg s id ∧ env.redisOk .clearMessageQueue id = true) := by
  induction ids generalizing s with
  | nil => simp
  | cons d ids ih =>
    obtain ⟨hd, hnodup⟩ := List.nodup_cons.mp hnodup
    rw [List.foldl_cons, ih hnodup, mem_queues_expireQueue, List.mem_cons]
    by_cases heq : id = d
    · subst heq
      tauto
    · have hsame : Overdue env cfg (expireQueue env cfg s d) id ↔ Overdue env cfg s id := by
        rw [Overdue, Overdue, queueLastReadAt, queueLastReadAt, (expireQueue_of_ne env cfg s heq).2]
      rw [hsame]
      tauto

/-- Which queues expire: a negative cast of the timeout expires all. -/
lemma expires_iff {env : Env} {cfg : Config} {s : AppState} {id : String} (h : InTime env s)
    (hid : id ∈ s.redis.queues) :
    Expires env cfg s id ↔
      ((cfg.expireTimeout.toNat : ℤ) ≤ env.now - queueLastReadAt env s id ∨
        2 ^ 63 ≤ cfg.expireTimeout.toNat) ∧
      env.redisOk .getClientIdsWithQueue "" = true ∧ env.redisOk .clearMessageQueue id = true := by
  have hnow := h.now_lt
  have hread := h.read id hid
  rw [← asI64_le_iff _ (by omega) (by omega), ← not_lt, Expires, and_iff_right hid, messagesExpire]
  split_ifs with hids
  · rw [mem_queues_foldl (env.order.nodup_toList _), env.order.mem_toList, Overdue]
    tauto
  · tauto

/-! ### A client that has just been seen -/

/-- `alice` has pinged, sent a message and polled just now. -/
def justSeen (now : ℕ) : AppState :=
  { AppState.new {} ⟨∅, ∅, Finmap.singleton "alice" now, {"alice"}⟩ with
    clients := Finmap.singleton "alice" ⟨"token", now, now, .Polling⟩ }

section JustSeen

variable (cfg : Config) {now : ℕ}

lemma queueLastReadAt_justSeen : queueLastReadAt (Env.quiet now) (justSeen now) "alice" = now := by
  have hmeta : (justSeen now).redis.queueMeta.lookup "alice" = some (now : ℤ) :=
    Finmap.lookup_singleton_eq
  have hok : (Env.quiet now).redisOk .getQueueLastReadAt "alice" = true := rfl
  rw [queueLastReadAt, if_pos hok, hmeta]
  rfl

lemma lookup_justSeen {id : String} {client : ClientMeta}
    (h : (justSeen now).clients.lookup id = some client) :
    id = "alice" ∧ client.lastPing = now ∧ client.lastMessage = now := by
  have hid : id = "alice" :=
    Finmap.mem_singleton id "alice" _ |>.mp (Finmap.mem_of_lookup_eq_some h)
  subst hid
  have hclient : some (⟨"token", now, now, .Polling⟩ : ClientMeta) = some client :=
    Finmap.lookup_singleton_eq.symm.trans h
  rw [← Option.some.inj hclient]
  exact ⟨rfl, rfl, rfl⟩

lemma inTime_justSeen (hnow : now < 2 ^ 63) : InTime (Env.quiet now) (justSeen now) where
  now_lt := hnow
  ping := by
    intro id client hclient
    obtain ⟨-, hping, -⟩ := lookup_justSeen hclient
    rw [hping]
    exact ⟨Int.natCast_nonneg now, le_refl _⟩
  message := by
    intro id client hclient
    obtain ⟨-, -, hmessage⟩ := lookup_justSeen hclient
    rw [hmessage]
    exact ⟨Int.natCast_nonneg now, le_refl _⟩
  read := by
    intro id hid
    rw [Finset.mem_singleton.mp hid, queueLastReadAt_justSeen]
    exact ⟨Int.natCast_nonneg now, le_refl _⟩

/-- She is evicted if the alive timeout is `0` or is cast to a negative number. -/
lemma evicts_justSeen (hnow : now < 2 ^ 63) :
    "alice" ∈ toEvict (Env.quiet now) cfg (justSeen now) ↔
      cfg.aliveTimeout.toNat = 0 ∨ 2 ^ 63 ≤ cfg.aliveTimeout.toNat := by
  rw [mem_toEvict_iff (inTime_justSeen hnow) Finmap.lookup_singleton_eq]
  simp only [Env.quiet]
  omega

/-- So is her queue. -/
lemma expires_justSeen (hnow : now < 2 ^ 63) :
    Expires (Env.quiet now) cfg (justSeen now) "alice" ↔
      cfg.expireTimeout.toNat = 0 ∨ 2 ^ 63 ≤ cfg.expireTimeout.toNat := by
  rw [expires_iff (inTime_justSeen hnow) (Finset.mem_singleton_self _), queueLastReadAt_justSeen]
  simp only [Env.quiet, and_self, and_true]
  omega

end JustSeen

/-! ### Configurations -/

/-- The timeouts are exact for the configurations whose casts keep the sign. -/
lemma timeoutsExact_iff (cfg : Config) :
    TimeoutsExact cfg ↔
      cfg.aliveTimeout.toNat < 2 ^ 63 ∧ cfg.expireTimeout.toNat < 2 ^ 63 := by
  constructor
  · -- a client that was just seen tells the casts from the timeouts
    intro h
    have hseen : InTime (Env.quiet 0) (justSeen 0) := inTime_justSeen (by decide)
    have halive := h.evicts _ _ hseen "alice" _ Finmap.lookup_singleton_eq
    have hexpire := h.expires _ _ hseen "alice" (Finset.mem_singleton_self _)
    rw [evicts_justSeen cfg (by decide)] at halive
    rw [expires_justSeen cfg (by decide), queueLastReadAt_justSeen] at hexpire
    simp only [Env.quiet, and_self, and_true] at halive hexpire
    omega
  · rintro ⟨halive, hexpire⟩
    refine ⟨fun env s h id client hclient => ?_, fun env s h id hid => ?_, ?_⟩
    · rw [mem_toEvict_iff h hclient, or_iff_left (not_le.mpr halive)]
    · rw [expires_iff h hid, or_iff_left (not_le.mpr hexpire)]
    · rw [ttlSeconds_eq]
      omega

/-- A higher timeout evicts and expires more only if its cast is negative and that of the
lower one is positive. -/
lemma neverMore_iff {cfg cfg' : Config} (h : Raises cfg cfg') :
    NeverMore cfg cfg' ↔
      (2 ^ 63 ≤ cfg'.aliveTimeout.toNat →
        cfg.aliveTimeout.toNat = 0 ∨ 2 ^ 63 ≤ cfg.aliveTimeout.toNat) ∧
      (2 ^ 63 ≤ cfg'.expireTimeout.toNat →
        cfg.expireTimeout.toNat = 0 ∨ 2 ^ 63 ≤ cfg.expireTimeout.toNat) := by
  obtain ⟨hal, hid, hex⟩ := h
  rw [UInt64.le_iff_toNat_le] at hal hex
  rw [UInt64.lt_iff_toNat_lt, UInt64.le_iff_toNat_le, ← UInt64.toNat_inj] at hid
  constructor
  · intro hmore
    have hseen : InTime (Env.quiet 0) (justSeen 0) := inTime_justSeen (by decide)
    refine ⟨fun halive => ?_, fun hexpire => ?_⟩
    · have hevicted : "alice" ∈ toEvict (Env.quiet 0) cfg' (justSeen 0) :=
        (evicts_justSeen cfg' (by decide)).mpr (Or.inr halive)
      exact (evicts_justSeen cfg (by decide)).mp (hmore.evicts _ _ hseen "alice" hevicted)
    · have hexpired : Expires (Env.quiet 0) cfg' (justSeen 0) "alice" :=
        (expires_justSeen cfg' (by decide)).mpr (Or.inr hexpire)
      exact (expires_justSeen cfg (by decide)).mp (hmore.expires _ _ hseen "alice" hexpired)
  · rintro ⟨halive, hexpire⟩
    refine ⟨fun env s htime id hmem => ?_, fun env s htime id hmem => ?_⟩
    · have hkey : id ∈ s.clients.keys := env.order.mem_toList.mp (List.mem_of_mem_filter hmem)
      obtain ⟨client, hclient⟩ := Finmap.mem_iff.mp (Finmap.mem_keys.mp hkey)
      rw [mem_toEvict_iff htime hclient] at hmem ⊢
      have hping := htime.ping id client hclient
      have hzero : (0 : UInt64).toNat = 0 := rfl
      omega
    · have hqueue := hmem.1
      have hread := htime.read id hqueue
      rw [expires_iff htime hqueue] at hmem ⊢
      refine ⟨?_, hmem.2⟩
      omega

/-- The timeouts are those of the integers just for the alive and expire timeouts below
`2 ^ 63`, whatever the idle timeout is, and a higher timeout evicts or expires more just
if it crosses that bound. -/
theorem timeouts_exact_and_monotone_iff (cfg : Config) :
    (TimeoutsExact cfg ↔
      cfg.aliveTimeout.toNat < 2 ^ 63 ∧ cfg.expireTimeout.toNat < 2 ^ 63) ∧
    ∀ cfg' : Config, Raises cfg cfg' →
      (NeverMore cfg cfg' ↔
        (2 ^ 63 ≤ cfg'.aliveTimeout.toNat →
          cfg.aliveTimeout.toNat = 0 ∨ 2 ^ 63 ≤ cfg.aliveTimeout.toNat) ∧
        (2 ^ 63 ≤ cfg'.expireTimeout.toNat →
          cfg.expireTimeout.toNat = 0 ∨ 2 ^ 63 ≤ cfg.expireTimeout.toNat)) :=
  ⟨timeoutsExact_iff cfg, fun _ h => neverMore_iff h⟩

/-- The defaults are exact, and twice the alive timeout never evicts more. -/
theorem timeouts_exact_and_monotone_default :
    TimeoutsExact {} ∧ NeverMore {} { aliveTimeout := 120000 } := by
  have hraises : Raises {} { aliveTimeout := 120000 } := ⟨by decide, by decide, by decide⟩
  obtain ⟨hexact, hmore⟩ := timeouts_exact_and_monotone_iff {}
  exact ⟨hexact.mpr (by decide), (hmore _ hraises).mpr (by decide)⟩

/-- With an alive timeout of `2 ^ 63` a client is evicted that has just pinged, and its
record lives for a second. The default keeps it. -/
theorem alive_timeout_negative :
    ¬TimeoutsExact { aliveTimeout := 9223372036854775808 } ∧
    ¬NeverMore {} { aliveTimeout := 9223372036854775808 } ∧
    InTime (Env.quiet 1700000000000) (justSeen 1700000000000) ∧
    toEvict (Env.quiet 1700000000000) { aliveTimeout := 9223372036854775808 }
      (justSeen 1700000000000) = ["alice"] ∧
    toEvict (Env.quiet 1700000000000) {} (justSeen 1700000000000) = [] ∧
    ttlSeconds 9223372036854775808 = 1 := by
  have hraises : Raises {} { aliveTimeout := 9223372036854775808 } :=
    ⟨by decide, by decide, by decide⟩
  refine ⟨fun h => absurd ((timeoutsExact_iff _).mp h) (by decide),
    fun h => absurd ((neverMore_iff hraises).mp h) (by decide), inTime_justSeen (by decide),
    by decide +kernel, by decide +kernel, by decide +kernel⟩

end Dendri
