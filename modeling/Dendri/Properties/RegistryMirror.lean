import Dendri.Properties.Accounting
import Dendri.Properties.RedisCalls
import Dendri.Properties.Upkeep

/-!
Redis as a mirror of the registry. Another instance, or this one after a restart, knows the
clients of the server from Redis only, so that the tokens there should be those of the
registered clients. Each registration and each removal is written in memory and in Redis,
and an error of Redis is ignored on most paths.

* `AppState.tokens`: the token that each client is registered with;
* `registration`, `removals`: the client that a step registers, and those it removes;
* `tokens_of_step`, `redisTokens_of_step`: what a step does to the tokens in memory and in
  Redis;
* `WritesThrough`: the registration of a step and its removals reach Redis;
* `redis_mirrors_registry_iff`: in a run the tokens in Redis are those of the clients just
  when all steps write through. Then the connections are counted exactly.
-/

namespace Dendri

open AppState Function Transition

/-- The token that each client is registered with. -/
def AppState.tokens (s : AppState) (id : String) : Option String :=
  (s.clients.lookup id).map ClientMeta.token

/-- The token that Redis has for each client. -/
def AppState.redisTokens (s : AppState) (id : String) : Option String :=
  s.redis.clientToken.lookup id

/-- Redis has the tokens of the registered clients, and no others. -/
def RedisMirrors (s : AppState) : Prop := ∀ id, s.redisTokens id = s.tokens id

/-- The client that a step registers, with its token. -/
def registration (cfg : Config) (w : World) (l : Label) : Option (String × String) :=
  match l.event with
  | .connect r =>
      match connect l.env cfg w.app r with
      | .admitted K _ => some (K.id, K.token)
      | .rejected _ _ => none
  | _ => none

/-- The ids whose record a step removes. -/
def removals (cfg : Config) (w : World) (l : Label) : List String :=
  match l.event with
  | .evictBroken => toEvict l.env cfg w.app
  | ev =>
      match incoming cfg w ev, cleanedUp w ev with
      | some (id, msg), _ => (removal l.env w.app id msg).toList
      | none, some (_, K) => [K.id]
      | none, none => []

/-! ### The tokens in memory -/

lemma tokens_insertClient (s : AppState) (now : ℕ) (id token : String) (transport : TransportKind) :
    (s.insertClient now id token transport).tokens = update s.tokens id (some token) :=
  FinMap.map_lookup_insert_eq_update s.clients id _ ClientMeta.token

lemma tokens_dropClient (s : AppState) (id : String) :
    (s.dropClient id).tokens = update s.tokens id none :=
  FinMap.map_lookup_erase_eq_update s.clients id ClientMeta.token

/-- An update of a record that keeps its token. -/
lemma tokens_modify {s t : AppState} {id : String} {f : ClientMeta → ClientMeta}
    (ht : t.clients = FinMap.modify s.clients id f) (hf : ∀ m, (f m).token = m.token) :
    t.tokens = s.tokens := by
  funext x
  rw [tokens, tokens, ht, FinMap.lookup_modify]
  split_ifs with hx
  · rw [hx]
    cases s.clients.lookup id with
    | none => rfl
    | some m => exact congrArg some (hf m)
  · rfl

lemma tokens_touch (s : AppState) (now : ℕ) (id : String) : (s.touch now id).tokens = s.tokens :=
  tokens_modify rfl fun _ => rfl

lemma tokens_recorded (env : Env) (s : AppState) (id : String) (type_ : MessageType) :
    (recorded env s id type_).tokens = s.tokens := by
  rw [recorded]
  split_ifs
  · exact tokens_modify rfl fun _ => rfl
  · rfl

/-- The client that a relayed message removes goes, and nothing else does. -/
lemma tokens_handleTransmission (env : Env) (s : AppState) (msg : Message) :
    (handleTransmission env s msg).tokens =
      (removedBy s msg).elim s.tokens fun id => update s.tokens id none := by
  rw [handleTransmission, removedBy]
  by_cases hdst : msg.dst.getD "" ≠ ""
  · simp only [if_pos hdst]
    cases s.wsSenders.lookup (msg.dst.getD "") with
    | none => dsimp only; split_ifs <;> rfl
    | some c =>
        dsimp only
        split_ifs
        · exact tokens_dropClient s _
        · rfl
  · simp only [if_neg hdst]
    split_ifs
    · exact tokens_dropClient s _
    · rfl

/-- The same clients have the same tokens. -/
lemma tokens_congr {s t : AppState} (h : t.clients = s.clients) : t.tokens = s.tokens := by
  funext x
  rw [tokens, tokens, h]

/-- The handlers that register and remove nobody keep the tokens. -/
lemma tokens_upkeep : Upkeep fun s t => t.tokens = s.tokens where
  trans hst htu := htu.trans hst
  of_core hcore := tokens_congr (congrArg (fun core => core.2.1) hcore)
  send _ _ _ := rfl
  fanOut _ _ _ := rfl

lemma tokens_handleMessage (env : Env) (cfg : Config) (s : AppState) (id : String) (msg : Message) :
    (handleMessage env cfg s id msg).tokens =
      (removes s id msg).elim s.tokens fun x => update s.tokens x none := by
  have hrec := tokens_recorded env s id msg.type_
  have hkeep : ∀ t : AppState, msg.type_.isTransmission = false → t.tokens = s.tokens →
      t.tokens = (removes s id msg).elim s.tokens fun x => update s.tokens x none := by
    intro t htype ht
    rw [removes, htype, if_neg (by simp)]
    exact ht
  refine handleMessage_induction (P := fun t => t.tokens =
    (removes s id msg).elim s.tokens fun x => update s.tokens x none) ?_ ?_ ?_ ?_ ?_ ?_ ?_
  · exact fun h => hkeep _ (by rw [h]; rfl) (tokens_touch s env.now id)
  · intro h
    have hremoved : removedBy (recorded env s id msg.type_) { msg with src := some id } =
        removes s id msg := by
      rw [removes, if_pos h, recorded]
      split_ifs <;> rfl
    rw [tokens_handleTransmission, hremoved, hrec]
  · exact fun h => hkeep _ (by rw [h]; rfl) ((tokens_upkeep.handleData env cfg _ id _).trans hrec)
  · exact fun h => hkeep _ (by rw [h]; rfl) ((tokens_upkeep.handleRoomJoin env cfg _ id _).trans hrec)
  · exact fun h => hkeep _ (by rw [h]; rfl) ((tokens_upkeep.handleRoomLeave _ id _).trans hrec)
  · exact fun h => hkeep _ (by rw [h]; rfl)
      ((tokens_upkeep.handlePresenceUpdate _ id _).trans hrec)
  · exact fun _ h => hkeep _ h hrec

lemma tokens_receive (env : Env) (cfg : Config) (s : AppState) (id : String) (msg : Message) :
    (receive env cfg s id msg).1.tokens =
      (removal env s id msg).elim s.tokens fun x => update s.tokens x none := by
  obtain ⟨hok, -⟩ := meter_eq env s id msg.type_
  have hmeter : (meter env s id msg.type_).1.tokens = s.tokens ∧
      removes (meter env s id msg.type_).1 id msg = removes s id msg := by
    rw [meter]
    cases msg.type_.bucket with
    | none => exact ⟨rfl, rfl⟩
    | some bucket => exact ⟨rfl, rfl⟩
  rw [receive, removal]
  dsimp only
  rw [hok]
  cases allowed env id msg.type_ with
  | false => exact hmeter.1
  | true =>
      have h := tokens_handleMessage env cfg (meter env s id msg.type_).1 id msg
      rw [hmeter.1, hmeter.2] at h
      exact h

lemma tokens_teardown (env : Env) (cfg : Config) (s : AppState) (id : String) :
    (teardown env cfg s id).tokens = update s.tokens id none := by
  have hrooms := tokens_upkeep.removeClientFromAllRooms env cfg
    (((s.dropClient id).eraseAuth id).removeBuckets id) id
  exact hrooms.trans (tokens_dropClient s id)

lemma tokens_evictBroken (env : Env) (cfg : Config) (s : AppState) (x : String) :
    (evictBroken env cfg s).tokens x = if x ∈ toEvict env cfg s then none else s.tokens x := by
  rw [evictBroken]
  generalize toEvict env cfg s = ids
  induction ids generalizing s with
  | nil => rfl
  | cons id ids ih =>
      have hid : (evictClient env s id).tokens = update s.tokens id none := tokens_dropClient s id
      rw [List.foldl_cons, ih, hid, update_apply]
      by_cases hx : x = id
      · simp [hx]
      · simp [hx]

/-! ### Connecting -/

lemma tokens_runClient {env : Env} {s s' : AppState} {id token : String} {auth : Auth}
    {lastSeq : Option ℕ} {restored : List String} {K : Conn}
    (h : runClient env s id token auth lastSeq restored = .admitted K s') :
    s'.tokens = s.tokens ∧ K.id = id ∧ K.token = token := by
  obtain ⟨hK, hs⟩ := Outcome.admitted.inj h
  rw [← hs, ← hK]
  exact ⟨tokens_upkeep.deliverQueuedMessages env _ id _, rfl, rfl⟩

lemma tokens_pollingPair (s : AppState) (id : String) :
    (pollingPair s id).1.tokens = s.tokens := by
  rw [pollingPair]
  split <;> rfl

/-- A known polling client presented its token. -/
lemma token_of_claimId {cfg : Config} {s t : AppState} {id token : String} {client : ClientMeta}
    (h : claimId cfg s id token = (t, none)) (hclient : s.clients.lookup id = some client) :
    client.token = token := by
  rw [claimId, hclient] at h
  dsimp only at h
  by_contra hne
  rw [if_pos hne] at h
  exact absurd h (by simp)

/-- An admitted request registers its id with its token. -/
lemma tokens_connect {env : Env} {cfg : Config} {s s' : AppState} {r : Request} {K : Conn}
    (h : connect env cfg s r = .admitted K s') :
    s'.tokens = update s.tokens K.id (some K.token) := by
  cases r with
  | ws q =>
      rcases handleSocket_cases env cfg s q with ⟨_, hout, -⟩ | ⟨id, token, auth, -, -, h'⟩
      · exact absurd (h.symm.trans hout) (by simp)
      · obtain ⟨-, -, -, -, hout⟩ := h'
        rcases runClient_of_admitSocket (hout.symm.trans h) with
          ⟨-, t, restored, ht, hrun⟩ | ⟨-, -, t, ht, hrun⟩
        · obtain ⟨htokens, rfl, rfl⟩ := tokens_runClient hrun
          rw [htokens, tokens_upkeep.restoreSession, ht]
          exact tokens_insertClient s env.now K.id K.token .WebSocket
        · obtain ⟨htokens, rfl, rfl⟩ := tokens_runClient hrun
          rw [htokens, ht]
          exact tokens_insertClient s env.now K.id K.token .WebSocket
  | sse q =>
      rcases sseHandler_cases env cfg s q with ⟨_, hout⟩ | ⟨auth, t, -, hclaim, hout⟩
      · exact absurd (h.symm.trans hout) (by simp)
      · obtain ⟨n, hn⟩ := claimId_counter cfg (s.storeClaims q.id auth.claims) q.id q.token
        rw [hclaim] at hn
        obtain ⟨rfl, hs⟩ := Outcome.admitted.inj (hout.symm.trans h)
        rw [← hs]
        refine (tokens_upkeep.deliverQueuedMessages env _ q.id _).trans ?_
        rw [show t = _ from hn]
        exact tokens_insertClient s env.now q.id q.token .Sse
  | poll q =>
      rcases pollHandler_cases env cfg s q with ⟨_, hout⟩ | ⟨auth, t, u, -, hclaim, hu, hout⟩
      · exact absurd (h.symm.trans hout) (by simp)
      · obtain ⟨n, hn⟩ := claimId_counter cfg (s.storeClaims q.id auth.claims) q.id q.token
        have ht : (pollingPair t q.id).1.tokens = s.tokens := by
          rw [hclaim] at hn
          rw [tokens_pollingPair, show t = _ from hn]
          rfl
        obtain ⟨rfl, hs⟩ := Outcome.admitted.inj (hout.symm.trans h)
        rw [← hs]
        refine (tokens_congr (t := u) rfl).trans ?_
        rw [hu, registerPoll]
        cases hc : s.clients.lookup q.id with
        | none =>
            rw [Option.isNone_none, if_pos rfl, tokens_upkeep.deliverQueuedMessages]
            refine (tokens_insertClient _ env.now q.id q.token .Polling).trans ?_
            exact congrArg (fun f => update f q.id (some q.token)) ht
        | some client =>
            have htoken := token_of_claimId hclaim hc
            have hsame : s.tokens q.id = some q.token := by
              rw [tokens, hc, Option.map_some, htoken]
            rw [Option.isNone_some, if_neg (by simp), tokens_touch, ht, ← hsame,
              update_eq_self]

/-! ### Steps -/

lemma tokens_wsText (env : Env) (cfg : Config) (s : AppState) (c : ℕ) (id : String) (len : ℕ)
    (parsed : Option Message) : (wsText env cfg s c id len parsed).tokens =
      ((if cfg.maxMessageSize < len then none else parsed).bind (removal env s id)).elim s.tokens
        fun x => update s.tokens x none := by
  rw [wsText.eq_def]
  by_cases hlen : cfg.maxMessageSize < len
  · rw [if_pos hlen, if_pos hlen]
    rfl
  · rw [if_neg hlen, if_neg hlen]
    cases parsed with
    | none => rfl
    | some msg =>
        have h := tokens_receive env cfg s id msg
        dsimp only
        split_ifs
        · exact h
        · exact h

lemma tokens_sendHandler (env : Env) (cfg : Config) (s : AppState) (id token : String)
    (parsed : Option Message) : (sendHandler env cfg s id token parsed).1.tokens =
      ((((s.clients.lookup id).filter fun client => decide (client.token = token)).bind fun _ =>
        parsed).bind (removal env s id)).elim s.tokens fun x => update s.tokens x none := by
  rw [sendHandler]
  cases s.clients.lookup id with
  | none => rfl
  | some client =>
      dsimp only
      rw [Option.filter_some]
      by_cases htoken : client.token = token
      · rw [if_pos htoken, if_pos (by simpa using htoken)]
        cases parsed with
        | none => exact tokens_touch s env.now id
        | some msg =>
            have h := tokens_receive env cfg (s.touch env.now id) id msg
            rw [tokens_touch] at h
            exact h
      · rw [if_neg htoken, if_neg (by simpa using htoken)]
        rfl

/-- The removals of a step that hands in a message. -/
lemma removals_of_incoming {cfg : Config} {w : World} {env : Env} {ev : Event} {id : String}
    {msg : Message} (h : incoming cfg w ev = some (id, msg)) :
    removals cfg w ⟨env, ev⟩ = (removal env w.app id msg).toList := by
  cases ev with
  | wsText k len parsed => simp only [removals, h]
  | httpSend id token parsed => simp only [removals, h]
  | _ => exact absurd h (by simp [incoming])

lemma removals_of_cleanedUp {cfg : Config} {w : World} {env : Env} {ev : Event} {k : ℕ} {K : Conn}
    (h : cleanedUp w ev = some (k, K)) : removals cfg w ⟨env, ev⟩ = [K.id] := by
  cases ev with
  | wsClose k => simp only [removals, incoming, h]
  | watchdogTick k => simp only [removals, incoming, h]
  | streamEnd k => simp only [removals, incoming, h]
  | _ => exact absurd h (by simp [cleanedUp])

lemma removals_of_none {cfg : Config} {w : World} {env : Env} {ev : Event}
    (hin : incoming cfg w ev = none) (hdown : cleanedUp w ev = none) (hevict : ev ≠ .evictBroken) :
    removals cfg w ⟨env, ev⟩ = [] := by
  cases ev with
  | evictBroken => exact absurd rfl hevict
  | _ => simp only [removals, hin, hdown]

/-- The removal of an optional id. -/
lemma elim_update_eq (tokens : String → Option String) (removed : Option String) (x : String) :
    (removed.elim tokens fun id => update tokens id none) x =
      if x ∈ removed.toList then none else tokens x := by
  cases removed with
  | none => rfl
  | some id =>
      rw [Option.elim_some, update_apply, Option.toList_some]
      simp only [List.mem_singleton]

/-- What a step that is no connect does to the tokens in memory. -/
lemma tokens_of_step {cfg : Config} {w w' : World} {l : Label} (h : step cfg w l = some w')
    (hconnect : ∀ r, l.event ≠ .connect r) (x : String) :
    w'.app.tokens x = if x ∈ removals cfg w l then none else w.app.tokens x := by
  obtain ⟨env, ev⟩ := l
  have hreacts := reacts_of_step h
  dsimp only at hreacts hconnect ⊢
  obtain ⟨s', hs⟩ : ∃ s', w'.app = s' := ⟨_, rfl⟩
  rw [hs] at hreacts ⊢
  -- the steps that remove nothing
  have hkeep : ∀ t : AppState, incoming cfg w ev = none → cleanedUp w ev = none →
      ev ≠ .evictBroken → t.tokens = w.app.tokens →
      t.tokens x = if x ∈ removals cfg w ⟨env, ev⟩ then none else w.app.tokens x := by
    intro t hin hdown hevict ht
    rw [removals_of_none hin hdown hevict, if_neg (by simp), ht]
  have hdown : ∀ k K, cleanedUp w ev = some (k, K) → ∀ t : AppState,
      t.tokens = update w.app.tokens K.id none →
      t.tokens x = if x ∈ removals cfg w ⟨env, ev⟩ then none else w.app.tokens x := by
    intro k K hdown t ht
    rw [removals_of_cleanedUp hdown, ht, update_apply]
    simp only [List.mem_singleton]
  have hwatchdog : ∀ k, ev = .watchdogTick k → ∀ t, w'.app = t →
      step cfg w ⟨env, ev⟩ = some w' →
      t.tokens x = if x ∈ removals cfg w ⟨env, ev⟩ then none else w.app.tokens x := by
    rintro k rfl t rfl hstep
    cases hK : w.droppedStream k with
    | some K =>
        refine hdown k K (by simp [cleanedUp, hK]) _ ?_
        rw [app_of_watchdogTick hstep, hK]
        exact tokens_teardown env cfg _ K.id
    | none =>
        refine hkeep _ rfl (by simp [cleanedUp, hK]) (by simp) ?_
        rw [app_of_watchdogTick hstep, hK]
        rfl
  have hmessage : ∀ (o : Option Message) (id : String), incoming cfg w ev = o.map (fun msg => (id, msg)) →
      cleanedUp w ev = none → ev ≠ .evictBroken → ∀ t : AppState,
      t.tokens = (o.bind (removal env w.app id)).elim w.app.tokens
        (fun y => update w.app.tokens y none) →
      t.tokens x = if x ∈ removals cfg w ⟨env, ev⟩ then none else w.app.tokens x := by
    intro o id hin hnone hevict t ht
    cases o with
    | none => exact hkeep t hin hnone hevict ht
    | some msg =>
        rw [removals_of_incoming hin, ht]
        exact elim_update_eq w.app.tokens (removal env w.app id msg) x
  cases hreacts with
  | refused r => exact absurd rfl (hconnect r)
  | admitted r K s' hout => exact absurd rfl (hconnect r)
  | wsText k len parsed K hK =>
      refine hmessage _ K.id ?_ rfl (by simp) _ (tokens_wsText env cfg w.app K.chan K.id len parsed)
      rw [incoming, hK, Option.bind_some, apply_ite (Option.map _), Option.map_none]
  | httpSend id token parsed =>
      refine hmessage _ id ?_ rfl (by simp) _ (tokens_sendHandler env cfg w.app id token parsed)
      rw [incoming, Option.map_bind]
      rfl
  | wsClose k K hK =>
      rw [closeSocket]
      by_cases hcur : w.app.wsSenders.lookup K.id = some K.chan
      · rw [if_pos hcur]
        exact hdown k K (by simp [cleanedUp, hK, hcur, Option.filter]) _
          (tokens_teardown env cfg w.app K.id)
      · rw [if_neg hcur]
        exact hkeep _ rfl (by simp [cleanedUp, hK, hcur, Option.filter]) (by simp) rfl
  | receiverDrop k K hK hpoll => exact hkeep _ rfl rfl (by simp) rfl
  | watchdogTick k K hK => exact hwatchdog k rfl _ hs h
  | streamEnd k K hK =>
      exact hdown k K (by simp [cleanedUp, hK]) _ (tokens_teardown env cfg _ K.id)
  | nothing ev k hev =>
      rcases hev with rfl | rfl
      · exact hwatchdog k rfl _ hs h
      · exact hkeep _ rfl rfl (by simp) rfl
  | deliver c n => exact hkeep _ rfl rfl (by simp) rfl
  | evictBroken => exact tokens_evictBroken env cfg w.app x
  | reconcile => exact hkeep _ rfl rfl (by simp) rfl
  | expireSessions => exact hkeep _ rfl rfl (by simp) (tokens_upkeep.cleanupExpiredSessions env cfg w.app)
  | expireMessages => exact hkeep _ rfl rfl (by simp) (tokens_upkeep.messagesExpire env cfg w.app)
  | evictReplay => exact hkeep _ rfl rfl (by simp) rfl
  | redisChange redis => exact hkeep _ rfl rfl (by simp) rfl

/-! ### The tokens in Redis -/

/-- Calls without a registration remove the tokens that they name, and keep the others. -/
lemma lookup_after_of_no_register {now : ℕ} {ops : List RedisOp} (r : Redis) (x : String)
    (hreg : ∀ id token, RedisOp.register id token ∉ ops) :
    (RedisOp.remove x ∈ ops → (r.after now ops).clientToken.lookup x = none) ∧
      (RedisOp.remove x ∉ ops →
        (r.after now ops).clientToken.lookup x = r.clientToken.lookup x) := by
  induction ops using List.reverseRecOn with
  | nil => exact ⟨fun h => absurd h (by simp), fun _ => rfl⟩
  | append_singleton ops op ih =>
      obtain ⟨hgone, hkept⟩ := ih fun id token h => hreg id token (List.mem_append_left _ h)
      rw [Redis.after_append]
      cases op with
      | register id token => exact absurd (by simp) (hreg id token)
      | remove id =>
          have hlookup : ((r.after now ops).after now [.remove id]).clientToken.lookup x =
              if x = id then none else (r.after now ops).clientToken.lookup x :=
            FinMap.lookup_erase_ite _ id x
          rw [hlookup]
          by_cases hx : x = id
          · simp [hx]
          · simpa [hx] using ⟨hgone, hkept⟩
      | enqueue id entry | touch id | clear id => simpa using ⟨hgone, hkept⟩

/-- Reading a queue and clearing it touches no token. -/
lemma clientToken_after_deliveryOps (r : Redis) (env : Env) (s : AppState) (id : String) :
    (r.after env.now (deliveryOps env s id)).clientToken = r.clientToken := by
  have htried : ∀ (r : Redis) (op : RedisOp), op = .touch id ∨ op = .clear id →
      (r.after env.now (op.tried env)).clientToken = r.clientToken := by
    rintro r op (rfl | rfl)
    · rw [Redis.after_tried]
      split_ifs <;> rfl
    · rw [Redis.after_tried]
      split_ifs <;> rfl
  rw [deliveryOps, Redis.after_append]
  split_ifs
  · exact htried r _ (Or.inl rfl)
  · rw [htried _ _ (Or.inr rfl), htried r _ (Or.inl rfl)]

/-- Where Redis mirrors the registry, an admitted request writes its token there if the call
succeeds. A reconnect over a WebSocket, and a poll of a known client, find it there. -/
lemma redisTokens_connect {env : Env} {cfg : Config} {s s' : AppState} {r : Request} {K : Conn}
    (hs : RedisMirrors s) (h : connect env cfg s r = .admitted K s') :
    s'.redisTokens = if env.redisOk .registerClient K.id then
      update s.redisTokens K.id (some K.token) else s.redisTokens := by
  have hredis := redis_connect h
  -- the registration, and then the delivery
  have hregister : s'.redis = s.redis.after env.now
      ((RedisOp.register K.id K.token).tried env ++ deliveryOps env s K.id) →
      s'.redisTokens = if env.redisOk .registerClient K.id then
        update s.redisTokens K.id (some K.token) else s.redisTokens := by
    intro hr
    funext x
    rw [redisTokens, hr, Redis.after_append, clientToken_after_deliveryOps, Redis.after_tried]
    show Finmap.lookup x (Redis.clientToken (if env.redisOk .registerClient K.id = true then _ else _)) = _
    split_ifs
    · exact congrFun (FinMap.lookup_insert_eq_update s.redis.clientToken K.id K.token) x
    · rfl
  -- a client whose token is there already
  have hknown : s'.redisTokens = s.redisTokens → s.redisTokens K.id = some K.token →
      s'.redisTokens = if env.redisOk .registerClient K.id then
        update s.redisTokens K.id (some K.token) else s.redisTokens := by
    intro hsame hthere
    rw [← hthere, update_eq_self, ite_self, hsame]
  cases connect_admitted h with
  | reconnect q K s' hK htransport hchan htoken hreg hrest =>
      obtain ⟨hid, htok⟩ : q.id = some K.id ∧ q.token = some K.token := ⟨hK.id, hK.token⟩
      rw [connectOps, hid, htok] at hredis
      dsimp only at hredis
      rw [htoken, Option.isSome_some, if_pos rfl, List.nil_append] at hredis
      refine hknown ?_ ?_
      · funext x
        rw [redisTokens, hredis, clientToken_after_deliveryOps, redisTokens]
      · rw [existingToken] at htoken
        cases hc : s.clients.lookup K.id with
        | some client =>
            rw [hc] at htoken
            rw [hs K.id, tokens, hc]
            exact htoken
        | none =>
            rw [hc, redisClientToken] at htoken
            dsimp only at htoken
            split_ifs at htoken
            exact htoken
  | register q K s' hK htransport hchan htoken hslot hreg hmaps =>
      obtain ⟨hid, htok⟩ : q.id = some K.id ∧ q.token = some K.token := ⟨hK.id, hK.token⟩
      rw [connectOps, hid, htok] at hredis
      dsimp only at hredis
      rw [htoken, Option.isSome_none, if_neg (by simp)] at hredis
      exact hregister hredis
  | stream q K s' hK htransport hchan hslot hreg hmaps =>
      obtain ⟨hid, htok⟩ : q.id = K.id ∧ q.token = K.token :=
        ⟨Option.some.inj hK.id, Option.some.inj hK.token⟩
      rw [connectOps, hid, htok] at hredis
      exact hregister hredis
  | poll q K s' hK htransport hchan hslot hreg hmaps =>
      obtain ⟨hid, htok⟩ : q.id = K.id ∧ q.token = K.token :=
        ⟨Option.some.inj hK.id, Option.some.inj hK.token⟩
      rw [connectOps, hid, htok] at hredis
      cases hc : s.clients.lookup K.id with
      | none =>
          rw [hc, Option.isNone_none, if_pos rfl] at hredis
          exact hregister hredis
      | some client =>
          rw [hc, Option.isNone_some, if_neg (by simp)] at hredis
          refine hknown ?_ ?_
          · funext x
            rw [redisTokens, hredis]
            rfl
          · -- the request presented the token of the client
            rcases pollHandler_cases env cfg s q with ⟨_, hout⟩ | ⟨auth, t, u, -, hclaim, -, -⟩
            · exact absurd (h.symm.trans hout) (by simp)
            · have htoken := token_of_claimId hclaim (hid.symm ▸ hc)
              rw [hs K.id, tokens, hc, Option.map_some, htoken, htok]

/-- The removals among the calls for a message. -/
lemma mem_messageOps (env : Env) (s : AppState) (id : String) (msg : Message) :
    (∀ x token, RedisOp.register x token ∉ messageOps env s id msg) ∧
      ∀ x, RedisOp.remove x ∈ messageOps env s id msg ↔
        x ∈ (removal env s id msg).toList ∧ env.redisOk .removeClient x = true := by
  rw [messageOps, removal, removes]
  by_cases hallowed : allowed env id msg.type_ = true
  · by_cases htype : msg.type_.isTransmission = true
    · rw [if_pos ⟨hallowed, htype⟩, if_pos hallowed, if_pos htype, transmissionOps]
      constructor
      · intro x token hmem
        rcases List.mem_append.mp hmem with hmem | hmem
        · cases hr : removedBy s { msg with src := some id } with
          | none => rw [hr] at hmem; exact absurd hmem (by simp)
          | some y =>
              rw [hr] at hmem
              exact absurd (RedisOp.mem_tried_iff.mp hmem).2 (by simp)
        · cases hq : queuedFor s { msg with src := some id } with
          | none => rw [hq] at hmem; exact absurd hmem (by simp)
          | some y =>
              rw [hq] at hmem
              exact absurd (RedisOp.mem_tried_iff.mp hmem).2 (by simp)
      · intro x
        have hnot : RedisOp.remove x ∉ (queuedFor s { msg with src := some id }).elim []
            fun y => (RedisOp.enqueue y (.message { msg with src := some id })).tried env := by
          cases queuedFor s { msg with src := some id } with
          | none => simp
          | some y => exact fun hmem => absurd (RedisOp.mem_tried_iff.mp hmem).2 (by simp)
        rw [List.mem_append, or_iff_left hnot]
        cases removedBy s { msg with src := some id } with
        | none => simp
        | some y =>
            rw [Option.elim_some, RedisOp.mem_tried_iff, Option.toList_some, List.mem_singleton,
              RedisOp.remove.injEq, and_comm]
            exact and_congr_right fun hx => by rw [hx]; rfl
    · rw [if_neg fun hboth => htype hboth.2, if_pos hallowed, if_neg htype]
      exact ⟨by simp, by simp⟩
  · rw [if_neg fun hboth => hallowed hboth.1, if_neg hallowed]
    exact ⟨by simp, by simp⟩

/-- The registrations and removals among the calls of a step that is no connect. -/
lemma mem_redisOps {cfg : Config} {w : World} {env : Env} {ev : Event}
    (hconnect : ∀ r, ev ≠ .connect r) :
    (∀ x token, RedisOp.register x token ∉ redisOps cfg w ⟨env, ev⟩) ∧
      ∀ x, RedisOp.remove x ∈ redisOps cfg w ⟨env, ev⟩ ↔
        x ∈ removals cfg w ⟨env, ev⟩ ∧ env.redisOk .removeClient x = true := by
  -- the events that are neither passes nor connects
  have hother : ev ≠ .evictBroken → ev ≠ .expireMessages →
      (∀ x token, RedisOp.register x token ∉ redisOps cfg w ⟨env, ev⟩) ∧
        ∀ x, RedisOp.remove x ∈ redisOps cfg w ⟨env, ev⟩ ↔
          x ∈ removals cfg w ⟨env, ev⟩ ∧ env.redisOk .removeClient x = true := by
    intro hevict hexpire
    cases hin : incoming cfg w ev with
    | some p =>
        rw [redisOps_of_incoming hin, removals_of_incoming hin]
        exact mem_messageOps env w.app p.1 p.2
    | none =>
        cases hdown : cleanedUp w ev with
        | some p =>
            rw [redisOps_of_cleanedUp hdown, removals_of_cleanedUp hdown]
            refine ⟨fun x token hmem => absurd (RedisOp.mem_tried_iff.mp hmem).2 (by simp),
              fun x => ?_⟩
            rw [RedisOp.mem_tried_iff, List.mem_singleton, RedisOp.remove.injEq, and_comm]
            exact and_congr_right fun hx => by rw [hx]; rfl
        | none =>
            rw [redisOps_of_none hin hdown hconnect hevict hexpire,
              removals_of_none hin hdown hevict]
            exact ⟨by simp, by simp⟩
  cases ev with
  | evictBroken =>
      rw [redisOps, removals]
      dsimp only
      constructor
      · intro x token hmem
        obtain ⟨id, -, hmem⟩ := List.mem_flatMap.mp hmem
        rcases List.mem_append.mp hmem with hmem | hmem
        · exact absurd (RedisOp.mem_tried_iff.mp hmem).2 (by simp)
        · exact absurd (RedisOp.mem_tried_iff.mp hmem).2 (by simp)
      · intro x
        rw [List.mem_flatMap]
        constructor
        · rintro ⟨id, hid, hmem⟩
          rcases List.mem_append.mp hmem with hmem | hmem
          · exact absurd (RedisOp.mem_tried_iff.mp hmem).2 (by simp)
          · obtain ⟨hok, hx⟩ := RedisOp.mem_tried_iff.mp hmem
            obtain rfl := RedisOp.remove.inj hx
            exact ⟨hid, hok⟩
        · rintro ⟨hid, hok⟩
          exact ⟨x, hid, List.mem_append_right _ (RedisOp.mem_tried_iff.mpr ⟨hok, rfl⟩)⟩
  | expireMessages =>
      -- only queues are touched and cleared
      have hqueues : ∀ op ∈ redisOps cfg w ⟨env, .expireMessages⟩,
          (∃ id, op = .touch id) ∨ ∃ id, op = .clear id := by
        intro op hmem
        rw [redisOps] at hmem
        dsimp only at hmem
        split_ifs at hmem
        · obtain ⟨id, -, hmem⟩ := List.mem_flatMap.mp hmem
          rw [expiryOps] at hmem
          split_ifs at hmem
          · exact absurd hmem (by simp)
          · rcases List.mem_append.mp hmem with hmem | hmem
            · exact Or.inl ⟨id, (RedisOp.mem_tried_iff.mp hmem).2⟩
            · exact Or.inr ⟨id, (RedisOp.mem_tried_iff.mp hmem).2⟩
        · exact absurd hmem (by simp)
      have hnone : removals cfg w ⟨env, .expireMessages⟩ = [] := removals_of_none rfl rfl (by simp)
      rw [hnone]
      refine ⟨fun x token hmem => ?_, fun x => ⟨fun hmem => ?_, fun hx => absurd hx.1 (by simp)⟩⟩
      · rcases hqueues _ hmem with ⟨id, h⟩ | ⟨id, h⟩
        · exact absurd h (by simp)
        · exact absurd h (by simp)
      · rcases hqueues _ hmem with ⟨id, h⟩ | ⟨id, h⟩
        · exact absurd h (by simp)
        · exact absurd h (by simp)
  | _ => exact hother (by simp) (by simp)

/-- What a step that is no connect does to the tokens in Redis. -/
lemma redisTokens_of_step {cfg : Config} {w w' : World} {env : Env} {ev : Event}
    (h : step cfg w ⟨env, ev⟩ = some w') (hconnect : ∀ r, ev ≠ .connect r)
    (hredis : ∀ redis, ev ≠ .redisChange redis) (x : String) :
    w'.app.redisTokens x =
      if x ∈ removals cfg w ⟨env, ev⟩ ∧ env.redisOk .removeClient x = true then none
      else w.app.redisTokens x := by
  obtain ⟨hreg, hrem⟩ := @mem_redisOps cfg w env ev hconnect
  obtain ⟨hgone, hkept⟩ := @lookup_after_of_no_register env.now _ w.app.redis x hreg
  rw [redisTokens, redis_of_step h hredis]
  split_ifs with hx
  · exact hgone ((hrem x).mpr hx)
  · exact hkept fun hmem => hx ((hrem x).mp hmem)

/-! ### The condition -/

/-- The registration of a step reaches Redis, or the client is known there already, each
removal of a registered client reaches Redis, and what Redis does on its own keeps the tokens
of the registered clients. -/
structure WritesThrough (cfg : Config) (w : World) (l : Label) : Prop where
  registers : ∀ id token, registration cfg w l = some (id, token) →
    l.env.redisOk .registerClient id = true ∨ w.app.tokens id = some token
  removes : ∀ id ∈ removals cfg w l,
    l.env.redisOk .removeClient id = true ∨ w.app.tokens id = none
  redis : ∀ redis, l.event = .redisChange redis →
    ∀ id, redis.clientToken.lookup id = w.app.tokens id

/-- A connect removes nobody. -/
lemma mirrors_iff_of_connect {cfg : Config} {w w' : World} {env : Env} {r : Request}
    (hw : RedisMirrors w.app) (h : step cfg w ⟨env, .connect r⟩ = some w') :
    RedisMirrors w'.app ↔ WritesThrough cfg w ⟨env, .connect r⟩ := by
  have hremoves : removals cfg w ⟨env, .connect r⟩ = [] := removals_of_none rfl rfl (by simp)
  rw [step] at h
  dsimp only at h
  cases hout : connect env cfg w.app r with
  | rejected why s =>
      have hreg : registration cfg w ⟨env, .connect r⟩ = none := by
        simp only [registration, hout]
      rw [hout, Option.some.injEq, connect_rejected hout] at h
      have hkeeps : RedisMirrors w'.app := by
        rw [← h]
        cases storedClaims env cfg r with
        | none => exact hw
        | some claims => exact hw
      refine ⟨fun _ => ⟨fun id token hsome => ?_, fun id hid => ?_, by simp⟩, fun _ => hkeeps⟩
      · exact absurd (hreg.symm.trans hsome) (by simp)
      · rw [hremoves] at hid
        exact absurd hid (by simp)
  | admitted K s =>
      have hreg : registration cfg w ⟨env, .connect r⟩ = some (K.id, K.token) := by
        simp only [registration, hout]
      rw [hout, Option.some.injEq] at h
      have htokens := tokens_connect hout
      have hredis := redisTokens_connect hw hout
      have hmirror : RedisMirrors w'.app ↔
          env.redisOk .registerClient K.id = true ∨ w.app.tokens K.id = some K.token := by
        rw [← h, RedisMirrors]
        dsimp only
        rw [htokens, hredis]
        by_cases hok : env.redisOk .registerClient K.id = true
        · rw [if_pos hok]
          refine ⟨fun _ => Or.inl hok, fun _ x => ?_⟩
          rw [update_apply, update_apply, hw x]
        · rw [if_neg hok]
          constructor
          · intro hall
            have hK := hall K.id
            rw [update_self, hw K.id] at hK
            exact Or.inr hK
          · rintro (hok' | hknown) x
            · exact absurd hok' hok
            · rw [← hknown, update_eq_self, hw x]
      rw [hmirror]
      constructor
      · intro hcond
        refine ⟨fun id token hsome => ?_, fun id hid => ?_, by simp⟩
        · obtain ⟨rfl, rfl⟩ := Prod.mk.inj (Option.some.inj (hreg.symm.trans hsome))
          exact hcond
        · rw [hremoves] at hid
          exact absurd hid (by simp)
      · exact fun hcond => hcond.registers K.id K.token hreg

/-- From a state where Redis mirrors the registry, a step leads to one just when it writes
through. -/
lemma mirrors_iff_of_step {cfg : Config} {w w' : World} {l : Label} (hw : RedisMirrors w.app)
    (h : step cfg w l = some w') : RedisMirrors w'.app ↔ WritesThrough cfg w l := by
  obtain ⟨env, ev⟩ := l
  by_cases hconnect : ∃ r, ev = .connect r
  · obtain ⟨r, rfl⟩ := hconnect
    exact mirrors_iff_of_connect hw h
  have hno : ∀ r, ev ≠ .connect r := fun r hr => hconnect ⟨r, hr⟩
  have hreg : registration cfg w ⟨env, ev⟩ = none := by
    cases ev with
    | connect r => exact absurd rfl (hno r)
    | _ => rfl
  have htokens := tokens_of_step h hno
  by_cases hchange : ∃ redis, ev = .redisChange redis
  · obtain ⟨redis, rfl⟩ := hchange
    have hremoves : removals cfg w ⟨env, .redisChange redis⟩ = [] :=
      removals_of_none rfl rfl (by simp)
    have hw' := Option.some.inj h
    have hsame : w'.app.tokens = w.app.tokens := by
      rw [← hw']
      rfl
    rw [RedisMirrors, hsame, ← hw']
    constructor
    · intro hall
      refine ⟨fun id token hsome => absurd (hreg.symm.trans hsome) (by simp), fun id hid => ?_,
        fun redis' heq id => ?_⟩
      · rw [hremoves] at hid
        exact absurd hid (by simp)
      · rw [← Event.redisChange.inj heq]
        exact hall id
    · exact fun hcond id => hcond.redis redis rfl id
  · have hredis : ∀ redis, ev ≠ .redisChange redis := fun redis hr => hchange ⟨redis, hr⟩
    have hmirror : RedisMirrors w'.app ↔ ∀ x ∈ removals cfg w ⟨env, ev⟩,
        env.redisOk .removeClient x = true ∨ w.app.tokens x = none := by
      refine forall_congr' fun x => ?_
      rw [redisTokens_of_step h hno hredis, htokens, hw x]
      by_cases hx : x ∈ removals cfg w ⟨env, ev⟩
      · by_cases hok : env.redisOk .removeClient x = true
        · simp [hx, hok]
        · simp [hx, hok]
      · simp [hx]
    rw [hmirror]
    exact ⟨fun hcond => ⟨fun id token hsome => absurd (hreg.symm.trans hsome) (by simp), hcond,
      fun redis heq => absurd heq (hredis redis)⟩, fun hcond => hcond.removes⟩

/-- Where Redis mirrors the registry, no client is known from Redis only. -/
lemma RedisMirrors.noRedisReconnect {cfg : Config} {w : World} (h : RedisMirrors w.app) (l : Label) :
    NoRedisReconnect cfg w l := by
  rintro r - ⟨p, -, -, -, hnone, htoken⟩
  rw [redisClientToken] at htoken
  split_ifs at htoken
  have hmirror := h p.id
  rw [redisTokens, htoken, tokens, hnone] at hmirror
  exact absurd hmirror (by simp)

lemma mirrors_init (cfg : Config) {redis : Redis} (hredis : redis.clientToken = ∅) :
    RedisMirrors (World.init cfg redis).app := by
  intro id
  show redis.clientToken.lookup id = none
  rw [hredis]
  rfl

/-- In every run of a server in front of a Redis without clients, Redis has the tokens of
the registered clients, and no others, in all states just when all steps write through. -/
theorem redis_mirrors_registry_iff (cfg : Config) (redis : Redis) (ls : List Label)
    (hredis : redis.clientToken = ∅) :
    AllSteps (step cfg) (fun _ _ w' => RedisMirrors w'.app) (World.init cfg redis) ls ↔
      AllSteps (step cfg) (fun w l _ => WritesThrough cfg w l) (World.init cfg redis) ls := by
  exact AllSteps.iff_of_invariant (I := fun w : World => RedisMirrors w.app)
    (fun _ _ _ => mirrors_iff_of_step) (fun _ _ _ _ _ hG => hG) (mirrors_init cfg hredis)

/-- `alice` connects over a WebSocket, and her socket closes. -/
def aliceVisits : List Label :=
  [.connect (Params.plain "alice" "tok").ws, .wsClose 0].map quietly

theorem redis_mirrors_registry_alice :
    AllSteps (step {}) (fun _ _ w' => RedisMirrors w'.app) (World.init {} Redis.empty) aliceVisits ↔
      AllSteps (step {}) (fun w l _ => WritesThrough {} w l) (World.init {} Redis.empty)
        aliceVisits :=
  redis_mirrors_registry_iff {} Redis.empty aliceVisits rfl

/-- While all steps write through, no reconnect is admitted past the limit: the counter of
connections is the number of clients, and within the limit. -/
theorem counted_of_writes_through (cfg : Config) (redis : Redis) (ls : List Label)
    (hredis : redis.clientToken = ∅)
    (hwrites : AllSteps (step cfg) (fun w l _ => WritesThrough cfg w l) (World.init cfg redis) ls) :
    AllSteps (step cfg) (fun _ _ w' => Counted cfg w'.app) (World.init cfg redis) ls := by
  have hinit : Counted cfg (World.init cfg redis).app := ⟨rfl, Nat.zero_le _⟩
  refine AllSteps.of_invariant (I := fun w : World => RedisMirrors w.app ∧ Counted cfg w.app)
    (P := fun w l _ => WritesThrough cfg w l) (fun w l w' hw h hwrite => ?_)
    ⟨mirrors_init cfg hredis, hinit⟩ hwrites
  have hcounted : Counted cfg w'.app := (counted_iff_of_step hw.2 h).mpr (hw.1.noRedisReconnect l)
  exact ⟨⟨(mirrors_iff_of_step hw.1 h).mpr hwrite, hcounted⟩, hcounted⟩

end Dendri
