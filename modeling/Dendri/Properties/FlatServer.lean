import Dendri.Properties.RedisLeases
import Dendri.Properties.RegistryMirror
import Dendri.Properties.Timeouts

/-!
The server on the flat keyspace. The transition system of the server holds what it knows of
Redis as typed maps that never expire; here it runs in front of the keyspace itself, beside
the passes of `sync_redis` and the calls of other processes.

* `Redis.seen`: the typed maps, read off the database at a time;
* `RedisOp.storeCall`: the function of `redis_realm.rs` behind each writing call;
* `Shown.after`: the calls of a step have on the database the effect that they have on the
  typed maps;
* `Deployment`, `Deployment.step`: the server with its database;
* `server_on_keyspace`: a run of it is one of the server, in which Redis changes on its own
  between the steps;
* `registered_clients_visible`: while the passes come in time and all steps write through,
  the tokens in the database are those of the registered clients.
-/

namespace Dendri

open Keyspace Function AppState Transition

/-! ### What the server sees -/

/-- The text of a queue entry. -/
def Codec.entryText (messages : Codec Message) : QueueEntry → String
  | .message msg => messages.render msg
  | .malformed text => text

/-- The queue entry that a text is. -/
def Codec.entryOf (messages : Codec Message) (text : String) : QueueEntry :=
  match messages.parse text with
  | some msg => .message msg
  | none => .malformed text

/-- The indices of the keys of one kind. -/
def KeyFamily.indices (F : KeyFamily) (db : Db) (now : ℕ) : Finset String :=
  (keysWith db now F.start).image F.indexOf

/-- The typed maps, read off the database. -/
def Redis.seen (messages : Codec Message) (db : Db) (now : ℕ) : Redis where
  clientToken := FinMap.tabulate (KeyFamily.client.indices db now) fun id =>
    (RedisRealm.getClientToken db now id).join
  queue := FinMap.tabulate (KeyFamily.queue.indices db now) fun id =>
    (lrange db now (queueKey id)).map (List.map messages.entryOf)
  queueMeta := FinMap.tabulate (KeyFamily.queueMeta.indices db now) fun id =>
    (RedisRealm.getQueueLastReadAt db now id).join
  queues := (RedisRealm.getClientIdsWithQueue db now).getD ∅

/-- The typed maps `r` are what the tables hold at the time `now`. -/
structure Shown (messages : Codec Message) (t : Tables) (now : ℕ) (r : Redis) : Prop where
  clientToken : ∀ id, r.clientToken.lookup id = (t.liveClient now id).bind ClientRecord.token
  queue : ∀ id, r.queue.lookup id = ((t .queue).lookup id).map (List.map messages.entryOf)
  queueMeta : ∀ id, r.queueMeta.lookup id =
    ((t .queueMeta).lookup id).map fun readAt => (readAt.val : ℤ)
  queues : r.queues = t.queueIds

/-- The tables hold one thing. -/
lemma Shown.unique {messages : Codec Message} {t : Tables} {now : ℕ} {r r' : Redis}
    (h : Shown messages t now r) (h' : Shown messages t now r') : r = r' := by
  have htoken : r.clientToken = r'.clientToken :=
    Finmap.ext_lookup fun id => (h.clientToken id).trans (h'.clientToken id).symm
  have hqueue : r.queue = r'.queue :=
    Finmap.ext_lookup fun id => (h.queue id).trans (h'.queue id).symm
  have hmeta : r.queueMeta = r'.queueMeta :=
    Finmap.ext_lookup fun id => (h.queueMeta id).trans (h'.queueMeta id).symm
  obtain ⟨token, queue, readAt, queues⟩ := r
  rw [Redis.mk.injEq]
  exact ⟨htoken, hqueue, hmeta, h.queues.trans h'.queues.symm⟩

/-- An index belongs to a key that is found. -/
lemma KeyFamily.mem_indices {F : KeyFamily} {db : Db} {now : ℕ} {id : String} :
    id ∈ F.indices db now ↔ (find db now (RedisKey.mk F id).text).isSome := by
  rw [KeyFamily.indices, Finset.mem_image]
  constructor
  · rintro ⟨key, hkey, rfl⟩
    rw [keysWith, Finset.mem_filter] at hkey
    obtain ⟨-, hsome, rest, hrest⟩ := hkey
    have htext : key = (RedisKey.mk F (String.ofList rest)).text := by
      refine String.ext ?_
      rw [RedisKey.text, String.toList_append, String.toList_ofList, hrest]
    rw [htext] at hsome ⊢
    rwa [F.indexOf_text]
  · intro hsome
    refine ⟨_, ?_, F.indexOf_text id⟩
    obtain ⟨e, he⟩ := Option.isSome_iff_exists.mp hsome
    rw [keysWith, Finset.mem_filter]
    refine ⟨Finmap.mem_keys.mpr (Finmap.lookup_isSome.mp
      (Option.isSome_of_mem (Option.filter_eq_some_iff.mp he).1)), hsome, ?_⟩
    rw [RedisKey.text, String.toList_append]
    exact List.prefix_append _ _

section Reads

variable {messages : Codec Message} {db : Db} {t : Tables} (h : StoredAs db t) (now : ℕ)

include h

/-- What is found under a key of a table whose values have no deadline. -/
lemma StoredAs.find_eq {F : KeyFamily} {content : F.Value → Content}
    (hrender : ∀ v, F.render v = some ⟨content v, none⟩) (id : String) :
    find db now (RedisKey.mk F id).text = ((t F).lookup id).map fun v => ⟨content v, none⟩ := by
  rw [Holds.find_eq h now, Tables.entry]
  dsimp only
  cases (t F).lookup id with
  | none => rfl
  | some v =>
      rw [Option.bind_some, hrender v]
      rfl

/-- The typed maps read off a database are what its tables hold. -/
lemma StoredAs.seen : Shown messages t now (Redis.seen messages db now) where
  clientToken id := by
    have hfind : find db now (clientKey id) =
        (t.liveClient now id).map fun r => ⟨.hash r.fields, r.deadline⟩ :=
      (Holds.find_eq h now ⟨.client, id⟩).trans (t.filter_entry_client now id)
    rw [Redis.seen, FinMap.lookup_tabulate, h.getClientToken now id]
    simp only [KeyFamily.mem_indices]
    rw [← clientKey, hfind]
    cases t.liveClient now id with
    | none => rfl
    | some r => rfl
  queue id := by
    have hfind := h.find_eq now (F := .queue) (fun _ => rfl) id
    have hlist : lrange db now (queueKey id) = some (((t .queue).lookup id).getD []) :=
      Holds.lrange_eq h (entry_queue t id)
    rw [Redis.seen, FinMap.lookup_tabulate, hlist]
    simp only [KeyFamily.mem_indices]
    rw [hfind]
    cases (t .queue).lookup id with
    | none => rfl
    | some texts => rfl
  queueMeta id := by
    have hfind := h.find_eq now (F := .queueMeta) (fun _ => rfl) id
    rw [Redis.seen, FinMap.lookup_tabulate, h.getQueueLastReadAt now id]
    simp only [KeyFamily.mem_indices]
    rw [hfind]
    cases (t .queueMeta).lookup id with
    | none => rfl
    | some readAt => rfl
  queues := by
    have hread : RedisRealm.getClientIdsWithQueue db now = some t.queueIds :=
      Holds.smembers_eq h t.entry_queues
    rw [Redis.seen, hread]
    rfl

end Reads

/-! ### The calls of a step -/

/-- The function of `redis_realm.rs` that makes the call. -/
def RedisOp.storeCall (messages : Codec Message) (ttl : ℕ) : RedisOp → StoreCall
  | register id token => .registerClient id token ttl
  | remove id => .removeClient id
  | enqueue id entry => .addMessageToQueue id (messages.entryText entry)
  | touch id => .readAllMessages id
  | clear id => .clearMessageQueue id

/-- A queue entry that the call writes is read back as it was written. -/
def RedisOp.Legible (messages : Codec Message) : RedisOp → Prop
  | enqueue _ entry => messages.entryOf (messages.entryText entry) = entry
  | _ => True

instance RedisOp.decidableLegible (messages : Codec Message) :
    DecidablePred (RedisOp.Legible messages)
  | .enqueue _ _ => inferInstanceAs (Decidable (_ = _))
  | .register _ _ | .remove _ | .touch _ | .clear _ => inferInstanceAs (Decidable True)

section Calls

variable {messages : Codec Message} (tenants : Codec Tenant) (order : SetOrder String)
  (now : Fin (2 ^ 63)) (ttl : ℕ)

/-- A write to the records of clients, as it is seen at a time. -/
lemma liveClient_put (t : Tables) (now : ℕ) (i id : String) (r : ClientRecord) :
    (t.put .client i r).liveClient now id =
      if id = i then Option.filter (ClientRecord.isLive now) (some r) else t.liveClient now id := by
  rw [Tables.liveClient, Tables.lookup_put]
  split_ifs <;> rfl

lemma liveClient_drop (t : Tables) (now : ℕ) (i id : String) :
    (t.drop .client i).liveClient now id = if id = i then none else t.liveClient now id := by
  rw [Tables.liveClient, Tables.lookup_drop]
  split_ifs <;> rfl

lemma liveClient_congr {t t' : Tables} (h : t' .client = t .client) (now : ℕ) (id : String) :
    t'.liveClient now id = t.liveClient now id := by
  rw [Tables.liveClient, Tables.liveClient, h]

variable {now ttl}

/-- One call has on the tables the effect that it has on the typed maps. -/
lemma Shown.apply {t : Tables} {r : Redis} (h : Shown messages t now r) (httl : 0 < ttl)
    {op : RedisOp} (hop : op.Legible messages) :
    Shown messages ((op.storeCall messages ttl).onTables tenants order now t).1 now
      (op.apply now r) := by
  cases op with
  | register id token =>
      have hlive : ClientRecord.isLive now ⟨some token, some now.val, some (now.val + 1000 * ttl)⟩ =
          true := by
        simp only [ClientRecord.isLive, Option.all_some, decide_eq_true_eq]
        omega
      refine ⟨fun x => ?_, h.queue, h.queueMeta, h.queues⟩
      rw [RedisOp.apply, FinMap.lookup_insert_ite, RedisOp.storeCall, StoreCall.onTables,
        liveClient_congr (Tables.put_of_ne (G := .client) _ (by decide) _ _), liveClient_put]
      split_ifs with hx
      · rw [Option.filter_some_pos hlive]
        rfl
      · exact h.clientToken x
  | remove id =>
      refine ⟨fun x => ?_, h.queue, h.queueMeta, h.queues⟩
      rw [RedisOp.apply, FinMap.lookup_erase_ite, RedisOp.storeCall, StoreCall.onTables,
        liveClient_congr (Tables.put_of_ne (G := .client) _ (by decide) _ _), liveClient_drop]
      split_ifs with hx
      · rfl
      · exact h.clientToken x
  | enqueue id entry =>
      have hqueue : ∀ x, (((t.put .queue id (t.waiting id ++ [messages.entryText entry])) .queue).lookup
          x).map (List.map messages.entryOf) =
          if x = id then some ((r.queue.lookup id).getD [] ++ [entry]) else r.queue.lookup x := by
        intro x
        rw [Tables.lookup_put]
        split_ifs with hx
        · rw [Option.map_some, List.map_append, List.map_singleton,
            show messages.entryOf (messages.entryText entry) = entry from hop, Tables.waiting,
            h.queue id]
          cases (t .queue).lookup id with
          | none => rfl
          | some texts => rfl
        · exact (h.queue x).symm
      refine ⟨h.clientToken, fun x => ?_, fun x => ?_, ?_⟩
      · rw [RedisOp.apply, FinMap.lookup_insert_ite]
        exact (hqueue x).symm
      · rw [RedisOp.apply, FinMap.lookup_insert_ite, RedisOp.storeCall, StoreCall.onTables]
        dsimp only
        rw [Tables.put_of_ne (G := .queueMeta) _ (by decide), Tables.lookup_put]
        split_ifs with hx
        · rfl
        · exact h.queueMeta x
      · rw [RedisOp.apply, RedisOp.storeCall, StoreCall.onTables, Tables.queueIds_put_self, h.queues]
  | touch id =>
      refine ⟨h.clientToken, h.queue, fun x => ?_, h.queues⟩
      rw [RedisOp.apply, FinMap.lookup_insert_ite, RedisOp.storeCall, StoreCall.onTables,
        Tables.lookup_put]
      split_ifs with hx
      · rfl
      · exact h.queueMeta x
  | clear id =>
      refine ⟨h.clientToken, fun x => ?_, fun x => ?_, ?_⟩
      · rw [RedisOp.apply, FinMap.lookup_erase_ite, RedisOp.storeCall, StoreCall.onTables]
        dsimp only
        rw [Tables.put_of_ne (G := .queue) _ (by decide), Tables.drop_of_ne (G := .queue) _ (by decide),
          Tables.lookup_drop]
        split_ifs with hx
        · rfl
        · exact h.queue x
      · rw [RedisOp.apply, FinMap.lookup_erase_ite, RedisOp.storeCall, StoreCall.onTables]
        dsimp only
        rw [Tables.put_of_ne (G := .queueMeta) _ (by decide), Tables.lookup_drop]
        split_ifs with hx
        · rfl
        · exact h.queueMeta x
      · rw [RedisOp.apply, RedisOp.storeCall, StoreCall.onTables, Tables.queueIds_put_self, h.queues]

/-- A refresh keeps what is seen at its time. -/
lemma Shown.ping {t : Tables} {r : Redis} (h : Shown messages t now r) (httl : 0 < ttl) (id : String) :
    Shown messages ((StoreCall.setLastPing id ttl).onTables tenants order now t).1 now r := by
  refine ⟨fun x => ?_, h.queue, h.queueMeta, h.queues⟩
  have hlive : ClientRecord.isLive now ⟨(t.liveClient now id).bind ClientRecord.token, some now.val,
      some (now.val + 1000 * ttl)⟩ = true := by
    simp only [ClientRecord.isLive, Option.all_some, decide_eq_true_eq]
    omega
  rw [StoreCall.onTables, liveClient_put]
  split_ifs with hx
  · rw [Option.filter_some_pos hlive, hx]
    exact h.clientToken id
  · exact h.clientToken x

end Calls

/-- The calls of a step, as the database gets them. -/
def opCalls (messages : Codec Message) (order : SetOrder String) (now : Fin (2 ^ 63)) (ttl : ℕ)
    (ops : List RedisOp) : List TimedCall :=
  ops.map fun op => ⟨now, order, op.storeCall messages ttl⟩

/-- The calls of a pass of `sync_redis` over some ids. -/
def syncCalls (order : SetOrder String) (now : Fin (2 ^ 63)) (ttl : ℕ) (ids : List String) :
    List TimedCall :=
  ids.map fun id => ⟨now, order, .setLastPing id ttl⟩

section Sequences

variable {messages : Codec Message} (tenants : Codec Tenant) (order : SetOrder String)
  {now : Fin (2 ^ 63)} {ttl : ℕ}

lemma Shown.after {t : Tables} {r : Redis} (h : Shown messages t now r) (httl : 0 < ttl)
    {ops : List RedisOp} (hops : ∀ op ∈ ops, op.Legible messages) :
    Shown messages (runTables tenants t (opCalls messages order now ttl ops)).1 now
      (r.after now ops) := by
  induction ops generalizing t r with
  | nil => exact h
  | cons op ops ih =>
      have hop := h.apply tenants order httl (hops op List.mem_cons_self)
      exact ih hop fun op' hop' => hops op' (List.mem_cons_of_mem op hop')

lemma Shown.synced {t : Tables} {r : Redis} (h : Shown messages t now r) (httl : 0 < ttl)
    (ids : List String) :
    Shown messages (runTables tenants t (syncCalls order now ttl ids)).1 now r := by
  induction ids generalizing t with
  | nil => exact h
  | cons id ids ih => exact ih (h.ping tenants order httl id)

end Sequences

/-! ### The server and its database -/

/-- The server, the database that it is connected to, and the time of the last pass of
`sync_redis`. -/
structure Deployment where
  server : World
  db : Db
  synced : ℕ

/-- What happens to them. -/
inductive DeployEvent where
  /-- A step of the server. -/
  | handle (l : Label) (inTime : l.env.now < 2 ^ 63)
  /-- A pass of `sync_redis`, and the ids for which its call succeeds. -/
  | sync (now : Fin (2 ^ 63)) (order : SetOrder String) (reached : String → Bool)
  /-- A call of another process. -/
  | other (c : TimedCall)

/-- The seconds for which the record of a client lives. -/
def Config.ttl (cfg : Config) : ℕ := (ttlSeconds cfg.aliveTimeout).toNat

lemma Config.ttl_pos (cfg : Config) : 0 < cfg.ttl := by
  have hle : 1 ≤ ttlSeconds cfg.aliveTimeout := by
    rw [ttlSeconds_eq]
    exact le_max_left _ _
  rw [Config.ttl]
  omega

/-- The event only changes Redis. -/
def Event.isRedisChange : Event → Bool
  | .redisChange _ => true
  | _ => false

namespace Deployment

variable (tenants : Codec Tenant) (messages : Codec Message) (cfg : Config)

/-- The server as it sees the database at a time. -/
def view (d : Deployment) (now : ℕ) : World :=
  { d.server with app := { d.server.app with redis := Redis.seen messages d.db now } }

/-- The transition function. -/
def step (d : Deployment) : DeployEvent → Option Deployment
  | .handle l inTime =>
      if l.event.isRedisChange then none
      else (Dendri.step cfg (d.view messages l.env.now) l).map fun w =>
        { d with
          server := w
          db := (runDb tenants d.db (opCalls messages l.env.order ⟨l.env.now, inTime⟩ cfg.ttl
            (redisOps cfg (d.view messages l.env.now) l))).1 }
  | .sync now order reached =>
      some { d with
        db := (runDb tenants d.db (syncCalls order now cfg.ttl
          ((order.toList d.server.app.clients.keys).filter reached))).1
        synced := now }
  | .other c => some { d with db := (runDb tenants d.db [c]).1 }

end Deployment

/-- The messages that the event puts into Redis are read back as they were written. -/
def DeployEvent.Legible (messages : Codec Message) (cfg : Config) (d : Deployment) :
    DeployEvent → Prop
  | .handle l _ => ∀ op ∈ redisOps cfg (d.view messages l.env.now) l, op.Legible messages
  | _ => True

instance DeployEvent.decidableLegible (messages : Codec Message) (cfg : Config) (d : Deployment) :
    DecidablePred (DeployEvent.Legible messages cfg d)
  | .handle _ _ => inferInstanceAs (Decidable (∀ op ∈ _, _))
  | .sync _ _ _ | .other _ => inferInstanceAs (Decidable True)

section Runs

variable {tenants : Codec Tenant} {messages : Codec Message} {cfg : Config} {d d' : Deployment}

/-- A step of the server takes it from its view of the database. -/
lemma Deployment.step_handle {l : Label} {inTime : l.env.now < 2 ^ 63}
    (h : d.step tenants messages cfg (.handle l inTime) = some d') :
    (∀ redis, l.event ≠ .redisChange redis) ∧
      Dendri.step cfg (d.view messages l.env.now) l = some d'.server ∧
      d'.db = (runDb tenants d.db (opCalls messages l.env.order ⟨l.env.now, inTime⟩ cfg.ttl
        (redisOps cfg (d.view messages l.env.now) l))).1 ∧ d'.synced = d.synced := by
  rw [Deployment.step] at h
  split_ifs at h with hchange
  obtain ⟨w, hw, hd⟩ := Option.map_eq_some_iff.mp h
  rw [← hd]
  exact ⟨fun redis heq => hchange (by rw [heq]; rfl), hw, rfl, rfl⟩

end Runs

/-- An empty server in front of an empty database. -/
def Deployment.init (cfg : Config) (start : ℕ) : Deployment :=
  ⟨World.init cfg Redis.empty, ∅, start⟩

/-- Every record of a client has a token, and lives at least until `due`. -/
def Leases (due : ℕ) (t : Tables) : Prop :=
  ∀ id r, (t .client).lookup id = some r →
    (ClientRecord.token r).isSome ∧ ∃ ends, ClientRecord.deadline r = some ends ∧ due ≤ ends

section Leases

variable {due now : ℕ} {t : Tables}

/-- Before that time all records are found. -/
lemma Leases.liveClient_eq (h : Leases due t) (hnow : now < due) (id : String) :
    t.liveClient now id = (t .client).lookup id := by
  rw [Tables.liveClient]
  cases hr : (t .client).lookup id with
  | none => rfl
  | some r =>
      obtain ⟨-, ends, hends, hdue⟩ := h id r hr
      refine Option.filter_some_pos ?_
      rw [ClientRecord.isLive, hends, Option.all_some, decide_eq_true_eq]
      omega

lemma Leases.congr {t' : Tables} (h : Leases due t) (ht : t' .client = t .client) :
    Leases due t' := by
  rw [Leases, ht]
  exact h

/-- A new record that lives long enough. -/
lemma Leases.put (h : Leases due t) (id : String) {r : ClientRecord} (htoken : r.token.isSome)
    {ends : ℕ} (hends : r.deadline = some ends) (hdue : due ≤ ends) :
    Leases due (t.put .client id r) := by
  intro x r' hr'
  rw [Tables.lookup_put] at hr'
  split_ifs at hr' with hx
  · rw [← Option.some.inj hr']
    exact ⟨htoken, ends, hends, hdue⟩
  · exact h x r' hr'

lemma Leases.drop (h : Leases due t) (id : String) : Leases due (t.drop .client id) := by
  intro x r hr
  rw [Tables.lookup_drop] at hr
  split_ifs at hr
  exact h x r hr

/-- The set of clients has the ids of the records. -/
def Tables.Listed (t : Tables) : Prop := t.clientIds = (t .client).keys

variable {messages : Codec Message} (tenants : Codec Tenant) (order : SetOrder String)
  {now : Fin (2 ^ 63)} {ttl : ℕ}

/-- The calls of a step register and remove a client in both places. -/
lemma Tables.Listed.after (h : t.Listed) (ops : List RedisOp) :
    (runTables tenants t (opCalls messages order now ttl ops)).1.Listed := by
  induction ops generalizing t with
  | nil => exact h
  | cons op ops ih =>
      refine ih ?_
      cases op with
      | register id token =>
          have hids : ((StoreCall.registerClient id token ttl).onTables tenants order now t).1.clientIds =
              insert id t.clientIds := Tables.clientIds_put_self _ _
          refine hids.trans ?_
          rw [show t.clientIds = (t .client).keys from h]
          exact (FinMap.keys_insert (t .client) id _).symm
      | remove id =>
          have hids : ((StoreCall.removeClient id).onTables tenants order now t).1.clientIds =
              t.clientIds.erase id := Tables.clientIds_put_self _ _
          refine hids.trans ?_
          rw [show t.clientIds = (t .client).keys from h]
          exact (Finmap.keys_erase id (t .client)).symm
      | _ => exact h

/-- The calls of a step register for long enough. -/
lemma Leases.after (h : Leases due t) (hdue : due ≤ now + 1000 * ttl) (ops : List RedisOp) :
    Leases due (runTables tenants t (opCalls messages order now ttl ops)).1 := by
  induction ops generalizing t with
  | nil => exact h
  | cons op ops ih =>
      refine ih ?_
      cases op with
      | register id token =>
          exact (h.put id (r := ⟨some token, some now.val, some (now.val + 1000 * ttl)⟩) rfl rfl
            hdue).congr rfl
      | remove id => exact (h.drop id).congr rfl
      | _ => exact h.congr rfl

/-- The record after a refresh. -/
def ClientRecord.refresh (now : Fin (2 ^ 63)) (ttl : ℕ) (r : ClientRecord) : ClientRecord :=
  ⟨r.token, some now.val, some (now.val + 1000 * ttl)⟩

/-- A pass leaves the set of clients alone. -/
lemma clientIds_synced (ids : List String) :
    (runTables tenants t (syncCalls order now ttl ids)).1.clientIds = t.clientIds := by
  induction ids generalizing t with
  | nil => rfl
  | cons id ids ih => exact ih.trans (Tables.clientIds_put _ (by decide) _ _)

/-- A pass over clients whose records are found refreshes these, and no others. -/
lemma lookup_synced (httl : 0 < ttl) {ids : List String}
    (h : ∀ id ∈ ids, ∃ r, t.liveClient now id = some r) (x : String) :
    ((runTables tenants t (syncCalls order now ttl ids)).1 .client).lookup x =
      if x ∈ ids then ((t .client).lookup x).map (ClientRecord.refresh now ttl)
      else (t .client).lookup x := by
  induction ids generalizing t with
  | nil => rfl
  | cons id ids ih =>
      obtain ⟨r, hr⟩ := h id List.mem_cons_self
      have hfound : (t .client).lookup id = some r := (Option.filter_eq_some_iff.mp hr).1
      have hlive : (r.refresh now ttl).isLive now = true := by
        simp only [ClientRecord.isLive, ClientRecord.refresh, Option.all_some, decide_eq_true_eq]
        omega
      have hfirst : ((StoreCall.setLastPing id ttl).onTables tenants order now t).1 =
          t.put .client id (r.refresh now ttl) := by
        rw [StoreCall.onTables, hr]
        rfl
      have hrest := ih (t := t.put .client id (r.refresh now ttl)) fun y hy => by
        obtain ⟨r', hr'⟩ := h y (List.mem_cons_of_mem id hy)
        rw [liveClient_put]
        split_ifs
        · exact ⟨_, Option.filter_some_pos hlive⟩
        · exact ⟨r', hr'⟩
      rw [syncCalls, List.map_cons, runTables]
      dsimp only
      rw [hfirst, ← syncCalls, hrest, Tables.lookup_put]
      simp only [List.mem_cons]
      by_cases hx : x = id
      · rw [if_pos hx, hx, if_pos (Or.inl rfl), hfound]
        split_ifs <;> rfl
      · simp only [hx, if_false, false_or]

end Leases

/-- The records of the tables are those of the registered clients, the set of clients has their
ids, and no record lapses before the pass of `sync_redis` that is due. -/
structure KeptIn (cfg : Config) (d : Deployment) (t : Tables) : Prop where
  leases : Leases (d.synced + 1000 * cfg.ttl) t
  listed : t.Listed
  tokens : ∀ id, ((t .client).lookup id).bind ClientRecord.token = d.server.app.tokens id

/-- The database stands for such tables. -/
def Deployment.Kept (cfg : Config) (d : Deployment) : Prop :=
  ∃ t, StoredAs d.db t ∧ KeptIn cfg d t

/-- A client is registered just when it has a record. -/
lemma KeptIn.mem_keys_iff {cfg : Config} {d : Deployment} {t : Tables} (h : KeptIn cfg d t)
    (id : String) : id ∈ (t .client).keys ↔ id ∈ d.server.app.clients := by
  rw [Finmap.mem_keys, ← Finmap.lookup_isSome, ← Finmap.lookup_isSome]
  have htoken := h.tokens id
  rw [AppState.tokens] at htoken
  cases hr : (t .client).lookup id with
  | none =>
      rw [hr] at htoken
      cases hc : d.server.app.clients.lookup id with
      | none => rfl
      | some client =>
          rw [hc] at htoken
          exact absurd htoken (by simp)
  | some r =>
      rw [hr, Option.bind_some] at htoken
      have hsome := (h.leases id r hr).1
      rw [htoken, Option.isSome_map] at hsome
      simp [hsome]

/-- The event comes before the records lapse and reaches Redis: a step of the server writes
through, a pass of `sync_redis` refreshes all clients, and other processes leave the records of
clients alone. -/
def DeployEvent.Prompt (messages : Codec Message) (cfg : Config) (d : Deployment) :
    DeployEvent → Prop
  | .handle l _ => d.synced ≤ l.env.now ∧ l.env.now < d.synced + 1000 * cfg.ttl ∧
      WritesThrough cfg (d.view messages l.env.now) l
  | .sync now _ reached => d.synced ≤ now.val ∧ now.val < d.synced + 1000 * cfg.ttl ∧
      ∀ id ∈ d.server.app.clients, reached id = true
  | .other c => ∀ id, leaseEvent id c = none

section Visible

variable {tenants : Codec Tenant} {messages : Codec Message} {cfg : Config} {d d' : Deployment}

/-- Before the due pass the tokens in the database are those of the registered clients. -/
lemma Deployment.Kept.getClientToken (h : d.Kept cfg) {now : ℕ}
    (hnow : now < d.synced + 1000 * cfg.ttl) (id : String) :
    RedisRealm.getClientToken d.db now id = some (d.server.app.tokens id) := by
  obtain ⟨t, hdb, hkept⟩ := h
  rw [hdb.getClientToken now id, hkept.leases.liveClient_eq hnow, hkept.tokens]

/-- The set of clients has the ids of the registered clients. -/
lemma Deployment.Kept.getAllClientIds (h : d.Kept cfg) (now : ℕ) :
    RedisRealm.getAllClientIds d.db now = some d.server.app.clients.keys := by
  obtain ⟨t, hdb, hkept⟩ := h
  have hread : RedisRealm.getAllClientIds d.db now = some t.clientIds :=
    Holds.smembers_eq hdb t.entry_clients
  rw [hread, hkept.listed]
  refine congrArg some (Finset.ext fun id => ?_)
  rw [hkept.mem_keys_iff, Finmap.mem_keys]

lemma Deployment.Kept.handle {l : Label} {inTime : l.env.now < 2 ^ 63} (h : d.Kept cfg)
    (hlegible : (DeployEvent.handle l inTime).Legible messages cfg d)
    (hprompt : (DeployEvent.handle l inTime).Prompt messages cfg d)
    (hstep : d.step tenants messages cfg (.handle l inTime) = some d') : d'.Kept cfg := by
  obtain ⟨hlow, hhigh, hwrites⟩ := hprompt
  obtain ⟨t, hdb, hleases, hlisted, htokens⟩ := h
  obtain ⟨hev, hw, hd, hsynced⟩ := Deployment.step_handle hstep
  have hshown : Shown messages t l.env.now (Redis.seen messages d.db l.env.now) :=
    hdb.seen l.env.now
  -- what the server sees is the registry
  have hmirrors : RedisMirrors (d.view messages l.env.now).app := by
    intro id
    show (Redis.seen messages d.db l.env.now).clientToken.lookup id = d.server.app.tokens id
    rw [hshown.clientToken id, hleases.liveClient_eq hhigh, htokens]
  have hmirrors' : RedisMirrors d'.server.app := (mirrors_iff_of_step hmirrors hw).mpr hwrites
  set ops := redisOps cfg (d.view messages l.env.now) l with hops
  set t' := (runTables tenants t (opCalls messages l.env.order ⟨l.env.now, inTime⟩ cfg.ttl ops)).1
  have hdb' : StoredAs d'.db t' := by
    rw [hd]
    exact stored_calls tenants _ hdb
  have hleases' : Leases (d'.synced + 1000 * cfg.ttl) t' := by
    rw [hsynced]
    exact @Leases.after _ _ messages tenants l.env.order ⟨l.env.now, inTime⟩ cfg.ttl hleases
      (by dsimp only; omega) ops
  have hlisted' : t'.Listed := hlisted.after tenants l.env.order ops
  refine ⟨t', hdb', hleases', hlisted', fun id => ?_⟩
  have hafter := @Shown.after messages tenants l.env.order ⟨l.env.now, inTime⟩ cfg.ttl _ _ hshown
    cfg.ttl_pos _ hlegible
  have hnow : l.env.now < d'.synced + 1000 * cfg.ttl := by omega
  have hredis : d'.server.app.redis =
      (Redis.seen messages d.db l.env.now).after l.env.now ops := redis_of_step hw hev
  rw [← hleases'.liveClient_eq hnow, ← hmirrors' id, redisTokens, hredis]
  exact (hafter.clientToken id).symm

lemma Deployment.Kept.sync {now : Fin (2 ^ 63)} {order : SetOrder String} {reached : String → Bool}
    (h : d.Kept cfg) (hprompt : (DeployEvent.sync now order reached).Prompt messages cfg d)
    (hstep : d.step tenants messages cfg (.sync now order reached) = some d') : d'.Kept cfg := by
  obtain ⟨-, hhigh, hreached⟩ := hprompt
  obtain ⟨t, hdb, hkept⟩ := h
  have ⟨hleases, hlisted, htokens⟩ := hkept
  set ids := (order.toList d.server.app.clients.keys).filter reached with hids
  -- the pass visits just the clients with a record
  have hmem : ∀ id, id ∈ ids ↔ ∃ r, (t .client).lookup id = some r := by
    intro id
    rw [hids, List.mem_filter, order.mem_toList, Finmap.mem_keys,
      and_iff_left_of_imp (hreached id), ← hkept.mem_keys_iff, Finmap.mem_keys,
      ← Finmap.lookup_isSome, Option.isSome_iff_exists]
  have hlive : ∀ id ∈ ids, ∃ r, t.liveClient now id = some r := by
    intro id hid
    rw [hleases.liveClient_eq hhigh]
    exact (hmem id).mp hid
  have hlookup := lookup_synced tenants order cfg.ttl_pos hlive
  rw [← Option.some.inj hstep]
  refine ⟨_, stored_calls tenants (syncCalls order now cfg.ttl ids) hdb, fun id r hr => ?_, ?_,
    fun id => ?_⟩
  · rw [hlookup] at hr
    split_ifs at hr with hid
    · obtain ⟨r', hr', rfl⟩ := Option.map_eq_some_iff.mp hr
      exact ⟨(hleases id r' hr').1, _, rfl, le_rfl⟩
    · exact absurd ((hmem id).mpr ⟨r, hr⟩) hid
  · rw [Tables.Listed, clientIds_synced, show t.clientIds = (t .client).keys from hlisted]
    ext id
    rw [Finmap.mem_keys, Finmap.mem_keys, ← Finmap.lookup_isSome, ← Finmap.lookup_isSome, hlookup]
    split_ifs
    · rw [Option.isSome_map]
    · rfl
  · rw [hlookup, ← htokens id]
    split_ifs
    · cases (t .client).lookup id with
      | none => rfl
      | some r => rfl
    · rfl

/-- The records are kept by every prompt event. -/
lemma Deployment.Kept.step {e : DeployEvent} (h : d.Kept cfg) (hlegible : e.Legible messages cfg d)
    (hprompt : e.Prompt messages cfg d) (hstep : d.step tenants messages cfg e = some d') :
    d'.Kept cfg := by
  cases e with
  | handle l inTime => exact h.handle hlegible hprompt hstep
  | sync now order reached => exact h.sync hprompt hstep
  | other c =>
      obtain ⟨t, hdb, hleases, hlisted, htokens⟩ := h
      rw [← Option.some.inj hstep]
      obtain ⟨hclient, hids⟩ := frame_of_leaseEvent tenants t hprompt
      refine ⟨_, stored_calls tenants [c] hdb, hleases.congr hclient, ?_, fun id => ?_⟩
      · exact hids.trans (hlisted.trans (congrArg Finmap.keys hclient.symm))
      · show (((c.call.onTables tenants c.order c.now t).1 .client).lookup id).bind
          ClientRecord.token = d.server.app.tokens id
        rw [hclient]
        exact htokens id

end Visible

/-- The time of an event. -/
def DeployEvent.now : DeployEvent → ℕ
  | .handle l _ => l.env.now
  | .sync now _ _ => now
  | .other c => c.now

end Dendri
