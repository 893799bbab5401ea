import Dendri.Server.RedisRealm

/-!
The flat keyspace of Redis as separate tables. All functions that store something in
Redis share one map of texts, and clients choose a large part of the keys: peer ids,
addresses, room names. The tables have one typed column for each kind of key.

* `KeyFamily.Value`, `KeyFamily.render`: what a table of each kind holds, and the
  entry that stands for it;
* `Tables`, `StoredAs`: one table for each kind, and the database that stands for them;
* `StoreCall.onTables`: each function of the source on the tables;
* `stored_run`: one call on the database does what it does on the tables;
* `flat_keyspace_refines`: so does every sequence of calls.
-/

namespace Dendri

open Keyspace Function

/-! ### Tables -/

/-- The hash under `peer:client:{id}`. -/
structure ClientRecord where
  token : Option String := none
  lastPing : Option ℕ := none
  deadline : Option ℕ := none
  deriving DecidableEq

/-- The fields of a hash. -/
def ClientRecord.fields (r : ClientRecord) : Finmap fun _ : String => String :=
  FinMap.insertOpt (FinMap.insertOpt ∅ "token" r.token) "last_ping" (r.lastPing.map Nat.repr)

lemma ClientRecord.fields_token (r : ClientRecord) (token : String) :
    ({ r with token := some token } : ClientRecord).fields = r.fields.insert "token" token := by
  refine Finmap.ext_lookup fun field => ?_
  simp only [ClientRecord.fields, FinMap.lookup_insertOpt, FinMap.lookup_insert_ite]
  by_cases h : field = "token" <;> simp [h]

lemma ClientRecord.fields_lastPing (r : ClientRecord) (now : ℕ) :
    ({ r with lastPing := some now } : ClientRecord).fields =
      r.fields.insert "last_ping" now.repr := by
  refine Finmap.ext_lookup fun field => ?_
  simp only [ClientRecord.fields, FinMap.lookup_insertOpt, FinMap.lookup_insert_ite]
  by_cases h : field = "last_ping" <;> simp [h]

/-- The record has not expired. -/
def ClientRecord.isLive (now : ℕ) (r : ClientRecord) : Bool := r.deadline.all fun d => decide (now < d)

/-- What the table of a kind holds. The times in `peer:queue_meta:{id}` are those of an
`i64` clock, and of a cooldown only its end matters. -/
abbrev KeyFamily.Value : KeyFamily → Type
  | client => ClientRecord
  | clients | queues => Finset String
  | queue => List String
  | queueMeta => Fin (2 ^ 63)
  | tenantKey | tenantId | tenantEmail => String
  | noAccount => ℕ

/-- The entry that stands for a value. -/
def KeyFamily.render : (F : KeyFamily) → F.Value → Option Entry
  | client, r => some ⟨.hash (ClientRecord.fields r), ClientRecord.deadline r⟩
  | clients, xs | queues, xs => setEntry xs
  | queue, xs => some ⟨.list xs, none⟩
  | queueMeta, t => some ⟨.text (Nat.repr (Fin.val t)), none⟩
  | tenantKey, s | tenantId, s | tenantEmail, s => some ⟨.text s, none⟩
  | noAccount, d => some ⟨.text "1", some d⟩

/-- One table for each kind of key. -/
abbrev Tables := ∀ F : KeyFamily, DashMap F.Value

namespace Tables

/-- Write one value. -/
def put (t : Tables) (F : KeyFamily) (i : String) (v : F.Value) : Tables :=
  update t F (Finmap.insert i v (t F))

/-- Remove one value. -/
def drop (t : Tables) (F : KeyFamily) (i : String) : Tables := update t F (Finmap.erase i (t F))

/-- The entry for a key. -/
def entry (t : Tables) (k : RedisKey) : Option Entry :=
  ((t k.family).lookup k.index).bind k.family.render

lemma entry_put (t : Tables) (F : KeyFamily) (i : String) (v : F.Value) :
    (t.put F i v).entry = update t.entry ⟨F, i⟩ (F.render v) := by
  funext ⟨G, j⟩
  rw [update_apply]
  by_cases hG : G = F
  · subst hG
    simp only [entry, put, update_self, FinMap.lookup_insert_ite, RedisKey.mk.injEq, true_and]
    split_ifs <;> rfl
  · have hne : (⟨G, j⟩ : RedisKey) ≠ ⟨F, i⟩ := fun h => hG (congrArg RedisKey.family h)
    simp only [entry, put, update_of_ne hG, if_neg hne]

lemma entry_drop (t : Tables) (F : KeyFamily) (i : String) :
    (t.drop F i).entry = update t.entry ⟨F, i⟩ none := by
  funext ⟨G, j⟩
  rw [update_apply]
  by_cases hG : G = F
  · subst hG
    simp only [entry, drop, update_self, FinMap.lookup_erase_ite, RedisKey.mk.injEq, true_and]
    split_ifs <;> rfl
  · have hne : (⟨G, j⟩ : RedisKey) ≠ ⟨F, i⟩ := fun h => hG (congrArg RedisKey.family h)
    simp only [entry, drop, update_of_ne hG, if_neg hne]

/-- The members of `peer:clients`. -/
def clientIds (t : Tables) : Finset String := ((t .clients).lookup "").getD ∅

/-- The members of `peer:queues`. -/
def queueIds (t : Tables) : Finset String := ((t .queues).lookup "").getD ∅

/-- The record of a client, unless it has expired. -/
def liveClient (t : Tables) (now : ℕ) (id : String) : Option ClientRecord :=
  ((t .client).lookup id).filter (ClientRecord.isLive now)

/-- The messages that wait for a client. -/
def waiting (t : Tables) (id : String) : List String := ((t .queue).lookup id).getD []

/-- The record of the tenant with a key. -/
def tenantByHash (codec : Codec Tenant) (t : Tables) (hash : String) : Option Tenant :=
  ((t .tenantKey).lookup hash).bind codec.parse

lemma entry_clients (t : Tables) : t.entry ⟨.clients, ""⟩ = setEntry t.clientIds := by
  rw [entry, clientIds]
  cases (t .clients).lookup "" with
  | none => rfl
  | some xs => rfl

lemma entry_queues (t : Tables) : t.entry ⟨.queues, ""⟩ = setEntry t.queueIds := by
  rw [entry, queueIds]
  cases (t .queues).lookup "" with
  | none => rfl
  | some xs => rfl

end Tables

/-- The database stands for the tables. -/
def StoredAs (db : Db) (t : Tables) : Prop := Holds RedisKey.text db t.entry

/-! ### The functions on the tables -/

/-- What follows the start of a key. -/
def KeyFamily.indexOf (F : KeyFamily) (key : String) : String :=
  String.ofList (key.toList.drop F.start.length)

lemma KeyFamily.indexOf_text (F : KeyFamily) (i : String) : F.indexOf (RedisKey.mk F i).text = i := by
  rw [KeyFamily.indexOf, RedisKey.text, String.toList_append, ← String.length_toList,
    List.drop_left, String.ofList_toList]

/-- The order of the indices in which their keys are listed. -/
def KeyFamily.order (F : KeyFamily) (order : SetOrder String) : SetOrder String :=
  order.pullback (LeftInverse.injective F.indexOf_text) F.indexOf_text

namespace StoreCall

/-- The call on the tables, with what it answers. -/
def onTables (codec : Codec Tenant) (order : SetOrder String) (now : Fin (2 ^ 63)) (t : Tables) :
    StoreCall → Tables × StoreAnswer
  | registerClient id token ttl =>
      ((t.put .client id ⟨some token, some now.val, some (now.val + 1000 * ttl)⟩).put .clients ""
        (insert id t.clientIds), .done)
  | removeClient id => ((t.drop .client id).put .clients "" (t.clientIds.erase id), .done)
  | clientExists id => (t, .flag (decide (id ∈ t.clientIds)))
  | getClientToken id => (t, .text ((t.liveClient now id).bind ClientRecord.token))
  | setLastPing id ttl =>
      (t.put .client id ⟨(t.liveClient now id).bind ClientRecord.token, some now.val,
        some (now.val + 1000 * ttl)⟩, .done)
  | getAllClientIds => (t, .ids t.clientIds)
  | generateClientId uuids => (t, .text (uuids.find? fun id => decide (id ∉ t.clientIds)))
  | addMessageToQueue id json =>
      (((t.put .queue id (t.waiting id ++ [json])).put .queueMeta id now).put .queues ""
        (insert id t.queueIds), .done)
  | readAllMessages id => (t.put .queueMeta id now, .texts (t.waiting id))
  | clearMessageQueue id =>
      (((t.drop .queue id).drop .queueMeta id).put .queues "" (t.queueIds.erase id), .done)
  | getClientIdsWithQueue => (t, .ids t.queueIds)
  | getQueueLastReadAt id => (t, .time (((t .queueMeta).lookup id).map fun readAt => (readAt.val : ℤ)))
  | fetchByHash hash => (t, .tenant (t.tenantByHash codec hash))
  | createTenant tenant hash =>
      let t := (t.put .tenantKey hash (codec.render tenant)).put .tenantId tenant.id hash
      match tenant.email with
      | some email => (t.put .tenantEmail (emailKey email) tenant.id, .done)
      | none => (t, .done)
  | updateTenant tenant =>
      match (t .tenantId).lookup tenant.id with
      | some hash => (t.put .tenantKey hash (codec.render tenant), .flag true)
      | none => (t, .flag false)
  | getTenantIdByEmail email => (t, .text ((t .tenantEmail).lookup (emailKey email)))
  | getTenantById id => (t, .tenant (((t .tenantId).lookup id).bind (t.tenantByHash codec)))
  | rotateApiKey id newHash =>
      match (t .tenantId).lookup id with
      | some oldHash =>
          match t.tenantByHash codec oldHash with
          | some tenant =>
              (((t.put .tenantKey newHash (codec.render tenant)).put .tenantId id newHash).drop
                .tenantKey oldHash, .flag true)
          | none => (t, .flag false)
      | none => (t, .flag false)
  | deleteTenant id =>
      match (t .tenantId).lookup id with
      | some hash =>
          let t' := (t.drop .tenantKey hash).drop .tenantId id
          match (t.tenantByHash codec hash).bind Tenant.email with
          | some email => (t'.drop .tenantEmail (emailKey email), .flag true)
          | none => (t', .flag true)
      | none => (t, .flag false)
  | listTenants =>
      (t, .tenants (((KeyFamily.tenantKey.order order).toList (t .tenantKey).keys).filterMap
        (t.tenantByHash codec)))
  | acquireNoAccountSlot email =>
      if ((t .noAccount).lookup (lowercase email)).any fun ends => decide (now.val < ends) then
        (t, .flag false)
      else (t.put .noAccount (lowercase email) (now.val + 1000 * (10 * 60)), .flag true)

end StoreCall

/-! ### Single commands -/

namespace Tables

/-- A write, read in its table. -/
lemma lookup_put (t : Tables) (F : KeyFamily) (i j : String) (v : F.Value) :
    ((t.put F i v) F).lookup j = if j = i then some v else (t F).lookup j := by
  rw [put, update_self]
  exact FinMap.lookup_insert_ite _ i j v

lemma lookup_drop (t : Tables) (F : KeyFamily) (i j : String) :
    ((t.drop F i) F).lookup j = if j = i then none else (t F).lookup j := by
  rw [drop, update_self]
  exact FinMap.lookup_erase_ite _ i j

/-- A write leaves the other tables alone. -/
lemma put_of_ne (t : Tables) {F G : KeyFamily} (h : G ≠ F) (i : String) (v : F.Value) :
    (t.put F i v) G = t G :=
  update_of_ne h _ _

lemma drop_of_ne (t : Tables) {F G : KeyFamily} (h : G ≠ F) (i : String) :
    (t.drop F i) G = t G :=
  update_of_ne h _ _

/-- Two writes to one place. -/
lemma put_put (t : Tables) (F : KeyFamily) (i : String) (v w : F.Value) :
    (t.put F i v).put F i w = t.put F i w := by
  rw [put, put, put, update_idem, update_self, Finmap.insert_insert]

/-- Writes to different tables commute. -/
lemma put_comm (t : Tables) {F G : KeyFamily} (h : F ≠ G) (i j : String) (v : F.Value)
    (w : G.Value) : (t.put F i v).put G j w = (t.put G j w).put F i v := by
  rw [put, put, put, put, update_of_ne h.symm, update_of_ne h, update_comm h]

variable (t : Tables) (now : ℕ) (id : String)

/-- The entry of the record of a client that is found. -/
lemma filter_entry_client : (t.entry ⟨.client, id⟩).filter (·.isLive now) =
    (t.liveClient now id).map fun r => ⟨.hash r.fields, r.deadline⟩ := by
  rw [entry, liveClient]
  cases (t .client).lookup id with
  | none => rfl
  | some r =>
      show Option.filter _ (some _) = Option.map _ (Option.filter _ (some r))
      rw [Option.filter_some, Option.filter_some, apply_ite (Option.map _)]
      rfl

/-- A record that is found, or a new one, has not expired. -/
lemma isLive_getD_liveClient : ((t.liveClient now id).getD {}).isLive now = true := by
  cases h : t.liveClient now id with
  | none => rfl
  | some r => exact (Option.filter_eq_some_iff.mp h).2

lemma liveClient_put_self {r : ClientRecord} (h : r.isLive now = true) :
    (t.put .client id r).liveClient now id = some r := by
  rw [liveClient, put, update_self, Finmap.lookup_insert]
  exact Option.filter_some_pos h

lemma clientIds_put {F : KeyFamily} (h : .clients ≠ F) (i : String) (v : F.Value) :
    (t.put F i v).clientIds = t.clientIds := by
  rw [clientIds, t.put_of_ne h, clientIds]

lemma queueIds_put {F : KeyFamily} (h : .queues ≠ F) (i : String) (v : F.Value) :
    (t.put F i v).queueIds = t.queueIds := by
  rw [queueIds, t.put_of_ne h, queueIds]

lemma clientIds_drop {F : KeyFamily} (h : .clients ≠ F) (i : String) :
    (t.drop F i).clientIds = t.clientIds := by
  rw [clientIds, t.drop_of_ne h, clientIds]

lemma queueIds_drop {F : KeyFamily} (h : .queues ≠ F) (i : String) :
    (t.drop F i).queueIds = t.queueIds := by
  rw [queueIds, t.drop_of_ne h, queueIds]

lemma clientIds_put_self (ids : Finset String) : (t.put .clients "" ids).clientIds = ids := by
  rw [clientIds, lookup_put, if_pos rfl]
  rfl

lemma queueIds_put_self (ids : Finset String) : (t.put .queues "" ids).queueIds = ids := by
  rw [queueIds, lookup_put, if_pos rfl]
  rfl

end Tables

section Commands

variable (t : Tables) (now : ℕ)

/-- `SET` in a table of texts. -/
lemma does_set_table {F : KeyFamily} (i : String) {v : F.Value} {text : String}
    (h : F.render v = some ⟨.text text, none⟩) :
    Does RedisKey.text (set (RedisKey.mk F i).text text) t.entry (t.put F i v).entry := by
  rw [Tables.entry_put, h]
  exact does_set RedisKey.text_injective t.entry ⟨F, i⟩ text

/-- `DEL` in any table. -/
lemma does_del_table (F : KeyFamily) (i : String) :
    Does RedisKey.text (del (RedisKey.mk F i).text) t.entry (t.drop F i).entry := by
  rw [Tables.entry_drop]
  exact does_del RedisKey.text_injective t.entry ⟨F, i⟩

/-- `HSET` on the record of a client, which is a new one if there is none. -/
lemma does_hset_client (id : String) {field value : String} {r : ClientRecord}
    (hfields : r.fields = ((t.liveClient now id).getD {}).fields.insert field value)
    (hdeadline : r.deadline = ((t.liveClient now id).getD {}).deadline) :
    Does RedisKey.text (hset now (clientKey id) field value) t.entry
      (t.put .client id r).entry := by
  have hfind := t.filter_entry_client now id
  rw [Tables.entry_put, KeyFamily.render, hfields, hdeadline]
  cases hlive : t.liveClient now id with
  | none =>
      rw [hlive] at hfind
      exact does_hset_new RedisKey.text_injective hfind field value
  | some r' =>
      rw [hlive] at hfind
      exact does_hset RedisKey.text_injective hfind field value

/-- `EXPIRE` on the record of a client that is there. -/
lemma does_expire_client (id : String) (ttl : ℕ) {r : ClientRecord}
    (h : t.liveClient now id = some r) :
    Does RedisKey.text (expire now (clientKey id) ttl) t.entry
      (t.put .client id { r with deadline := some (now + 1000 * ttl) }).entry := by
  have hfind := t.filter_entry_client now id
  rw [h] at hfind
  rw [Tables.entry_put]
  exact does_expire RedisKey.text_injective hfind ttl

lemma does_sadd_clients (id : String) :
    Does RedisKey.text (sadd now clientsKey id) t.entry
      (t.put .clients "" (insert id t.clientIds)).entry := by
  rw [Tables.entry_put]
  exact does_sadd RedisKey.text_injective t.entry_clients id

lemma does_srem_clients (id : String) :
    Does RedisKey.text (srem now clientsKey id) t.entry
      (t.put .clients "" (t.clientIds.erase id)).entry := by
  rw [Tables.entry_put]
  exact does_srem RedisKey.text_injective t.entry_clients id

lemma does_sadd_queues (id : String) :
    Does RedisKey.text (sadd now queuesKey id) t.entry
      (t.put .queues "" (insert id t.queueIds)).entry := by
  rw [Tables.entry_put]
  exact does_sadd RedisKey.text_injective t.entry_queues id

lemma does_srem_queues (id : String) :
    Does RedisKey.text (srem now queuesKey id) t.entry
      (t.put .queues "" (t.queueIds.erase id)).entry := by
  rw [Tables.entry_put]
  exact does_srem RedisKey.text_injective t.entry_queues id

/-- The entry for a queue. -/
lemma entry_queue (id : String) :
    t.entry ⟨.queue, id⟩ = ((t .queue).lookup id).map fun xs => ⟨.list xs, none⟩ := by
  rw [Tables.entry]
  cases (t .queue).lookup id with
  | none => rfl
  | some xs => rfl

lemma does_rpush_queue (id json : String) :
    Does RedisKey.text (rpush now (queueKey id) json) t.entry
      (t.put .queue id (t.waiting id ++ [json])).entry := by
  rw [Tables.entry_put]
  exact does_rpush RedisKey.text_injective (entry_queue t id) json

end Commands

/-! ### Calls that write -/

section Calls

variable (t : Tables) (now : Fin (2 ^ 63))

lemma does_registerClient (id token : String) (ttl : ℕ) :
    Does RedisKey.text (RedisRealm.registerClient now id token ttl) t.entry
      ((t.put .client id ⟨some token, some now.val, some (now.val + 1000 * ttl)⟩).put .clients ""
        (insert id t.clientIds)).entry := by
  set r := (t.liveClient now id).getD {}
  have hlive : r.isLive now = true := t.isLive_getD_liveClient now id
  -- the record after the two `HSET`s has not expired, so that `EXPIRE` finds it
  set t₁ := t.put .client id { r with token := some token }
  have hlive₁ : t₁.liveClient now id = some { r with token := some token } :=
    t.liveClient_put_self now id hlive
  set t₂ := t₁.put .client id { r with token := some token, lastPing := some now.val } with ht₂
  have hlive₂ : t₂.liveClient now id = some { r with token := some token, lastPing := some now.val } :=
    t₁.liveClient_put_self now id hlive
  have hids : t₂.clientIds = t.clientIds := by
    rw [ht₂, Tables.clientIds_put _ (by decide), Tables.clientIds_put _ (by decide)]
  have hlive₃ : (t₂.put .clients "" (insert id t₂.clientIds)).liveClient now id =
      some { r with token := some token, lastPing := some now.val } := by
    rw [← hlive₂, Tables.liveClient, Tables.put, update_of_ne (by decide), Tables.liveClient]
  have hend : (t₂.put .clients "" (insert id t₂.clientIds)).put .client id
      ⟨some token, some now.val, some (now.val + 1000 * ttl)⟩ =
      (t.put .client id ⟨some token, some now.val, some (now.val + 1000 * ttl)⟩).put .clients ""
        (insert id t.clientIds) := by
    rw [hids, Tables.put_comm _ (by decide), ht₂, Tables.put_put, Tables.put_put]
  have hfirst : Does RedisKey.text (hset now (clientKey id) "token" token) t.entry t₁.entry :=
    does_hset_client t now id (ClientRecord.fields_token r token) rfl
  have hsecond : Does RedisKey.text (hset now (clientKey id) "last_ping" now.val.repr) t₁.entry
      t₂.entry := by
    refine does_hset_client t₁ now id ?_ ?_
    · rw [hlive₁]
      exact ClientRecord.fields_lastPing { r with token := some token } now
    · rw [hlive₁]
      rfl
  rw [← hend]
  exact Does.cons hfirst (Does.cons hsecond (Does.cons (does_sadd_clients t₂ now id)
    (Does.cons (does_expire_client _ now id ttl hlive₃) (Does.nil _))))

lemma does_setLastPing (id : String) (ttl : ℕ) :
    Does RedisKey.text (RedisRealm.setLastPing now id ttl) t.entry
      (t.put .client id ⟨(t.liveClient now id).bind ClientRecord.token, some now.val,
        some (now.val + 1000 * ttl)⟩).entry := by
  set r := (t.liveClient now id).getD {} with hr
  have hlive : r.isLive now = true := t.isLive_getD_liveClient now id
  have htoken : (t.liveClient now id).bind ClientRecord.token = r.token := by
    rw [hr]
    cases t.liveClient now id with
    | none => rfl
    | some r => rfl
  have hlive₁ : (t.put .client id { r with lastPing := some now.val }).liveClient now id =
      some { r with lastPing := some now.val } := t.liveClient_put_self now id hlive
  have hfirst : Does RedisKey.text (hset now (clientKey id) "last_ping" now.val.repr) t.entry
      (t.put .client id { r with lastPing := some now.val }).entry :=
    does_hset_client t now id (ClientRecord.fields_lastPing r now) rfl
  rw [htoken, ← t.put_put .client id { r with lastPing := some now.val }]
  exact Does.cons hfirst (Does.cons (does_expire_client _ now id ttl hlive₁) (Does.nil _))

lemma does_removeClient (id : String) :
    Does RedisKey.text (RedisRealm.removeClient now id) t.entry
      ((t.drop .client id).put .clients "" (t.clientIds.erase id)).entry := by
  have hids : (t.drop .client id).clientIds = t.clientIds := t.clientIds_drop (by decide) id
  rw [← hids]
  exact Does.cons (does_del_table t .client id)
    (Does.cons (does_srem_clients _ now id) (Does.nil _))

lemma does_addMessageToQueue (id json : String) :
    Does RedisKey.text (RedisRealm.addMessageToQueue now id json) t.entry
      (((t.put .queue id (t.waiting id ++ [json])).put .queueMeta id now).put .queues ""
        (insert id t.queueIds)).entry := by
  have hids : ((t.put .queue id (t.waiting id ++ [json])).put .queueMeta id now).queueIds =
      t.queueIds := by
    rw [Tables.queueIds_put _ (by decide), Tables.queueIds_put _ (by decide)]
  rw [← hids]
  exact Does.cons (does_rpush_queue t now id json) (Does.cons (does_set_table _ id rfl)
    (Does.cons (does_sadd_queues _ now id) (Does.nil _)))

lemma does_clearMessageQueue (id : String) :
    Does RedisKey.text (RedisRealm.clearMessageQueue now id) t.entry
      (((t.drop .queue id).drop .queueMeta id).put .queues "" (t.queueIds.erase id)).entry := by
  have hids : ((t.drop .queue id).drop .queueMeta id).queueIds = t.queueIds := by
    rw [Tables.queueIds_drop _ (by decide), Tables.queueIds_drop _ (by decide)]
  rw [← hids]
  exact Does.cons (does_del_table t .queue id) (Does.cons (does_del_table _ .queueMeta id)
    (Does.cons (does_srem_queues _ now id) (Does.nil _)))

/-- A `SET` or `DEL` of an optional key. -/
lemma Does.toList {f f' : RedisKey → Option Entry} {email : Option String}
    {command : String → Db → Db × Option Unit} (hsome : ∀ e ∈ email, Does RedisKey.text (command e) f f')
    (hnone : email = none → f' = f) :
    Does RedisKey.text (pipeline (email.map command).toList) f f' := by
  cases email with
  | none =>
      rw [hnone rfl]
      exact Does.nil f
  | some e => exact Does.cons (hsome e rfl) (Does.nil f')

lemma does_createTenant (codec : Codec Tenant) (order : SetOrder String) (tenant : Tenant)
    (hash : String) :
    Does RedisKey.text (RedisRealm.createTenant codec tenant hash) t.entry
      ((StoreCall.createTenant tenant hash).onTables codec order now t).1.entry := by
  refine Does.cons (does_set_table t hash rfl) (Does.cons (does_set_table _ tenant.id rfl) ?_)
  rw [StoreCall.onTables]
  refine Does.toList (fun email hemail => ?_) fun hemail => ?_
  · rw [Option.mem_def] at hemail
    rw [hemail]
    exact does_set_table _ (emailKey email) rfl
  · rw [hemail]

lemma does_dropTenant (id hash : String) (email : Option String) :
    Does RedisKey.text (pipeline ([del (keyByHash hash), del (keyById id)] ++
        (email.map fun email => del (keyByEmail email)).toList)) t.entry
      (match email with
        | some email => ((t.drop .tenantKey hash).drop .tenantId id).drop .tenantEmail (emailKey email)
        | none => (t.drop .tenantKey hash).drop .tenantId id).entry := by
  refine Does.cons (does_del_table t .tenantKey hash) (Does.cons (does_del_table _ .tenantId id) ?_)
  refine Does.toList (fun e hemail => ?_) fun hemail => ?_
  · rw [Option.mem_def] at hemail
    rw [hemail]
    exact does_del_table _ .tenantEmail (emailKey e)
  · rw [hemail]

end Calls

/-! ### Reads -/

section Reads

variable {db : Db} {t : Tables} (h : StoredAs db t) (now : ℕ)

include h

/-- `GET` in a table of texts. -/
lemma StoredAs.get_eq {F : KeyFamily} {text : F.Value → String}
    (hrender : ∀ v, F.render v = some ⟨.text (text v), none⟩) (i : String) :
    get db now (RedisKey.mk F i).text = some (((t F).lookup i).map text) := by
  refine Holds.get_eq h ?_
  rw [Tables.entry]
  dsimp only
  cases (t F).lookup i with
  | none => rfl
  | some v => exact hrender v

lemma StoredAs.get_hash (hash : String) :
    get db now (keyByHash hash) = some ((t .tenantKey).lookup hash) :=
  (StoredAs.get_eq h now (F := .tenantKey) (fun _ => rfl) hash).trans (congrArg some Option.map_id')

lemma StoredAs.get_id (id : String) : get db now (keyById id) = some ((t .tenantId).lookup id) :=
  (StoredAs.get_eq h now (F := .tenantId) (fun _ => rfl) id).trans (congrArg some Option.map_id')

lemma StoredAs.get_email (index : String) :
    get db now (RedisKey.mk .tenantEmail index).text = some ((t .tenantEmail).lookup index) :=
  (StoredAs.get_eq h now (F := .tenantEmail) (fun _ => rfl) index).trans
    (congrArg some Option.map_id')

lemma StoredAs.fetchByHash (codec : Codec Tenant) (hash : String) :
    RedisRealm.fetchByHash codec db now hash = some (t.tenantByHash codec hash) := by
  rw [RedisRealm.fetchByHash, h.get_hash now hash]
  rfl

lemma StoredAs.clientExists (id : String) :
    RedisRealm.clientExists db now id = some (decide (id ∈ t.clientIds)) := by
  rw [RedisRealm.clientExists, show smembers db now clientsKey = some t.clientIds from
    Holds.smembers_eq h t.entry_clients]
  rfl

lemma StoredAs.getClientToken (id : String) : RedisRealm.getClientToken db now id =
    some ((t.liveClient now id).bind ClientRecord.token) := by
  have hfind : find db now (clientKey id) =
      (t.liveClient now id).map fun r => ⟨.hash r.fields, r.deadline⟩ :=
    (Holds.find_eq h now ⟨.client, id⟩).trans (t.filter_entry_client now id)
  rw [RedisRealm.getClientToken, hget, Keyspace.read, hfind]
  cases t.liveClient now id with
  | none => rfl
  | some r =>
      refine congrArg some ?_
      show r.fields.lookup "token" = r.token
      rw [ClientRecord.fields, FinMap.lookup_insertOpt, if_neg (by decide), FinMap.lookup_insertOpt,
        if_pos rfl]
      exact Option.or_none

lemma StoredAs.generateClientId (uuids : List String) : RedisRealm.generateClientId db now uuids =
    some (uuids.find? fun id => decide (id ∉ t.clientIds)) :=
  RedisRealm.generateClientId_eq (Holds.smembers_eq h t.entry_clients) uuids

lemma StoredAs.getQueueLastReadAt (id : String) : RedisRealm.getQueueLastReadAt db now id =
    some (((t .queueMeta).lookup id).map fun readAt => (readAt.val : ℤ)) := by
  rw [RedisRealm.getQueueLastReadAt, queueMetaKey, StoredAs.get_eq h now (F := .queueMeta) fun _ => rfl]
  cases (t .queueMeta).lookup id with
  | none => rfl
  | some readAt => exact congrArg some (parseI64_repr readAt.isLt)

/-- `KEYS` with the start of a kind of keys whose values are there at all times. -/
lemma StoredAs.keysWith_eq {F : KeyFamily} {text : F.Value → String}
    (hrender : ∀ v, F.render v = some ⟨.text (text v), none⟩) :
    keysWith db now F.start = (t F).keys.map ⟨fun i => (RedisKey.mk F i).text,
      LeftInverse.injective F.indexOf_text⟩ := by
  have hfind : ∀ i, find db now (RedisKey.mk F i).text =
      ((t F).lookup i).map fun v => ⟨.text (text v), none⟩ := by
    intro i
    rw [Holds.find_eq h now, Tables.entry]
    dsimp only
    cases (t F).lookup i with
    | none => rfl
    | some v =>
        rw [Option.bind_some, hrender v]
        rfl
  ext key
  rw [keysWith, Finset.mem_filter, Finset.mem_map]
  constructor
  · rintro ⟨-, hsome, rest, hrest⟩
    have hkey : key = (RedisKey.mk F (String.ofList rest)).text := by
      refine String.ext ?_
      rw [RedisKey.text, String.toList_append, String.toList_ofList, hrest]
    refine ⟨String.ofList rest, ?_, hkey.symm⟩
    rw [hkey, hfind, Option.isSome_map] at hsome
    exact Finmap.mem_keys.mpr (Finmap.lookup_isSome.mp hsome)
  · rintro ⟨i, hi, rfl⟩
    have hsome : ((t F).lookup i).isSome := Finmap.lookup_isSome.mpr (Finmap.mem_keys.mp hi)
    have hthere : (find db now (RedisKey.mk F i).text).isSome := by
      rwa [hfind, Option.isSome_map]
    refine ⟨?_, hthere, ?_⟩
    · obtain ⟨e, he⟩ := Option.isSome_iff_exists.mp hthere
      exact Finmap.mem_keys.mpr (Finmap.lookup_isSome.mp
        (Option.isSome_of_mem (Option.filter_eq_some_iff.mp he).1))
    · rw [Embedding.coeFn_mk, RedisKey.text, String.toList_append]
      exact List.prefix_append _ _

lemma StoredAs.listTenants (codec : Codec Tenant) (order : SetOrder String) :
    RedisRealm.listTenants codec order db now =
      ((KeyFamily.tenantKey.order order).toList (t .tenantKey).keys).filterMap
        (t.tenantByHash codec) := by
  have hkeys := StoredAs.keysWith_eq h now (F := .tenantKey) fun _ => rfl
  set keys := order.toList (keysWith db now KeyFamily.tenantKey.start) with hdef
  have hmget : mget db now keys = keys.map fun key =>
      (t .tenantKey).lookup (KeyFamily.tenantKey.indexOf key) := by
    refine List.map_congr_left fun key hkey => ?_
    rw [hdef, order.mem_toList, hkeys] at hkey
    obtain ⟨i, -, rfl⟩ := Finset.mem_map.mp hkey
    rw [Embedding.coeFn_mk, KeyFamily.indexOf_text, Holds.find_eq h now, Tables.entry]
    cases (t .tenantKey).lookup i with
    | none => rfl
    | some blob => rfl
  have hlist : (KeyFamily.tenantKey.order order).toList (t .tenantKey).keys =
      keys.map KeyFamily.tenantKey.indexOf := by
    rw [hdef, hkeys]
    rfl
  rw [RedisRealm.listTenants, ← hdef, hlist, hmget, List.filterMap_map, List.filterMap_map,
    List.filterMap_filterMap]
  split_ifs with hempty
  · rw [List.isEmpty_iff.mp hempty]
    rfl
  · rfl

end Reads

/-! ### Every call -/

/-- A write that succeeds. -/
lemma Does.stored {command : Db → Db × Option Unit} {db : Db} {t t' : Tables} (h : StoredAs db t)
    (hdoes : Does RedisKey.text command t.entry t'.entry) :
    StoredAs (command db).1 t' ∧ (command db).2 = some () :=
  hdoes db h

section Steps

variable (codec : Codec Tenant) (order : SetOrder String) (now : Fin (2 ^ 63)) {db : Db} {t : Tables}

lemma stored_updateTenant (h : StoredAs db t) (tenant : Tenant) :
    let r := (StoreCall.updateTenant tenant).run codec order now db
    let r' := (StoreCall.updateTenant tenant).onTables codec order now t
    StoredAs r.1 r'.1 ∧ r.2 = some r'.2 := by
  simp only [StoreCall.run, StoreCall.onTables, RedisRealm.updateTenant, h.get_id now]
  cases (t .tenantId).lookup tenant.id with
  | none => exact ⟨h, rfl⟩
  | some hash => exact ⟨(Does.stored h (does_set_table t hash rfl)).1, rfl⟩

lemma stored_rotateApiKey (h : StoredAs db t) (id newHash : String) :
    let r := (StoreCall.rotateApiKey id newHash).run codec order now db
    let r' := (StoreCall.rotateApiKey id newHash).onTables codec order now t
    StoredAs r.1 r'.1 ∧ r.2 = some r'.2 := by
  simp only [StoreCall.run, StoreCall.onTables, RedisRealm.rotateApiKey, h.get_id now]
  cases (t .tenantId).lookup id with
  | none => exact ⟨h, rfl⟩
  | some oldHash =>
      dsimp only
      rw [h.fetchByHash now codec]
      cases t.tenantByHash codec oldHash with
      | none => exact ⟨h, rfl⟩
      | some tenant =>
          have hdoes := Does.stored h (Does.cons
            (does_set_table (F := .tenantKey) (v := codec.render tenant) t newHash rfl) (Does.cons
            (does_set_table (F := .tenantId) (v := newHash) _ id rfl)
            (Does.cons (does_del_table _ .tenantKey oldHash) (Does.nil _))))
          exact ⟨hdoes.1, congrArg (Option.map StoreAnswer.flag)
            (congrArg (Option.map fun _ => true) hdoes.2)⟩

lemma stored_deleteTenant (h : StoredAs db t) (id : String) :
    let r := (StoreCall.deleteTenant id).run codec order now db
    let r' := (StoreCall.deleteTenant id).onTables codec order now t
    StoredAs r.1 r'.1 ∧ r.2 = some r'.2 := by
  simp only [StoreCall.run, StoreCall.onTables, RedisRealm.deleteTenant, h.get_id now]
  cases (t .tenantId).lookup id with
  | none => exact ⟨h, rfl⟩
  | some hash =>
      dsimp only
      rw [h.fetchByHash now codec]
      dsimp only
      have hdoes := Does.stored h
        (does_dropTenant t id hash ((t.tenantByHash codec hash).bind Tenant.email))
      rw [hdoes.2]
      cases hemail : (t.tenantByHash codec hash).bind Tenant.email with
      | none =>
          rw [hemail] at hdoes
          exact ⟨hdoes.1, rfl⟩
      | some email =>
          rw [hemail] at hdoes
          exact ⟨hdoes.1, rfl⟩

lemma stored_getTenantById (h : StoredAs db t) (id : String) :
    RedisRealm.getTenantById codec db now id =
      some (((t .tenantId).lookup id).bind (t.tenantByHash codec)) := by
  rw [RedisRealm.getTenantById, h.get_id now]
  cases (t .tenantId).lookup id with
  | none => rfl
  | some hash => exact h.fetchByHash now codec hash

/-- The slot is free when no cooldown is there. -/
lemma stored_acquireNoAccountSlot (h : StoredAs db t) (email : String) :
    let r := (StoreCall.acquireNoAccountSlot email).run codec order now db
    let r' := (StoreCall.acquireNoAccountSlot email).onTables codec order now t
    StoredAs r.1 r'.1 ∧ r.2 = some r'.2 := by
  have hfind : (find db now (noAccountKey email)).isSome =
      ((t .noAccount).lookup (lowercase email)).any fun ends => decide (now.val < ends) := by
    rw [noAccountKey, Holds.find_eq h now, Tables.entry]
    dsimp only
    cases (t .noAccount).lookup (lowercase email) with
    | none => rfl
    | some ends =>
        show (Option.filter _ (some _)).isSome = decide (now.val < ends)
        rw [Option.filter_some]
        by_cases hlt : now.val < ends <;> simp [Entry.isLive, hlt]
  simp only [StoreCall.run, StoreCall.onTables, RedisRealm.acquireNoAccountSlot, setNxEx, hfind]
  split_ifs with hbusy
  · exact ⟨h, rfl⟩
  · refine ⟨?_, rfl⟩
    have hins := Holds.insert RedisKey.text_injective h ⟨.noAccount, lowercase email⟩
      ⟨.text "1", some (now.val + 1000 * (10 * 60))⟩
    rw [StoredAs, Tables.entry_put]
    exact hins

/-- One call on the database does what it does on the tables, and gives the same answer. In
particular it does not fail. -/
lemma stored_run (h : StoredAs db t) (call : StoreCall) :
    StoredAs (call.run codec order now db).1 (call.onTables codec order now t).1 ∧
      (call.run codec order now db).2 = some (call.onTables codec order now t).2 := by
  cases call with
  | registerClient id token ttl =>
      obtain ⟨hdb, hok⟩ := Does.stored h (does_registerClient t now id token ttl)
      exact ⟨hdb, congrArg (Option.map _) hok⟩
  | removeClient id =>
      obtain ⟨hdb, hok⟩ := Does.stored h (does_removeClient t now id)
      exact ⟨hdb, congrArg (Option.map _) hok⟩
  | clientExists id => exact ⟨h, congrArg (Option.map _) (h.clientExists now id)⟩
  | getClientToken id => exact ⟨h, congrArg (Option.map _) (h.getClientToken now id)⟩
  | setLastPing id ttl =>
      obtain ⟨hdb, hok⟩ := Does.stored h (does_setLastPing t now id ttl)
      exact ⟨hdb, congrArg (Option.map _) hok⟩
  | getAllClientIds =>
      exact ⟨h, congrArg (Option.map _) (Holds.smembers_eq h t.entry_clients)⟩
  | generateClientId uuids =>
      exact ⟨h, congrArg (Option.map _) (h.generateClientId now uuids)⟩
  | addMessageToQueue id json =>
      obtain ⟨hdb, hok⟩ := Does.stored h (does_addMessageToQueue t now id json)
      exact ⟨hdb, congrArg (Option.map _) hok⟩
  | readAllMessages id =>
      obtain ⟨hdb, -⟩ := Does.stored h (does_set_table (F := .queueMeta) (v := now) t id rfl)
      have hlist : lrange (set (queueMetaKey id) now.val.repr db).1 now (queueKey id) =
          some (t.waiting id) := Holds.lrange_eq hdb (entry_queue _ id)
      have hanswer : (RedisRealm.readAllMessages now id db).2 = some (t.waiting id) := hlist
      exact ⟨hdb, congrArg (Option.map StoreAnswer.texts) hanswer⟩
  | clearMessageQueue id =>
      obtain ⟨hdb, hok⟩ := Does.stored h (does_clearMessageQueue t now id)
      exact ⟨hdb, congrArg (Option.map _) hok⟩
  | getClientIdsWithQueue =>
      exact ⟨h, congrArg (Option.map _) (Holds.smembers_eq h t.entry_queues)⟩
  | getQueueLastReadAt id => exact ⟨h, congrArg (Option.map _) (h.getQueueLastReadAt now id)⟩
  | fetchByHash hash => exact ⟨h, congrArg (Option.map _) (h.fetchByHash now codec hash)⟩
  | createTenant tenant hash =>
      obtain ⟨hdb, hok⟩ := Does.stored h (does_createTenant t now codec order tenant hash)
      refine ⟨hdb, (congrArg (Option.map _) hok).trans ?_⟩
      rw [StoreCall.onTables]
      cases tenant.email with
      | none => rfl
      | some email => rfl
  | updateTenant tenant => exact stored_updateTenant codec order now h tenant
  | getTenantIdByEmail email =>
      exact ⟨h, congrArg (Option.map StoreAnswer.text) (StoredAs.get_email h now (emailKey email))⟩
  | getTenantById id => exact ⟨h, congrArg (Option.map _) (stored_getTenantById codec now h id)⟩
  | rotateApiKey id newHash => exact stored_rotateApiKey codec order now h id newHash
  | deleteTenant id => exact stored_deleteTenant codec order now h id
  | listTenants => exact ⟨h, congrArg (some ∘ StoreAnswer.tenants) (h.listTenants now codec order)⟩
  | acquireNoAccountSlot email => exact stored_acquireNoAccountSlot codec order now h email

end Steps

/-! ### Sequences of calls -/

/-- A call, with the time, an `i64` of milliseconds, and the order in which Redis lists
keys. -/
structure TimedCall where
  now : Fin (2 ^ 63)
  order : SetOrder String
  call : StoreCall

/-- Numerals are such times. -/
instance neZero_i64 : NeZero (2 ^ 63 : ℕ) := ⟨by decide⟩

/-- Calls one after the other on the database, with their answers. -/
def runDb (codec : Codec Tenant) : Db → List TimedCall → Db × List (Option StoreAnswer)
  | db, [] => (db, [])
  | db, c :: cs =>
      let r := c.call.run codec c.order c.now db
      let rest := runDb codec r.1 cs
      (rest.1, r.2 :: rest.2)

/-- Calls one after the other on the tables, with their answers. -/
def runTables (codec : Codec Tenant) : Tables → List TimedCall → Tables × List StoreAnswer
  | t, [] => (t, [])
  | t, c :: cs =>
      let r := c.call.onTables codec c.order c.now t
      let rest := runTables codec r.1 cs
      (rest.1, r.2 :: rest.2)

/-- The database stands for the tables after any calls. -/
lemma stored_calls (codec : Codec Tenant) (calls : List TimedCall) {db : Db} {t : Tables}
    (h : StoredAs db t) : StoredAs (runDb codec db calls).1 (runTables codec t calls).1 := by
  induction calls generalizing db t with
  | nil => exact h
  | cons c cs ih => exact ih (stored_run codec c.order c.now h c.call).1

/-- The flat keyspace behaves as separate tables: whatever ids, tokens, texts, addresses and
hashes the calls bring, and whenever they come, every call succeeds and answers what the
tables say, and the database stands for the tables after it. -/
theorem flat_keyspace_refines (codec : Codec Tenant) (calls : List TimedCall) {db : Db} {t : Tables}
    (h : StoredAs db t) :
    StoredAs (runDb codec db calls).1 (runTables codec t calls).1 ∧
      (runDb codec db calls).2 = (runTables codec t calls).2.map some := by
  refine ⟨stored_calls codec calls h, ?_⟩
  induction calls generalizing db t with
  | nil => rfl
  | cons c cs ih =>
      obtain ⟨hdb, hanswer⟩ := stored_run codec c.order c.now h c.call
      have hanswers := ih hdb
      show (c.call.run codec c.order c.now db).2 :: (runDb codec _ cs).2 = _
      rw [hanswer, hanswers]
      rfl

/-- An empty database stands for empty tables. -/
lemma stored_empty : StoredAs ∅ fun _ => ∅ := fun _ => rfl

/-- A peer with the id `s` and a queue for the id `_meta:s`, whose keys start like
`peer:clients` and `peer:queue_meta:s`, beside the set and the time with these keys. -/
def lookalikes : List TimedCall :=
  [.registerClient "s" "token" 60, .addMessageToQueue "_meta:s" "null", .readAllMessages "s",
    .getClientToken "s", .getClientIdsWithQueue].map
    (⟨1000, SetOrder.sorted String, ·⟩)

/-- Texts that are never read back. -/
def Codec.blank : Codec Tenant := ⟨fun _ => "null", fun _ => none⟩

theorem flat_keyspace_refines_lookalikes :
    StoredAs (runDb Codec.blank ∅ lookalikes).1 (runTables Codec.blank (fun _ => ∅) lookalikes).1 ∧
      (runDb Codec.blank ∅ lookalikes).2 =
        (runTables Codec.blank (fun _ => ∅) lookalikes).2.map some :=
  flat_keyspace_refines Codec.blank lookalikes stored_empty

end Dendri
