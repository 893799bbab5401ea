import Dendri.Lib.Keyspace
import Dendri.Server.Tenant

/-!
The Redis side of the server: `redis_realm.rs`, the storage functions of
`tenant.rs` and the cooldown of `handlers/customer.rs`, as commands on the one flat
keyspace they all share.

* `KeyFamily`, `RedisKey`: the nine kinds of keys, and their texts. Clients choose
  ids, addresses and texts, so that nothing is assumed of the index of a key;
* `RedisKey.text_injective`: two keys have the same text only if they are the same;
* `RedisRealm`: the functions of the source, with the clock as an argument and
  `none` for a Redis error. A blob in Redis is a text; `Codec` is `serde_json`;
* `StoreCall`, `StoreCall.run`: any one of these functions, with its answer.
-/

namespace Dendri

open Keyspace

/-! ### Keys -/

/-- The kinds of keys. -/
inductive KeyFamily where
  | client | clients | queue | queueMeta | queues | tenantKey | tenantId | tenantEmail | noAccount
  deriving DecidableEq, Repr

/-- What the keys of a kind start with. -/
def KeyFamily.start : KeyFamily → String
  | client => "peer:client:"
  | clients => "peer:clients"
  | queue => "peer:queue:"
  | queueMeta => "peer:queue_meta:"
  | queues => "peer:queues"
  | tenantKey => "tenant:key:"
  | tenantId => "tenant:id:"
  | tenantEmail => "tenant:email:"
  | noAccount => "auth:no-account:"

/-- A key: its kind, and what follows. -/
structure RedisKey where
  family : KeyFamily
  index : String := ""
  deriving DecidableEq, Repr

/-- The text of a key, as the `format!` calls build it. -/
def RedisKey.text (k : RedisKey) : String := k.family.start ++ k.index

/-- No kind starts like another. -/
lemma KeyFamily.start_prefixFree (f g : KeyFamily) :
    f.start.toList <+: g.start.toList → f = g := by
  cases f <;> cases g <;> decide

/-- The text of a key determines its kind and its index, whatever the index is. -/
lemma RedisKey.text_injective : Function.Injective RedisKey.text := by
  rintro ⟨f, i⟩ ⟨g, j⟩ h
  have hlist : f.start.toList ++ i.toList = g.start.toList ++ j.toList := by
    simpa only [RedisKey.text, String.toList_append] using congrArg String.toList h
  have hfg : f = g := by
    rcases List.prefix_or_prefix_of_prefix (List.prefix_append f.start.toList i.toList)
        (hlist ▸ List.prefix_append g.start.toList j.toList) with hpre | hpre
    · exact KeyFamily.start_prefixFree f g hpre
    · exact (KeyFamily.start_prefixFree g f hpre).symm
  subst hfg
  have hij : i = j := String.ext (List.append_cancel_left hlist)
  rw [hij]

/-- `format!("peer:client:{id}")`. -/
def clientKey (id : String) : String := (RedisKey.mk .client id).text

/-- The set of all client ids. -/
def clientsKey : String := (RedisKey.mk .clients "").text

/-- `format!("peer:queue:{id}")`. -/
def queueKey (id : String) : String := (RedisKey.mk .queue id).text

/-- `format!("peer:queue_meta:{id}")`. -/
def queueMetaKey (id : String) : String := (RedisKey.mk .queueMeta id).text

/-- The set of the ids that have a queue. -/
def queuesKey : String := (RedisKey.mk .queues "").text

/-- `key_by_hash`. -/
def keyByHash (hash : String) : String := (RedisKey.mk .tenantKey hash).text

/-- `key_by_id`. -/
def keyById (id : String) : String := (RedisKey.mk .tenantId id).text

/-- `key_by_email`. -/
def keyByEmail (email : String) : String := (RedisKey.mk .tenantEmail (emailKey email)).text

/-- `to_ascii_lowercase` on an address. -/
def lowercase (email : String) : String := String.ofList (email.toList.map toAsciiLowercase)

/-- `no_account_cooldown_key`. -/
def noAccountKey (email : String) : String := (RedisKey.mk .noAccount (lowercase email)).text

/-! ### Texts of values -/

/-- `serde_json::to_string` and `serde_json::from_str` for one type. -/
structure Codec (α : Type) where
  render : α → String
  parse : String → Option α

/-- The digits of `str::parse`, one or more of them. -/
def parseDigits (ds : List Char) : Option ℕ :=
  if !ds.isEmpty && ds.all Char.isDigit then some (Nat.ofDigitChars 10 ds 0) else none

/-- `str::parse::<i64>`. -/
def parseI64 (s : String) : Option ℤ :=
  let value :=
    match s.toList with
    | '-' :: ds => (parseDigits ds).map fun n => -(n : ℤ)
    | '+' :: ds => (parseDigits ds).map fun n => (n : ℤ)
    | ds => (parseDigits ds).map fun n => (n : ℤ)
  value.filter fun n => decide (-2 ^ 63 ≤ n ∧ n < 2 ^ 63)

/-- A number below `2 ^ 63` is read back as it was written. -/
lemma parseI64_repr {n : ℕ} (h : n < 2 ^ 63) : parseI64 n.repr = some (n : ℤ) := by
  have hdigit : ∀ c ∈ Nat.toDigits 10 n, c.isDigit = true := fun c hc =>
    Nat.isDigit_of_mem_toDigits (by decide) (by decide) hc
  have hne : Nat.toDigits 10 n ≠ [] := Nat.toDigits_ne_nil
  have hparse : parseDigits (Nat.toDigits 10 n) = some n := by
    rw [parseDigits, if_pos, Nat.ofDigitChars_ten_toDigits]
    simp only [Bool.and_eq_true, Bool.not_eq_true', List.isEmpty_eq_false_iff, ne_eq, hne,
      not_false_eq_true, List.all_eq_true, true_and]
    exact hdigit
  have hvalue : (match Nat.toDigits 10 n with
      | '-' :: ds => (parseDigits ds).map fun n => -(n : ℤ)
      | '+' :: ds => (parseDigits ds).map fun n => (n : ℤ)
      | ds => (parseDigits ds).map fun n => (n : ℤ)) = some (n : ℤ) := by
    split
    · next ds heq => exact absurd (hdigit '-' (by rw [heq]; exact List.mem_cons_self)) (by decide)
    · next ds heq => exact absurd (hdigit '+' (by rw [heq]; exact List.mem_cons_self)) (by decide)
    · rw [hparse]
      rfl
  rw [parseI64, Nat.toList_repr, hvalue]
  refine Option.filter_some_pos ?_
  rw [decide_eq_true_eq]
  omega

namespace RedisRealm

/-! ### Clients -/

/-- `register_client`, with the result of `ttl_seconds`. -/
def registerClient (now : ℕ) (id token : String) (ttl : ℕ) : Db → Db × Option Unit :=
  pipeline [hset now (clientKey id) "token" token, hset now (clientKey id) "last_ping" now.repr,
    sadd now clientsKey id, expire now (clientKey id) ttl]

/-- `remove_client`. -/
def removeClient (now : ℕ) (id : String) : Db → Db × Option Unit :=
  pipeline [del (clientKey id), srem now clientsKey id]

/-- `client_exists`. -/
def clientExists (db : Db) (now : ℕ) (id : String) : Option Bool :=
  (smembers db now clientsKey).map fun ids => decide (id ∈ ids)

/-- `get_client_token`. -/
def getClientToken (db : Db) (now : ℕ) (id : String) : Option (Option String) :=
  hget db now (clientKey id) "token"

/-- `set_last_ping`, with the result of `ttl_seconds`. -/
def setLastPing (now : ℕ) (id : String) (ttl : ℕ) : Db → Db × Option Unit :=
  pipeline [hset now (clientKey id) "last_ping" now.repr, expire now (clientKey id) ttl]

/-- `get_all_client_ids`. -/
def getAllClientIds (db : Db) (now : ℕ) : Option (Finset String) := smembers db now clientsKey

/-- `generate_client_id`, with the ids that `Uuid::new_v4` gives in turn: the first one
that no client has, and nothing while there is none. -/
def generateClientId (db : Db) (now : ℕ) : List String → Option (Option String)
  | [] => some none
  | id :: ids =>
      match clientExists db now id with
      | none => none
      | some true => generateClientId db now ids
      | some false => some (some id)

/-- It looks the ids up in the set of all clients. -/
lemma generateClientId_eq {db : Db} {now : ℕ} {ids : Finset String}
    (h : getAllClientIds db now = some ids) (uuids : List String) :
    generateClientId db now uuids = some (uuids.find? fun id => decide (id ∉ ids)) := by
  induction uuids with
  | nil => rfl
  | cons id uuids ih =>
      have hexists : clientExists db now id = some (decide (id ∈ ids)) := by
        rw [clientExists, show smembers db now clientsKey = some ids from h]
        rfl
      rw [generateClientId, hexists, List.find?_cons]
      by_cases hid : id ∈ ids
      · simpa [hid] using ih
      · simp [hid]

/-! ### Message queues -/

/-- `add_message_to_queue`. -/
def addMessageToQueue (now : ℕ) (id json : String) : Db → Db × Option Unit :=
  pipeline [rpush now (queueKey id) json, set (queueMetaKey id) now.repr, sadd now queuesKey id]

/-- `read_all_messages`. -/
def readAllMessages (now : ℕ) (id : String) (db : Db) : Db × Option (List String) :=
  let (db, written) := set (queueMetaKey id) now.repr db
  (db, written.bind fun _ => lrange db now (queueKey id))

/-- `clear_message_queue`. -/
def clearMessageQueue (now : ℕ) (id : String) : Db → Db × Option Unit :=
  pipeline [del (queueKey id), del (queueMetaKey id), srem now queuesKey id]

/-- `get_client_ids_with_queue`. -/
def getClientIdsWithQueue (db : Db) (now : ℕ) : Option (Finset String) := smembers db now queuesKey

/-- `get_queue_last_read_at`. -/
def getQueueLastReadAt (db : Db) (now : ℕ) (id : String) : Option (Option ℤ) :=
  (get db now (queueMetaKey id)).map fun val => val.bind parseI64

/-! ### Tenants -/

section Tenants

variable (codec : Codec Tenant)

/-- `fetch_by_hash`. -/
def fetchByHash (db : Db) (now : ℕ) (hash : String) : Option (Option Tenant) :=
  (get db now (keyByHash hash)).map fun raw => raw.bind codec.parse

/-- `create_tenant`, with the hash of the key. -/
def createTenant (tenant : Tenant) (hash : String) : Db → Db × Option Unit :=
  pipeline ([set (keyByHash hash) (codec.render tenant), set (keyById tenant.id) hash] ++
    (tenant.email.map fun email => set (keyByEmail email) tenant.id).toList)

/-- `update_tenant`. -/
def updateTenant (now : ℕ) (tenant : Tenant) (db : Db) : Db × Option Bool :=
  match get db now (keyById tenant.id) with
  | none => (db, none)
  | some none => (db, some false)
  | some (some hash) =>
      let (db, written) := set (keyByHash hash) (codec.render tenant) db
      (db, written.map fun _ => true)

/-- `get_tenant_id_by_email`. -/
def getTenantIdByEmail (db : Db) (now : ℕ) (email : String) : Option (Option String) :=
  get db now (keyByEmail email)

/-- `get_tenant_by_id`. -/
def getTenantById (db : Db) (now : ℕ) (id : String) : Option (Option Tenant) :=
  match get db now (keyById id) with
  | none => none
  | some none => some none
  | some (some hash) => fetchByHash codec db now hash

/-- `rotate_api_key`, with the hash of the new key. The answer is whether there is a new
key. -/
def rotateApiKey (now : ℕ) (id newHash : String) (db : Db) : Db × Option Bool :=
  match get db now (keyById id) with
  | none => (db, none)
  | some none => (db, some false)
  | some (some oldHash) =>
      match fetchByHash codec db now oldHash with
      | none => (db, none)
      | some none => (db, some false)
      | some (some tenant) =>
          let (db, written) :=
            pipeline [set (keyByHash newHash) (codec.render tenant), set (keyById id) newHash,
              del (keyByHash oldHash)] db
          (db, written.map fun _ => true)

/-- `delete_tenant`. -/
def deleteTenant (now : ℕ) (id : String) (db : Db) : Db × Option Bool :=
  match get db now (keyById id) with
  | none => (db, none)
  | some none => (db, some false)
  | some (some hash) =>
      match fetchByHash codec db now hash with
      | none => (db, none)
      | some fetched =>
          let (db, written) :=
            pipeline ([del (keyByHash hash), del (keyById id)] ++
              ((fetched.bind Tenant.email).map fun email => del (keyByEmail email)).toList) db
          (db, written.map fun _ => true)

/-- `list_tenants`, with the order in which Redis lists the keys. -/
def listTenants (order : SetOrder String) (db : Db) (now : ℕ) : List Tenant :=
  let keys := order.toList (keysWith db now KeyFamily.tenantKey.start)
  if keys.isEmpty then [] else ((mget db now keys).filterMap id).filterMap codec.parse

end Tenants

/-! ### The cooldown -/

/-- `acquire_no_account_slot`, with `NO_ACCOUNT_COOLDOWN_SECS`. -/
def acquireNoAccountSlot (now : ℕ) (email : String) : Db → Db × Bool :=
  setNxEx now (noAccountKey email) "1" (10 * 60)

end RedisRealm

/-! ### Any call -/

/-- A call of one of the functions. -/
inductive StoreCall where
  | registerClient (id token : String) (ttl : ℕ)
  | removeClient (id : String)
  | clientExists (id : String)
  | getClientToken (id : String)
  | setLastPing (id : String) (ttl : ℕ)
  | getAllClientIds
  | generateClientId (uuids : List String)
  | addMessageToQueue (id json : String)
  | readAllMessages (id : String)
  | clearMessageQueue (id : String)
  | getClientIdsWithQueue
  | getQueueLastReadAt (id : String)
  | fetchByHash (hash : String)
  | createTenant (tenant : Tenant) (hash : String)
  | updateTenant (tenant : Tenant)
  | getTenantIdByEmail (email : String)
  | getTenantById (id : String)
  | rotateApiKey (id newHash : String)
  | deleteTenant (id : String)
  | listTenants
  | acquireNoAccountSlot (email : String)

/-- What a call answers. -/
inductive StoreAnswer where
  | done
  | flag (b : Bool)
  | text (s : Option String)
  | texts (l : List String)
  | ids (s : Finset String)
  | time (t : Option ℤ)
  | tenant (t : Option Tenant)
  | tenants (l : List Tenant)

/-- A call at the time `now`; its answer is `none` for a Redis error. -/
def StoreCall.run (codec : Codec Tenant) (order : SetOrder String) (now : ℕ) (db : Db) :
    StoreCall → Db × Option StoreAnswer
  | registerClient id token ttl =>
      let (db, r) := RedisRealm.registerClient now id token ttl db
      (db, r.map fun _ => .done)
  | removeClient id =>
      let (db, r) := RedisRealm.removeClient now id db
      (db, r.map fun _ => .done)
  | clientExists id => (db, (RedisRealm.clientExists db now id).map .flag)
  | getClientToken id => (db, (RedisRealm.getClientToken db now id).map .text)
  | setLastPing id ttl =>
      let (db, r) := RedisRealm.setLastPing now id ttl db
      (db, r.map fun _ => .done)
  | getAllClientIds => (db, (RedisRealm.getAllClientIds db now).map .ids)
  | generateClientId uuids => (db, (RedisRealm.generateClientId db now uuids).map .text)
  | addMessageToQueue id json =>
      let (db, r) := RedisRealm.addMessageToQueue now id json db
      (db, r.map fun _ => .done)
  | readAllMessages id =>
      let (db, r) := RedisRealm.readAllMessages now id db
      (db, r.map .texts)
  | clearMessageQueue id =>
      let (db, r) := RedisRealm.clearMessageQueue now id db
      (db, r.map fun _ => .done)
  | getClientIdsWithQueue => (db, (RedisRealm.getClientIdsWithQueue db now).map .ids)
  | getQueueLastReadAt id => (db, (RedisRealm.getQueueLastReadAt db now id).map .time)
  | fetchByHash hash => (db, (RedisRealm.fetchByHash codec db now hash).map .tenant)
  | createTenant tenant hash =>
      let (db, r) := RedisRealm.createTenant codec tenant hash db
      (db, r.map fun _ => .done)
  | updateTenant tenant =>
      let (db, r) := RedisRealm.updateTenant codec now tenant db
      (db, r.map .flag)
  | getTenantIdByEmail email => (db, (RedisRealm.getTenantIdByEmail db now email).map .text)
  | getTenantById id => (db, (RedisRealm.getTenantById codec db now id).map .tenant)
  | rotateApiKey id newHash =>
      let (db, r) := RedisRealm.rotateApiKey codec now id newHash db
      (db, r.map .flag)
  | deleteTenant id =>
      let (db, r) := RedisRealm.deleteTenant codec now id db
      (db, r.map .flag)
  | listTenants => (db, some (.tenants (RedisRealm.listTenants codec order db now)))
  | acquireNoAccountSlot email =>
      let (db, acquired) := RedisRealm.acquireNoAccountSlot now email db
      (db, some (.flag acquired))

end Dendri
