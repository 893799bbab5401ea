import Dendri.Lib.Transition
import Dendri.Services

/-!
The server as a transition system. A `World` is the shared state together with
every connection that was ever admitted; an `Event` is one handler, one
background pass or one thing that happens to a connection from outside, each
executed atomically. What the outside answers during the step is the `Env` of
its `Label`.

* `step`: the transition function; an event that is not enabled is `none`;
* `incoming`: the client and the message a step hands to the rate limiter;
* `cleanedUp`: the connection on whose behalf a step runs a disconnect
  cleanup;
* `Trans`, `step_trans`: what each kind of step does to the registry, to
  memberships and to the connections. Every invariant of these is proved from
  it;
* `Reacts`, `reacts_of_step`: the shared state after a step, for the invariants that
  look at the rest of it.
-/

namespace Dendri

open AppState

/-- The shared state, and all connections admitted so far. -/
structure World where
  app : AppState
  conns : List Conn

/-- What can happen. Connections are named by their position in `conns`. -/
inductive Event where
  /-- A connect request on one of the transports. -/
  | connect (r : Request)
  /-- A text frame on a WebSocket: its length and the message it parses to. -/
  | wsText (k : ℕ) (len : ℕ) (parsed : Option Message)
  /-- `POST /http/send`. -/
  | httpSend (id token : String) (parsed : Option Message)
  /-- A WebSocket's read loop ends. -/
  | wsClose (k : ℕ)
  /-- The receiving half of a connection's channel is dropped: a writer task
  ends, a client leaves its event stream, an abandoned poll receiver goes. -/
  | receiverDrop (k : ℕ)
  /-- The watchdog of an event stream wakes up. -/
  | watchdogTick (k : ℕ)
  /-- An event stream ends because its channel has no sender left. -/
  | streamEnd (k : ℕ)
  /-- A polling client stops. -/
  | pollEnd (k : ℕ)
  /-- The receiving task takes frames off a channel. -/
  | deliver (c n : ℕ)
  /-- The eviction loop of `check_broken`. -/
  | evictBroken
  /-- The reconciliation of `check_broken`. -/
  | reconcile
  /-- `cleanup_expired_sessions`. -/
  | expireSessions
  /-- A pass of `messages_expire`. -/
  | expireMessages
  /-- A pass of `replay_evict`. -/
  | evictReplay
  /-- Redis changes on its own: keys expire, other processes write. -/
  | redisChange (redis : Redis)

/-- An event, and what the outside answers while it is handled. -/
structure Label where
  env : Env
  event : Event

/-- The connection is no longer used by its client. -/
def Conn.close (K : Conn) : Conn := { K with isOpen := false }

/-- The watchdog task of an event stream ends. -/
def Conn.stopWatchdog (K : Conn) : Conn := { K with watchdog := false }

namespace World

variable (w : World)

/-- The open connection at a position, if it has the transport. -/
def openConn (k : ℕ) (transport : TransportKind) : Option Conn :=
  (w.conns[k]?).filter fun K => K.isOpen && decide (K.transport = transport)

/-- The stream whose watchdog finds its receiver dropped. -/
def droppedStream (k : ℕ) : Option Conn :=
  (w.conns[k]?).filter fun K => K.watchdog && (w.app.chans K.chan).closed

/-- The open stream whose channel has no sender left: the sender map has
another channel, or none, for its id, and its watchdog has ended. -/
def endedStream (k : ℕ) : Option Conn :=
  (w.openConn k .Sse).filter fun K =>
    !K.watchdog && decide (w.app.wsSenders.lookup K.id ≠ some K.chan)

end World

/-- The receiver of connection `k` is dropped. A polling receiver lives in the
shared map until it is replaced or removed. -/
def dropReceiver (w : World) (k : ℕ) : Option World :=
  (w.conns[k]?).bind fun K =>
    match K.transport with
    | .WebSocket => if K.isOpen then some { w with app := w.app.closeChannel K.chan } else none
    | .Sse =>
        if K.isOpen then some ⟨w.app.closeChannel K.chan, w.conns.modify k Conn.close⟩ else none
    | .Polling =>
        if w.app.pollingReceivers.lookup K.id = some K.chan then none
        else some { w with app := w.app.closeChannel K.chan }

/-- One tick of the watchdog of connection `k`. -/
def watchdogTick (env : Env) (cfg : Config) (w : World) (k : ℕ) : Option World :=
  match w.droppedStream k with
  | some K =>
      some ⟨cleanupClient env cfg w.app K.id, w.conns.modify k fun K => K.close.stopWatchdog⟩
  | none =>
      ((w.conns[k]?).filter Conn.watchdog).map fun K =>
        if (w.app.clients.lookup K.id).isNone then
          { w with conns := w.conns.modify k Conn.stopWatchdog }
        else w

/-- Frames are taken off the channel `c`. -/
def AppState.deliver (s : AppState) (c n : ℕ) : AppState :=
  { s with
    chans := fun i =>
      if i = c then { s.chans c with queue := (s.chans c).queue.drop n } else s.chans i }

/-- The transition function. -/
def step (cfg : Config) (w : World) (l : Label) : Option World :=
  match l.event with
  | .connect r =>
      match connect l.env cfg w.app r with
      | .rejected _ s => some { w with app := s }
      | .admitted K s => some ⟨s, w.conns ++ [K]⟩
  | .wsText k len parsed =>
      (w.openConn k .WebSocket).map fun K =>
        { w with app := wsText l.env cfg w.app K.chan K.id len parsed }
  | .httpSend id token parsed =>
      some { w with app := (sendHandler l.env cfg w.app id token parsed).1 }
  | .wsClose k =>
      (w.openConn k .WebSocket).map fun K =>
        ⟨closeSocket l.env cfg w.app K.id K.chan, w.conns.modify k Conn.close⟩
  | .receiverDrop k => dropReceiver w k
  | .watchdogTick k => watchdogTick l.env cfg w k
  | .streamEnd k =>
      (w.endedStream k).map fun K =>
        ⟨(cleanupClient l.env cfg w.app K.id).closeChannel K.chan, w.conns.modify k Conn.close⟩
  | .pollEnd k =>
      (w.openConn k .Polling).map fun _ => { w with conns := w.conns.modify k Conn.close }
  | .deliver c n => some { w with app := w.app.deliver c n }
  | .evictBroken => some { w with app := evictBroken l.env cfg w.app }
  | .reconcile => some { w with app := reconcile w.app }
  | .expireSessions => some { w with app := cleanupExpiredSessions l.env cfg w.app }
  | .expireMessages => some { w with app := messagesExpire l.env cfg w.app }
  | .evictReplay => some { w with app := replayEvict l.env w.app }
  | .redisChange redis => some { w with app := { w.app with redis := redis } }

/-- An empty server in front of a Redis database. -/
def World.init (cfg : Config) (redis : Redis) : World := ⟨AppState.new cfg redis, []⟩

/-- The label of an event during which the outside is quiet. -/
def quietly (ev : Event) : Label := ⟨Env.quiet 0, ev⟩

/-- A text frame with a message on connection `k`. -/
def Event.say (k : ℕ) (msg : Message) : Event := .wsText k 0 (some msg)

/-- A `ROOM-JOIN`. -/
def roomJoin (room : String) : Message := { type_ := .RoomJoin, room := some room }

/-- A Redis database without any key. -/
def Redis.empty : Redis := ⟨∅, ∅, ∅, ∅⟩

/-! ### What a step is about -/

/-- The client and the message that a step hands to the rate limiter. -/
def incoming (cfg : Config) (w : World) : Event → Option (String × Message)
  | .wsText k len parsed =>
      (w.openConn k .WebSocket).bind fun K =>
        if cfg.maxMessageSize < len then none else parsed.map fun msg => (K.id, msg)
  | .httpSend id token parsed =>
      ((w.app.clients.lookup id).filter fun client => decide (client.token = token)).bind fun _ =>
        parsed.map fun msg => (id, msg)
  | _ => none

/-- The event is a message on behalf of the connection `K`: a frame on its
WebSocket, or a `POST` with its id and token while it is open. -/
def Speaks (w : World) (K : Conn) : Event → Prop
  | .wsText k _ _ => w.openConn k .WebSocket = some K
  | .httpSend id token _ => K ∈ w.conns ∧ K.isOpen = true ∧ K.id = id ∧ K.token = token
  | _ => False

/-- The position of the connection on whose behalf a step runs a disconnect
cleanup that removes its id, and the connection. -/
def cleanedUp (w : World) : Event → Option (ℕ × Conn)
  | .wsClose k =>
      ((w.openConn k .WebSocket).filter fun K =>
        decide (w.app.wsSenders.lookup K.id = some K.chan)).map fun K => (k, K)
  | .watchdogTick k => (w.droppedStream k).map fun K => (k, K)
  | .streamEnd k => (w.endedStream k).map fun K => (k, K)
  | _ => none

lemma openConn_eq_some {w : World} {k : ℕ} {transport : TransportKind} {K : Conn}
    (h : w.openConn k transport = some K) :
    w.conns[k]? = some K ∧ K.isOpen = true ∧ K.transport = transport := by
  obtain ⟨hK, hflags⟩ := Option.filter_eq_some_iff.mp h
  rw [Bool.and_eq_true, decide_eq_true_eq] at hflags
  exact ⟨hK, hflags.1, hflags.2⟩

lemma message_of_say {cfg : Config} {w : World} {k : ℕ} {id : String} {msg msg' : Message}
    (h : incoming cfg w (.say k msg) = some (id, msg')) : msg = msg' := by
  obtain ⟨K, -, hK⟩ := Option.bind_eq_some_iff.mp h
  split_ifs at hK
  exact (Prod.mk.inj (Option.some.inj hK)).2

/-- A step that hands in a message is neither a cleanup, nor a connect, nor an
eviction pass. -/
lemma only_of_incoming {cfg : Config} {w : World} {ev : Event} {p : String × Message}
    (h : incoming cfg w ev = some p) :
    cleanedUp w ev = none ∧ (∀ r, ev ≠ .connect r) ∧ ev ≠ .evictBroken := by
  cases ev with
  | wsText k len parsed => exact ⟨rfl, by simp, by simp⟩
  | httpSend id token parsed => exact ⟨rfl, by simp, by simp⟩
  | _ => exact absurd h (by simp [incoming])

/-- A cleanup hands in no message, and is neither a connect nor an eviction
pass. -/
lemma only_of_cleanedUp (cfg : Config) {w : World} {ev : Event} {p : ℕ × Conn}
    (h : cleanedUp w ev = some p) :
    incoming cfg w ev = none ∧ (∀ r, ev ≠ .connect r) ∧ ev ≠ .evictBroken := by
  cases ev with
  | wsClose k => exact ⟨rfl, by simp, by simp⟩
  | watchdogTick k => exact ⟨rfl, by simp, by simp⟩
  | streamEnd k => exact ⟨rfl, by simp, by simp⟩
  | _ => exact absurd h (by simp [cleanedUp])

/-- A cleanup is on behalf of a connection that was admitted. -/
lemma conn_of_cleanedUp {w : World} {ev : Event} {k : ℕ} {K : Conn}
    (h : cleanedUp w ev = some (k, K)) : w.conns[k]? = some K := by
  cases ev with
  | wsClose j =>
      obtain ⟨K', hK', hpair⟩ := Option.map_eq_some_iff.mp h
      obtain ⟨rfl, rfl⟩ := Prod.mk.inj hpair
      exact (openConn_eq_some (Option.filter_eq_some_iff.mp hK').1).1
  | watchdogTick j =>
      obtain ⟨K', hK', hpair⟩ := Option.map_eq_some_iff.mp h
      obtain ⟨rfl, rfl⟩ := Prod.mk.inj hpair
      exact (Option.filter_eq_some_iff.mp hK').1
  | streamEnd j =>
      obtain ⟨K', hK', hpair⟩ := Option.map_eq_some_iff.mp h
      obtain ⟨rfl, rfl⟩ := Prod.mk.inj hpair
      exact (openConn_eq_some (Option.filter_eq_some_iff.mp hK').1).1
  | _ => exact absurd h (by simp [cleanedUp])

/-- A message on behalf of a connection comes in under its id, and the
connection is open. -/
lemma Speaks.incoming {cfg : Config} {w : World} {K : Conn} {ev : Event} {id : String}
    {msg : Message} (h : Speaks w K ev) (hin : incoming cfg w ev = some (id, msg)) :
    id = K.id ∧ K ∈ w.conns ∧ K.isOpen = true := by
  cases ev with
  | wsText k len parsed =>
      obtain ⟨hK, hopen, -⟩ := openConn_eq_some h
      have hbind : (w.openConn k .WebSocket).bind (fun K =>
          if cfg.maxMessageSize < len then none else parsed.map fun msg => (K.id, msg)) =
          some (id, msg) := hin
      rw [show w.openConn k .WebSocket = some K from h, Option.bind_some] at hbind
      split_ifs at hbind
      obtain ⟨msg', -, hpair⟩ := Option.map_eq_some_iff.mp hbind
      exact ⟨(Prod.mk.inj hpair).1.symm, List.mem_of_getElem? hK, hopen⟩
  | httpSend id' token parsed =>
      obtain ⟨hmem, hopen, hid, -⟩ := h
      obtain ⟨client, -, hmap⟩ := Option.bind_eq_some_iff.mp hin
      obtain ⟨msg', -, hpair⟩ := Option.map_eq_some_iff.mp hmap
      exact ⟨(Prod.mk.inj hpair).1.symm.trans hid.symm, hmem, hopen⟩
  | _ => exact False.elim h

/-! ### Connections over time -/

/-- `K'` is the connection `K` at a later time: only its flags may have been
lowered. -/
structure Conn.Later (K K' : Conn) : Prop where
  id : K'.id = K.id
  token : K'.token = K.token
  transport : K'.transport = K.transport
  tenant : K'.tenant = K.tenant
  claims : K'.claims = K.claims
  chan : K'.chan = K.chan
  isOpen : K'.isOpen = true → K.isOpen = true

lemma Conn.Later.refl (K : Conn) : K.Later K := ⟨rfl, rfl, rfl, rfl, rfl, rfl, fun h => h⟩

lemma Conn.later_close (K : Conn) : K.Later K.close :=
  ⟨rfl, rfl, rfl, rfl, rfl, rfl, fun h => absurd h (by simp [Conn.close])⟩

lemma Conn.later_stopWatchdog (K : Conn) : K.Later K.stopWatchdog :=
  ⟨rfl, rfl, rfl, rfl, rfl, rfl, fun h => h⟩

/-- The same connections at a later time. -/
structure ConnsLater (conns conns' : List Conn) : Prop where
  back : ∀ (j : ℕ) (K' : Conn), conns'[j]? = some K' → ∃ K : Conn, conns[j]? = some K ∧ K.Later K'
  forth : ∀ (j : ℕ) (K : Conn), conns[j]? = some K → ∃ K', conns'[j]? = some K' ∧ K.Later K'

lemma ConnsLater.refl (conns : List Conn) : ConnsLater conns conns :=
  ⟨fun _ K h => ⟨K, h, Conn.Later.refl K⟩, fun _ K h => ⟨K, h, Conn.Later.refl K⟩⟩

/-- Lowering the flags of one connection. -/
lemma ConnsLater.modify (conns : List Conn) (k : ℕ) {f : Conn → Conn}
    (hf : ∀ K : Conn, K.Later (f K)) :
    ConnsLater conns (conns.modify k f) := by
  constructor
  · intro j K' h
    rw [List.getElem?_modify] at h
    obtain ⟨K, hK, hK'⟩ := Option.map_eq_some_iff.mp h
    refine ⟨K, hK, ?_⟩
    rw [← hK']
    split_ifs
    · exact hf K
    · exact Conn.Later.refl K
  · intro j K h
    rw [List.getElem?_modify, h]
    refine ⟨_, rfl, ?_⟩
    dsimp only
    split_ifs
    · exact hf K
    · exact Conn.Later.refl K

/-- A connection that is open after position `k` was closed is at another
position, and was there before. -/
lemma open_of_modify {conns : List Conn} {j k : ℕ} {f : Conn → Conn} {K' : Conn}
    (hf : ∀ K : Conn, (f K).isOpen = false) (h : (conns.modify k f)[j]? = some K')
    (hopen : K'.isOpen = true) : j ≠ k ∧ conns[j]? = some K' := by
  rw [List.getElem?_modify] at h
  obtain ⟨K, hK, hK'⟩ := Option.map_eq_some_iff.mp h
  by_cases hjk : k = j
  · rw [if_pos hjk] at hK'
    rw [← hK', hf K] at hopen
    exact absurd hopen (by simp)
  · rw [if_neg hjk] at hK'
    exact ⟨fun h => hjk h.symm, by rw [hK, hK']⟩

/-- The connections of a world with one more. -/
lemma getElem?_append_singleton {conns : List Conn} {K K' : Conn} {j : ℕ}
    (h : (conns ++ [K])[j]? = some K') : conns[j]? = some K' ∨ K' = K := by
  rcases List.mem_append.mp (List.mem_of_getElem? h) with hold | hnew
  · rw [List.getElem?_append] at h
    split_ifs at h
    · exact Or.inl h
    · exact Or.inr (List.mem_singleton.mp (List.mem_of_getElem? h))
  · exact Or.inr (List.mem_singleton.mp hnew)

/-! ### What a step does -/

/-- The registry after a received message: its bucket is charged, and a client
may be dropped. -/
def Registry.afterMessage (env : Env) (s : AppState) (id : String) (msg : Message)
    (replay : ReplayBuffer Frame) : Registry :=
  { (s.registry.meter id msg.type_).dropIfAny
      (if allowed env id msg.type_ then removes s id msg else none) with replay := replay }

/-- What the removal of records leaves alone. -/
structure Registry.KeepsAuth (g g' : Registry) : Prop where
  claims : g'.claims = g.claims
  tenants : g'.tenants = g.tenants
  receivers : g'.receivers = g.receivers
  nextChan : g'.nextChan = g.nextChan

lemma Registry.keepsAuth_afterMessage (env : Env) (s : AppState) (id : String) (msg : Message)
    (replay : ReplayBuffer Frame) :
    s.registry.KeepsAuth (Registry.afterMessage env s id msg replay) := by
  have hmeter : s.registry.KeepsAuth (s.registry.meter id msg.type_) := by
    rw [Registry.meter]
    cases msg.type_.bucket with
    | none => exact ⟨rfl, rfl, rfl, rfl⟩
    | some bucket => exact ⟨rfl, rfl, rfl, rfl⟩
  rw [Registry.afterMessage]
  cases (if allowed env id msg.type_ = true then removes s id msg else none) with
  | none => exact ⟨hmeter.claims, hmeter.tenants, hmeter.receivers, hmeter.nextChan⟩
  | some removed => exact ⟨hmeter.claims, hmeter.tenants, hmeter.receivers, hmeter.nextChan⟩

lemma Registry.keepsAuth_foldl_drop (l : List String) (g : Registry) :
    g.KeepsAuth (l.foldl Registry.drop g) := by
  induction l generalizing g with
  | nil => exact ⟨rfl, rfl, rfl, rfl⟩
  | cons id l ih =>
      obtain ⟨hclaims, htenants, hreceivers, hchan⟩ := ih (g.drop id)
      exact ⟨hclaims, htenants, hreceivers, hchan⟩

/-- Who is registered after a list of removals, and with which sender. -/
lemma Registry.foldl_drop_drops (l : List String) (g : Registry) (x : String) :
    (x ∈ (l.foldl Registry.drop g).ids ↔ x ∈ g.ids ∧ x ∉ l) ∧
      (l.foldl Registry.drop g).senders.lookup x =
        (if x ∈ l then none else g.senders.lookup x) ∧
      (l.foldl Registry.drop g).buckets = g.buckets := by
  induction l generalizing g with
  | nil => simp
  | cons d l ih =>
      obtain ⟨hids, hsenders, hbuckets⟩ := ih (g.drop d)
      rw [List.foldl_cons, hids, hsenders, hbuckets]
      refine ⟨?_, ?_, rfl⟩
      · simp only [Registry.drop, Finset.mem_erase, List.mem_cons, not_or]
        tauto
      · simp only [Registry.drop, FinMap.lookup_erase_ite, List.mem_cons]
        by_cases hx : x = d
        · simp [hx]
        · simp [hx]

lemma Registry.replay_foldl_drop (l : List String) (g : Registry) :
    (l.foldl Registry.drop g).replay = g.replay := by
  induction l generalizing g with
  | nil => rfl
  | cons id l ih => exact ih (g.drop id)

/-- What a received message does. -/
structure Receives (env : Env) (cfg : Config) (s : AppState) (id : String) (msg : Message)
    (s' : AppState) : Prop where
  registry : s'.registry = Registry.afterMessage env s id msg s'.replayBuffer
  moves : s.ledger.Sound →
    Moves id (if allowed env id msg.type_ then joins cfg s id msg else none)
      (if allowed env id msg.type_ then leaves s id msg else none) s s'
  holds : ∀ k m, s'.replayBuffer.Holds k m → s.replayBuffer.Holds k m ∨
    (allowed env id msg.type_ = true ∧ bufferKey cfg s id msg = some k ∧
      ∃ out, m.data = .relay out ∧ out.type_ = .DATA ∧ out.room = msg.room ∧ out.dst = msg.dst)
  replay : msg.type_.isTransmission = true → s'.replayBuffer = s.replayBuffer

/-- The client a received message removes, if any. -/
def removal (env : Env) (s : AppState) (id : String) (msg : Message) : Option String :=
  if allowed env id msg.type_ then removes s id msg else none

/-- Who is registered after a message, and with which sender. -/
lemma afterMessage_drops (env : Env) (s : AppState) (id : String) (msg : Message)
    (replay : ReplayBuffer Frame) (x : String) :
    (x ∈ (Registry.afterMessage env s id msg replay).ids ↔
        x ∈ s.registry.ids ∧ removal env s id msg ≠ some x) ∧
      (Registry.afterMessage env s id msg replay).senders.lookup x =
        if removal env s id msg = some x then none else s.registry.senders.lookup x := by
  have hmeter : (s.registry.meter id msg.type_).ids = s.registry.ids ∧
      (s.registry.meter id msg.type_).senders = s.registry.senders := by
    rw [Registry.meter]
    cases msg.type_.bucket with
    | none => exact ⟨rfl, rfl⟩
    | some bucket => exact ⟨rfl, rfl⟩
  rw [Registry.afterMessage, ← removal]
  cases removal env s id msg with
  | none => simp [Registry.dropIfAny, hmeter.1, hmeter.2]
  | some d =>
      simp only [Registry.dropIfAny, Registry.drop, hmeter.1, hmeter.2, Finset.mem_erase,
        FinMap.lookup_erase_ite, Option.some.injEq, ne_eq, eq_comm (a := d)]
      exact ⟨and_comm, trivial⟩

/-- The buckets after a message: its sender's may be new. -/
lemma mem_buckets_afterMessage (env : Env) (s : AppState) (id : String) (msg : Message)
    (replay : ReplayBuffer Frame) (x bucket : String) :
    (x, bucket) ∈ (Registry.afterMessage env s id msg replay).buckets ↔
      (x, bucket) ∈ s.registry.buckets ∨ (x = id ∧ msg.type_.bucket = some bucket) := by
  have hdrop : (Registry.afterMessage env s id msg replay).buckets =
      (s.registry.meter id msg.type_).buckets := by
    rw [Registry.afterMessage]
    cases (if allowed env id msg.type_ = true then removes s id msg else none) with
    | none => rfl
    | some d => rfl
  rw [hdrop, Registry.meter]
  cases msg.type_.bucket with
  | none => simp
  | some b =>
      simp only [Registry.charge, Finset.mem_insert, Prod.mk.injEq, Option.some.injEq]
      rw [or_comm, eq_comm (a := b)]

namespace Receives

variable {env : Env} {cfg : Config} {s s' : AppState} {id : String} {msg : Message}

lemma mem_clients_iff (h : Receives env cfg s id msg s') (x : String) :
    x ∈ s'.clients.keys ↔ x ∈ s.clients.keys ∧ removal env s id msg ≠ some x := by
  have hx := (afterMessage_drops env s id msg s'.replayBuffer x).1
  rwa [← h.registry] at hx

lemma lookup_wsSenders (h : Receives env cfg s id msg s') (x : String) :
    s'.wsSenders.lookup x =
      if removal env s id msg = some x then none else s.wsSenders.lookup x := by
  have hx := (afterMessage_drops env s id msg s'.replayBuffer x).2
  rwa [← h.registry] at hx

lemma mem_buckets_iff (h : Receives env cfg s id msg s') (x bucket : String) :
    (x, bucket) ∈ s'.rateLimiter.buckets ↔
      (x, bucket) ∈ s.rateLimiter.buckets ∨ (x = id ∧ msg.type_.bucket = some bucket) := by
  have hb := mem_buckets_afterMessage env s id msg s'.replayBuffer x bucket
  rwa [← h.registry] at hb

end Receives

/-- The kinds of steps, with what each does to the registry, to memberships and
to the connections. -/
inductive Trans (cfg : Config) (env : Env) (w : World) : Event → World → Prop
  | refused (r : Request) (why : Refusal)
      (hout : connect env cfg w.app r =
        .rejected why (w.app.withClaims (storedClaims env cfg r))) :
      Trans cfg env w (.connect r) ⟨w.app.withClaims (storedClaims env cfg r), w.conns⟩
  | admitted (r : Request) (K : Conn) (s' : AppState)
      (hout : connect env cfg w.app r = .admitted K s') (hadm : Admits env cfg w.app r K s') :
      Trans cfg env w (.connect r) ⟨s', w.conns ++ [K]⟩
  | message (ev : Event) (id : String) (msg : Message) (s' : AppState)
      (hin : incoming cfg w ev = some (id, msg)) (hrec : Receives env cfg w.app id msg s') :
      Trans cfg env w ev ⟨s', w.conns⟩
  | socketClosed (k : ℕ) (K : Conn) (s' : AppState)
      (hdown : cleanedUp w (.wsClose k) = some (k, K))
      (hreg : s'.registry = (w.app.registry.drop K.id).forget K.id)
      (hun : w.app.ledger.Sound → Unlists cfg K.id w.app s') :
      Trans cfg env w (.wsClose k) ⟨s', w.conns.modify k Conn.close⟩
  | streamCleaned (ev : Event) (k : ℕ) (K : Conn) (s' : AppState) (f : Conn → Conn)
      (hev : ev = .watchdogTick k ∨ ev = .streamEnd k)
      (hdown : cleanedUp w ev = some (k, K)) (hlater : ∀ K : Conn, K.Later (f K))
      (hclose : ∀ K : Conn, (f K).isOpen = false)
      (hreg : s'.registry =
        { (w.app.registry.drop K.id).forget K.id with
          receivers := w.app.registry.receivers.erase K.id })
      (hun : w.app.ledger.Sound → Unlists cfg K.id w.app s') :
      Trans cfg env w ev ⟨s', w.conns.modify k f⟩
  | evicted : Trans cfg env w .evictBroken ⟨Dendri.evictBroken env cfg w.app, w.conns⟩
  | reconciled : Trans cfg env w .reconcile ⟨Dendri.reconcile w.app, w.conns⟩
  | expired : Trans cfg env w .expireSessions ⟨cleanupExpiredSessions env cfg w.app, w.conns⟩
  | replayEvicted : Trans cfg env w .evictReplay ⟨replayEvict env w.app, w.conns⟩
  | quiet (ev : Event) (w' : World) (hin : incoming cfg w ev = none)
      (hdown : cleanedUp w ev = none) (hconnect : ∀ r, ev ≠ .connect r)
      (hevict : ev ≠ .evictBroken)
      (hreg : w'.app.registry = w.app.registry) (hmaps : w'.app.roomMaps = w.app.roomMaps)
      (hconns : ConnsLater w.conns w'.conns) : Trans cfg env w ev w'

/-- The effects of `receive`. -/
lemma receives_receive (env : Env) (cfg : Config) (s : AppState) (id : String) (msg : Message) :
    Receives env cfg s id msg (receive env cfg s id msg).1 :=
  ⟨registry_receive env cfg s id msg, fun hs => moves_receive env cfg hs id msg,
    fun _ _ h => holds_receive h, replayBuffer_receive env cfg s⟩

/-- A statement after the handler that touches neither registry nor
memberships does not count. -/
lemma Receives.trans {env : Env} {cfg : Config} {s t u : AppState} {id : String} {msg : Message}
    (h : Receives env cfg s id msg t) (hreg : u.registry = t.registry)
    (hmaps : u.roomMaps = t.roomMaps) : Receives env cfg s id msg u := by
  have hreplay : u.replayBuffer = t.replayBuffer := congrArg Registry.replay hreg
  obtain ⟨hl, he, hn⟩ := memberships_of_roomMaps hmaps
  refine ⟨?_, fun hs => ?_, ?_, fun htype => hreplay.trans (h.replay htype)⟩
  · rw [hreg, hreplay]
    exact h.registry
  · obtain ⟨hl', he', hn'⟩ := h.moves hs
    exact ⟨hl.trans hl', he.trans he', fun hne => hn (hn' hne)⟩
  · rw [hreplay]
    exact h.holds

/-- The steps that change neither registry, memberships nor connections. -/
lemma Trans.of_frame {cfg : Config} {env : Env} {w : World} {ev : Event} {s' : AppState}
    (hin : incoming cfg w ev = none) (hdown : cleanedUp w ev = none)
    (hconnect : ∀ r, ev ≠ .connect r) (hevict : ev ≠ .evictBroken)
    (hreg : s'.registry = w.app.registry) (hmaps : s'.roomMaps = w.app.roomMaps) :
    Trans cfg env w ev { w with app := s' } :=
  Trans.quiet ev _ hin hdown hconnect hevict hreg hmaps (ConnsLater.refl _)

lemma trans_wsText {cfg : Config} {env : Env} {w : World} {k len : ℕ} {parsed : Option Message}
    {K : Conn} (hK : w.openConn k .WebSocket = some K) :
    Trans cfg env w (.wsText k len parsed)
      { w with app := wsText env cfg w.app K.chan K.id len parsed } := by
  rw [wsText.eq_def]
  by_cases hlen : cfg.maxMessageSize < len
  · have hin : incoming cfg w (.wsText k len parsed) = none := by
      simp [incoming, hK, hlen]
    rw [if_pos hlen]
    exact Trans.of_frame hin rfl (by simp) (by simp) rfl rfl
  · rw [if_neg hlen]
    cases parsed with
    | none =>
        have hin : incoming cfg w (.wsText k len none) = none := by simp [incoming, hK]
        exact Trans.of_frame hin rfl (by simp) (by simp) rfl rfl
    | some msg =>
        have hin : incoming cfg w (.wsText k len (some msg)) = some (K.id, msg) := by
          simp [incoming, hK, hlen]
        have hrec := receives_receive env cfg w.app K.id msg
        dsimp only
        split_ifs
        · exact Trans.message _ _ _ _ hin hrec
        · exact Trans.message _ _ _ _ hin (hrec.trans (registry_send _ _ _) rfl)

lemma trans_httpSend {cfg : Config} {env : Env} {w : World} {id token : String}
    {parsed : Option Message} :
    Trans cfg env w (.httpSend id token parsed)
      { w with app := (sendHandler env cfg w.app id token parsed).1 } := by
  rw [sendHandler]
  cases hc : w.app.clients.lookup id with
  | none =>
      have hin : incoming cfg w (.httpSend id token parsed) = none := by simp [incoming, hc]
      exact Trans.of_frame hin rfl (by simp) (by simp) rfl rfl
  | some client =>
      dsimp only
      by_cases htoken : client.token = token
      · rw [if_pos htoken]
        cases parsed with
        | none =>
            have hin : incoming cfg w (.httpSend id token none) = none := by
              simp [incoming]
            exact Trans.of_frame hin rfl (by simp) (by simp) (registry_touch _ _ _) rfl
        | some msg =>
            have hin : incoming cfg w (.httpSend id token (some msg)) = some (id, msg) := by
              simp [incoming, hc, htoken, Option.filter]
            -- the heartbeat of the sender shows neither in the registry nor in what is read
            have hrec := receives_receive env cfg (w.app.touch env.now id) id msg
            have hreg := registry_touch w.app env.now id
            have hmaps : (w.app.touch env.now id).roomMaps = w.app.roomMaps := rfl
            have hrec' : Receives env cfg w.app id msg
                (receive env cfg (w.app.touch env.now id) id msg).1 := by
              refine ⟨?_, fun hs => (hrec.moves hs).of_roomMaps_left hmaps, hrec.holds,
                hrec.replay⟩
              rw [hrec.registry, Registry.afterMessage, Registry.afterMessage, hreg]
              rfl
            exact Trans.message _ _ _ _ hin hrec'
      · have hin : incoming cfg w (.httpSend id token parsed) = none := by
          simp [incoming, hc, htoken, Option.filter]
        rw [if_neg htoken]
        exact Trans.of_frame hin rfl (by simp) (by simp) rfl rfl

lemma trans_wsClose {cfg : Config} {env : Env} {w : World} {k : ℕ} {K : Conn}
    (hK : w.openConn k .WebSocket = some K) :
    Trans cfg env w (.wsClose k)
      ⟨closeSocket env cfg w.app K.id K.chan, w.conns.modify k Conn.close⟩ := by
  rw [closeSocket]
  by_cases hcur : w.app.wsSenders.lookup K.id = some K.chan
  · have hdown : cleanedUp w (.wsClose k) = some (k, K) := by
      simp [cleanedUp, hK, hcur, Option.filter]
    rw [if_pos hcur]
    refine Trans.socketClosed k K _ hdown (registry_teardown env cfg w.app K.id) fun hs => ?_
    obtain ⟨hl, hi, hwait, hn⟩ := unlists_teardown env cfg hs K.id
    exact ⟨hl, hi, hwait, hn⟩
  · have hdown : cleanedUp w (.wsClose k) = none := by
      simp [cleanedUp, hK, hcur, Option.filter]
    rw [if_neg hcur]
    exact Trans.quiet _ _ rfl hdown (by simp) (by simp) rfl rfl
      (ConnsLater.modify _ k Conn.later_close)

/-- `cleanup_client` is a complete removal that also removes the polling
receiver. -/
lemma cleanupClient_frame (env : Env) (cfg : Config) (s : AppState) (id : String) :
    (cleanupClient env cfg s id).registry =
        { (s.registry.drop id).forget id with receivers := s.registry.receivers.erase id } ∧
      (s.ledger.Sound → Unlists cfg id s (cleanupClient env cfg s id)) := by
  refine ⟨?_, fun hs => ?_⟩
  · rw [cleanupClient, registry_teardown]
    rfl
  · obtain ⟨hl, hi, hwait, hn⟩ := unlists_teardown env cfg
      (s := { s with pollingReceivers := s.pollingReceivers.erase id }) hs id
    exact ⟨hl, hi, hwait, hn⟩

lemma trans_watchdogTick {cfg : Config} {env : Env} {w w' : World} {k : ℕ}
    (h : watchdogTick env cfg w k = some w') : Trans cfg env w (.watchdogTick k) w' := by
  rw [watchdogTick] at h
  cases hK : w.droppedStream k with
  | some K =>
      have hdown : cleanedUp w (.watchdogTick k) = some (k, K) := by simp [cleanedUp, hK]
      obtain ⟨hreg, hun⟩ := cleanupClient_frame env cfg w.app K.id
      rw [hK, Option.some.injEq] at h
      rw [← h]
      refine Trans.streamCleaned _ k K _ _ (Or.inl rfl) hdown (fun K => ?_) (fun K => rfl) hreg hun
      exact ⟨rfl, rfl, rfl, rfl, rfl, rfl, fun hopen => absurd hopen (by
        simp [Conn.close, Conn.stopWatchdog])⟩
  | none =>
      have hdown : cleanedUp w (.watchdogTick k) = none := by simp [cleanedUp, hK]
      rw [hK] at h
      obtain ⟨K, -, hw⟩ := Option.map_eq_some_iff.mp h
      rw [← hw]
      split_ifs
      · exact Trans.quiet _ _ rfl hdown (by simp) (by simp) rfl rfl
          (ConnsLater.modify _ k Conn.later_stopWatchdog)
      · exact Trans.of_frame rfl hdown (by simp) (by simp) rfl rfl

lemma trans_dropReceiver {cfg : Config} {env : Env} {w w' : World} {k : ℕ}
    (h : dropReceiver w k = some w') : Trans cfg env w (.receiverDrop k) w' := by
  rw [dropReceiver] at h
  obtain ⟨K, -, h⟩ := Option.bind_eq_some_iff.mp h
  cases hk : K.transport with
  | WebSocket =>
      rw [hk] at h
      dsimp only at h
      split_ifs at h
      rw [← Option.some.inj h]
      exact Trans.of_frame rfl rfl (by simp) (by simp) rfl rfl
  | Sse =>
      rw [hk] at h
      dsimp only at h
      split_ifs at h
      rw [← Option.some.inj h]
      exact Trans.quiet _ _ rfl rfl (by simp) (by simp) rfl rfl
        (ConnsLater.modify _ k Conn.later_close)
  | Polling =>
      rw [hk] at h
      dsimp only at h
      split_ifs at h
      rw [← Option.some.inj h]
      exact Trans.of_frame rfl rfl (by simp) (by simp) rfl rfl

/-- Every step is of one of the kinds. -/
theorem step_trans {cfg : Config} {w w' : World} {l : Label} (h : step cfg w l = some w') :
    Trans cfg l.env w l.event w' := by
  obtain ⟨env, ev⟩ := l
  cases ev with
  | connect r =>
      rw [step] at h
      dsimp only at h ⊢
      cases hout : connect env cfg w.app r with
      | rejected why s =>
          rw [hout, Option.some.injEq] at h
          have hs := connect_rejected hout
          subst hs
          rw [← h]
          exact Trans.refused r why hout
      | admitted K s =>
          rw [hout, Option.some.injEq] at h
          rw [← h]
          exact Trans.admitted r K s hout (connect_admitted hout)
  | wsText k len parsed =>
      obtain ⟨K, hK, hw⟩ := Option.map_eq_some_iff.mp h
      rw [← hw]
      exact trans_wsText hK
  | httpSend id token parsed =>
      rw [← Option.some.inj h]
      exact trans_httpSend
  | wsClose k =>
      obtain ⟨K, hK, hw⟩ := Option.map_eq_some_iff.mp h
      rw [← hw]
      exact trans_wsClose hK
  | receiverDrop k => exact trans_dropReceiver h
  | watchdogTick k => exact trans_watchdogTick h
  | streamEnd k =>
      obtain ⟨K, hK, hw⟩ := Option.map_eq_some_iff.mp h
      have hdown : cleanedUp w (.streamEnd k) = some (k, K) := by simp [cleanedUp, hK]
      obtain ⟨hreg, hun⟩ := cleanupClient_frame env cfg w.app K.id
      rw [← hw]
      refine Trans.streamCleaned _ k K _ _ (Or.inr rfl) hdown Conn.later_close (fun _ => rfl) hreg
        fun hs => ?_
      obtain ⟨hl, hi, hwait, hn⟩ := hun hs
      exact ⟨hl, hi, hwait, hn⟩
  | pollEnd k =>
      obtain ⟨K, hK, hw⟩ := Option.map_eq_some_iff.mp h
      rw [← hw]
      exact Trans.quiet _ _ rfl rfl (by simp) (by simp) rfl rfl
        (ConnsLater.modify _ k Conn.later_close)
  | deliver c n =>
      rw [← Option.some.inj h]
      exact Trans.of_frame rfl rfl (by simp) (by simp) rfl rfl
  | evictBroken =>
      rw [← Option.some.inj h]
      exact Trans.evicted
  | reconcile =>
      rw [← Option.some.inj h]
      exact Trans.reconciled
  | expireSessions =>
      rw [← Option.some.inj h]
      exact Trans.expired
  | expireMessages =>
      obtain ⟨hreg, hmaps⟩ := messagesExpire_frame env cfg w.app
      rw [← Option.some.inj h]
      exact Trans.of_frame rfl rfl (by simp) (by simp) hreg hmaps
  | evictReplay =>
      rw [← Option.some.inj h]
      exact Trans.replayEvicted
  | redisChange redis =>
      rw [← Option.some.inj h]
      exact Trans.of_frame rfl rfl (by simp) (by simp) rfl rfl

/-- A step with an incoming message receives it. -/
lemma receives_of_step {cfg : Config} {w w' : World} {l : Label} {id : String} {msg : Message}
    (h : step cfg w l = some w') (hin : incoming cfg w l.event = some (id, msg)) :
    Receives l.env cfg w.app id msg w'.app := by
  obtain ⟨env, ev⟩ := l
  have ht := step_trans h
  dsimp only at ht hin ⊢
  cases ht with
  | message ev id' msg' s' hin' hrec =>
      obtain ⟨rfl, rfl⟩ := Prod.mk.inj (Option.some.inj (hin.symm.trans hin'))
      exact hrec
  | streamCleaned ev k K s' f hev hdown hlater hclose hreg hun =>
      rcases hev with rfl | rfl
      · exact absurd hin (by simp [incoming])
      · exact absurd hin (by simp [incoming])
  | quiet ev w' hnone hdown hconnect hevict hreg hmaps hconns =>
      exact absurd (hnone.symm.trans hin) (by simp)
  | _ => exact absurd hin (by simp [incoming])

/-! ### The state after a step -/

/-- The shared state after a step, handler by handler. -/
inductive Reacts (cfg : Config) (env : Env) (w : World) : Event → AppState → Prop
  | refused (r : Request) :
      Reacts cfg env w (.connect r) (w.app.withClaims (storedClaims env cfg r))
  | admitted (r : Request) (K : Conn) (s' : AppState)
      (hout : connect env cfg w.app r = .admitted K s') : Reacts cfg env w (.connect r) s'
  | wsText (k len : ℕ) (parsed : Option Message) (K : Conn)
      (hK : w.openConn k .WebSocket = some K) :
      Reacts cfg env w (.wsText k len parsed) (Dendri.wsText env cfg w.app K.chan K.id len parsed)
  | httpSend (id token : String) (parsed : Option Message) :
      Reacts cfg env w (.httpSend id token parsed) (sendHandler env cfg w.app id token parsed).1
  | wsClose (k : ℕ) (K : Conn) (hK : w.openConn k .WebSocket = some K) :
      Reacts cfg env w (.wsClose k) (closeSocket env cfg w.app K.id K.chan)
  | receiverDrop (k : ℕ) (K : Conn) (hK : w.conns[k]? = some K)
      (hpoll : K.transport = .Polling → w.app.pollingReceivers.lookup K.id ≠ some K.chan) :
      Reacts cfg env w (.receiverDrop k) (w.app.closeChannel K.chan)
  | watchdogTick (k : ℕ) (K : Conn) (hK : w.droppedStream k = some K) :
      Reacts cfg env w (.watchdogTick k) (cleanupClient env cfg w.app K.id)
  | streamEnd (k : ℕ) (K : Conn) (hK : w.endedStream k = some K) :
      Reacts cfg env w (.streamEnd k) ((cleanupClient env cfg w.app K.id).closeChannel K.chan)
  /-- A watchdog that finds its stream in use, or a polling client that stops. -/
  | nothing (ev : Event) (k : ℕ) (hev : ev = .watchdogTick k ∨ ev = .pollEnd k) :
      Reacts cfg env w ev w.app
  | deliver (c n : ℕ) : Reacts cfg env w (.deliver c n) (w.app.deliver c n)
  | evictBroken : Reacts cfg env w .evictBroken (Dendri.evictBroken env cfg w.app)
  | reconcile : Reacts cfg env w .reconcile (Dendri.reconcile w.app)
  | expireSessions : Reacts cfg env w .expireSessions (cleanupExpiredSessions env cfg w.app)
  | expireMessages : Reacts cfg env w .expireMessages (messagesExpire env cfg w.app)
  | evictReplay : Reacts cfg env w .evictReplay (replayEvict env w.app)
  | redisChange (redis : Redis) :
      Reacts cfg env w (.redisChange redis) { w.app with redis := redis }

lemma reacts_dropReceiver {cfg : Config} {env : Env} {w w' : World} {k : ℕ}
    (h : dropReceiver w k = some w') : Reacts cfg env w (.receiverDrop k) w'.app := by
  rw [dropReceiver] at h
  obtain ⟨K, hK, h⟩ := Option.bind_eq_some_iff.mp h
  cases hk : K.transport with
  | WebSocket | Sse =>
      rw [hk] at h
      dsimp only at h
      split_ifs at h
      rw [← Option.some.inj h]
      exact Reacts.receiverDrop k K hK fun hpoll => absurd (hk.symm.trans hpoll) (by simp)
  | Polling =>
      rw [hk] at h
      dsimp only at h
      split_ifs at h with hstored
      rw [← Option.some.inj h]
      exact Reacts.receiverDrop k K hK fun _ => hstored

lemma reacts_watchdogTick {cfg : Config} {env : Env} {w w' : World} {k : ℕ}
    (h : watchdogTick env cfg w k = some w') : Reacts cfg env w (.watchdogTick k) w'.app := by
  rw [watchdogTick] at h
  cases hK : w.droppedStream k with
  | some K =>
      rw [hK, Option.some.injEq] at h
      rw [← h]
      exact Reacts.watchdogTick k K hK
  | none =>
      rw [hK] at h
      obtain ⟨K, -, hw⟩ := Option.map_eq_some_iff.mp h
      rw [← hw]
      split_ifs <;> exact Reacts.nothing _ k (Or.inl rfl)

/-- The shared state after every step is one of these. -/
lemma reacts_of_step {cfg : Config} {w w' : World} {l : Label} (h : step cfg w l = some w') :
    Reacts cfg l.env w l.event w'.app := by
  obtain ⟨env, ev⟩ := l
  cases ev with
  | connect r =>
      rw [step] at h
      dsimp only at h ⊢
      cases hout : connect env cfg w.app r with
      | rejected why s =>
          rw [hout, Option.some.injEq] at h
          rw [← h, connect_rejected hout]
          exact Reacts.refused r
      | admitted K s =>
          rw [hout, Option.some.injEq] at h
          rw [← h]
          exact Reacts.admitted r K s hout
  | wsText k len parsed =>
      obtain ⟨K, hK, hw⟩ := Option.map_eq_some_iff.mp h
      rw [← hw]
      exact Reacts.wsText k len parsed K hK
  | httpSend id token parsed =>
      rw [← Option.some.inj h]
      exact Reacts.httpSend id token parsed
  | wsClose k =>
      obtain ⟨K, hK, hw⟩ := Option.map_eq_some_iff.mp h
      rw [← hw]
      exact Reacts.wsClose k K hK
  | receiverDrop k => exact reacts_dropReceiver h
  | watchdogTick k => exact reacts_watchdogTick h
  | streamEnd k =>
      obtain ⟨K, hK, hw⟩ := Option.map_eq_some_iff.mp h
      rw [← hw]
      exact Reacts.streamEnd k K hK
  | pollEnd k =>
      obtain ⟨K, -, hw⟩ := Option.map_eq_some_iff.mp h
      rw [← hw]
      exact Reacts.nothing _ k (Or.inr rfl)
  | deliver c n =>
      rw [← Option.some.inj h]
      exact Reacts.deliver c n
  | evictBroken =>
      rw [← Option.some.inj h]
      exact Reacts.evictBroken
  | reconcile =>
      rw [← Option.some.inj h]
      exact Reacts.reconcile
  | expireSessions =>
      rw [← Option.some.inj h]
      exact Reacts.expireSessions
  | expireMessages =>
      rw [← Option.some.inj h]
      exact Reacts.expireMessages
  | evictReplay =>
      rw [← Option.some.inj h]
      exact Reacts.evictReplay
  | redisChange redis =>
      rw [← Option.some.inj h]
      exact Reacts.redisChange redis

/-! ### Invariants of every run -/

lemma sound_cleanupExpiredSessions (env : Env) (cfg : Config) {s : AppState}
    (hs : s.ledger.Sound) : (cleanupExpiredSessions env cfg s).ledger.Sound := by
  refine cleanupExpiredSessions_induction (P := fun t => t.ledger.Sound) env cfg hs
    fun t id ht => ?_
  rw [ledger_expireSession ht id]
  exact ht.expire

/-- The members of a room after an expiry pass were there before. -/
lemma member_of_cleanupExpiredSessions {env : Env} {cfg : Config} {s : AppState}
    (hs : s.ledger.Sound) {m key : String}
    (hm : (cleanupExpiredSessions env cfg s).ledger.member m key) : s.ledger.member m key := by
  refine (cleanupExpiredSessions_induction (P := fun t => t.ledger.Sound ∧
    (t.ledger.member m key → s.ledger.member m key)) env cfg ⟨hs, fun h => h⟩ fun t k ht => ?_).2 hm
  rw [ledger_expireSession ht.1 k]
  exact ⟨ht.1.expire, fun h => ht.2 h.1⟩

/-- The reverse index never names a room that the client is not in, whatever
happens. -/
lemma sound_of_step {cfg : Config} {w w' : World} {l : Label} (hw : w.app.ledger.Sound)
    (h : step cfg w l = some w') : w'.app.ledger.Sound := by
  have hframe : ∀ s' : AppState, s'.roomMaps = w.app.roomMaps → s'.ledger.Sound := by
    intro s' hmaps
    rw [(memberships_of_roomMaps hmaps).1]
    exact hw
  have hdown : ∀ (id : String) (s' : AppState), Unlists cfg id w.app s' → s'.ledger.Sound := by
    intro id s' hun
    rw [hun.ledger]
    split_ifs
    · exact hw.removeAll
    · exact hw.defer
  obtain ⟨env, ev⟩ := l
  have ht := step_trans h
  dsimp only at ht
  cases ht with
  | refused r why hout => exact hframe _ (withClaims_frame _ _).2
  | admitted r K s' hout hadm =>
      rcases hadm.ledger with heq | heq
      · rw [heq]
        exact hw
      · rw [heq]
        exact hw.restore
  | message ev id msg s' hin hrec =>
      rw [(hrec.moves hw).ledger]
      cases (if allowed env id msg.type_ = true then joins cfg w.app id msg else none) with
      | some key => exact hw.join
      | none =>
          cases (if allowed env id msg.type_ = true then leaves w.app id msg else none) with
          | some key => exact hw.leave
          | none => exact hw
  | socketClosed k K s' hdown' hreg hun => exact hdown K.id s' (hun hw)
  | streamCleaned ev k K s' f hev hdown' hlater hclose hreg hun => exact hdown K.id s' (hun hw)
  | evicted => exact hframe _ (registry_evictBroken env cfg w.app).2
  | reconciled => exact hframe _ rfl
  | expired => exact sound_cleanupExpiredSessions env cfg hw
  | replayEvicted => exact hframe _ rfl
  | quiet ev w' hin hdown' hconnect hevict hreg hmaps hconns => exact hframe _ hmaps

lemma sound_init (cfg : Config) (redis : Redis) : (World.init cfg redis).app.ledger.Sound := by
  rintro id room ⟨rooms, h, -⟩
  exact absurd h (by simp [World.init, AppState.new])

end Dendri
