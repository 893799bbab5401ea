import Dendri.Lib.Interleave
import Dendri.System
import Dendri.Properties.Admission
import Dendri.Properties.Upkeep

/-!
The eviction of broken connections, one access after the other. A pass collects
the ids it will evict at its start and removes them one by one, with two Redis
calls after each; clients ping, send and reconnect in between.

* `RecordFrom`, `record_of_step`: where the record of a client comes from, for
  every step of the server;
* `CheckPhase`, `checkBrokenAccess`: the accesses of a pass; alone they are
  `evictBroken` (`alone_checkBroken`);
* `Checked`, `checkStep`: the server while a pass goes on, with the records that
  it has collected and who has pinged or sent since;
* `evicts_stale`: a pass that removes no client which it should have looked at
  again removes stale clients only; `evicts_pinged_client`: others need not be.
-/

namespace Dendri

open AppState Transition Interleave

/-! ### Where records come from -/

/-- Where a record of `x` in `s'` comes from: `x` has pinged, or it is the record
in `s`, with a new time of the last message if `x` has spoken. -/
def RecordFrom (x : String) (pinged spoke : Prop) (s s' : AppState) : Prop :=
  ∀ client', s'.clients.lookup x = some client' → pinged ∨
    ∃ client, s.clients.lookup x = some client ∧ client'.lastPing = client.lastPing ∧
      (client'.lastMessage = client.lastMessage ∨ spoke)

namespace RecordFrom

variable {x : String} {pinged spoke : Prop} {s t u : AppState}

/-- A record that was there before, or none. -/
lemma of_kept (h : ∀ client, t.clients.lookup x = some client → s.clients.lookup x = some client) :
    RecordFrom x pinged spoke s t :=
  fun client hc => Or.inr ⟨client, h client hc, rfl, Or.inl rfl⟩

lemma of_eq (h : t.clients = s.clients) : RecordFrom x pinged spoke s t :=
  of_kept fun client hc => by rwa [h] at hc

lemma of_erase (id : String) (h : t.clients = s.clients.erase id) :
    RecordFrom x pinged spoke s t := by
  refine of_kept fun client hc => ?_
  rw [h, FinMap.lookup_erase_ite] at hc
  split_ifs at hc
  exact hc

lemma trans (h : RecordFrom x pinged spoke s t) (h' : RecordFrom x pinged spoke t u) :
    RecordFrom x pinged spoke s u := by
  intro client₂ hc₂
  rcases h' client₂ hc₂ with hping | ⟨client₁, hc₁, hp₁, hm₁⟩
  · exact Or.inl hping
  · rcases h client₁ hc₁ with hping | ⟨client, hc, hp, hm⟩
    · exact Or.inl hping
    · refine Or.inr ⟨client, hc, hp₁.trans hp, ?_⟩
      rcases hm₁ with hm₁ | hspoke
      · exact hm.imp_left hm₁.trans
      · exact Or.inr hspoke

lemma mono {pinged' spoke' : Prop} (h : RecordFrom x pinged spoke s t)
    (hpinged : pinged → pinged') (hspoke : spoke → spoke') : RecordFrom x pinged' spoke' s t := by
  intro client' hc'
  refine (h client' hc').imp hpinged ?_
  rintro ⟨client, hc, hp, hm⟩
  exact ⟨client, hc, hp, hm.imp_right hspoke⟩

lemma touch (now : ℕ) (id : String) (hpinged : x = id → pinged) :
    RecordFrom x pinged spoke s (s.touch now id) := by
  intro client hc
  rw [AppState.touch, FinMap.lookup_modify] at hc
  split_ifs at hc with hx
  · exact Or.inl (hpinged hx)
  · exact Or.inr ⟨client, hc, rfl, Or.inl rfl⟩

lemma recorded (env : Env) (id : String) (type_ : MessageType)
    (hspoke : x = id → type_ ≠ .HEARTBEAT → spoke) :
    RecordFrom x pinged spoke s (recorded env s id type_) := by
  rw [Dendri.recorded]
  split_ifs with htype
  · intro client hc
    rw [recordMessage, FinMap.lookup_modify] at hc
    split_ifs at hc with hx
    · obtain ⟨old, hold, rfl⟩ := Option.map_eq_some_iff.mp hc
      exact Or.inr ⟨old, hx ▸ hold, rfl, Or.inr (hspoke hx htype)⟩
    · exact Or.inr ⟨client, hc, rfl, Or.inl rfl⟩
  · exact of_eq rfl

end RecordFrom

/-! ### Messages -/

/-- The handlers that register and remove nobody leave the records alone. -/
lemma clients_upkeep : Upkeep fun s t => t.clients = s.clients where
  trans hst htu := htu.trans hst
  of_core hcore := congrArg (fun core => core.2.1) hcore
  send _ _ _ := rfl
  fanOut _ _ _ := rfl

lemma RecordFrom.handleTransmission {x : String} {pinged spoke : Prop} (env : Env) (s : AppState)
    (msg : Message) : RecordFrom x pinged spoke s (handleTransmission env s msg) := by
  rw [Dendri.handleTransmission]
  by_cases hdst : msg.dst.getD "" ≠ ""
  · rw [if_pos hdst]
    cases s.wsSenders.lookup (msg.dst.getD "") with
    | none => dsimp only; split_ifs <;> exact .of_eq rfl
    | some c =>
        dsimp only
        split_ifs
        · exact .of_erase (msg.dst.getD "") rfl
        · exact .of_eq rfl
  · rw [if_neg hdst]
    split_ifs
    · exact .of_erase (msg.src.getD "") rfl
    · exact .of_eq rfl

/-- Where records come from when a message was handled. -/
lemma RecordFrom.handleMessage {x : String} (env : Env) (cfg : Config) (s : AppState) (id : String)
    (msg : Message) :
    RecordFrom x (x = id ∧ msg.type_ = .HEARTBEAT) (x = id ∧ msg.type_ ≠ .HEARTBEAT) s
      (handleMessage env cfg s id msg) := by
  have hrecorded : RecordFrom x (x = id ∧ msg.type_ = .HEARTBEAT)
      (x = id ∧ msg.type_ ≠ .HEARTBEAT) s (Dendri.recorded env s id msg.type_) :=
    .recorded env id msg.type_ fun hx htype => ⟨hx, htype⟩
  refine handleMessage_induction ?_ ?_ ?_ ?_ ?_ ?_ ?_
  · exact fun htype => .touch env.now id fun hx => ⟨hx, htype⟩
  · exact fun _ => hrecorded.trans (.handleTransmission env _ _)
  · exact fun _ => hrecorded.trans (.of_eq (clients_upkeep.handleData env cfg _ id _))
  · exact fun _ => hrecorded.trans (.of_eq (clients_upkeep.handleRoomJoin env cfg _ id _))
  · exact fun _ => hrecorded.trans (.of_eq (clients_upkeep.handleRoomLeave _ id _))
  · exact fun _ => hrecorded.trans (.of_eq (clients_upkeep.handlePresenceUpdate _ id _))
  · exact fun _ _ => hrecorded

/-- Where records come from when a message was received. -/
lemma RecordFrom.receive {x : String} (env : Env) (cfg : Config) (s : AppState) (id : String)
    (msg : Message) :
    RecordFrom x (x = id ∧ msg.type_ = .HEARTBEAT)
      (x = id ∧ msg.type_ ≠ .HEARTBEAT ∧ allowed env id msg.type_ = true) s
      (receive env cfg s id msg).1 := by
  rw [Dendri.receive]
  obtain ⟨hverdict, -⟩ := meter_eq env s id msg.type_
  have hclients : (meter env s id msg.type_).1.clients = s.clients :=
    clients_upkeep.meter env s id msg.type_
  have hmeter : RecordFrom x (x = id ∧ msg.type_ = .HEARTBEAT)
      (x = id ∧ msg.type_ ≠ .HEARTBEAT ∧ allowed env id msg.type_ = true) s
      (meter env s id msg.type_).1 := .of_eq hclients
  dsimp only
  split_ifs with hallowed
  · refine hmeter.trans ((RecordFrom.handleMessage env cfg _ id msg).mono (fun h => h) fun h => ?_)
    exact ⟨h.1, h.2, hverdict ▸ hallowed⟩
  · exact hmeter

/-! ### Connecting -/

lemma clients_runClient {env : Env} {s s' : AppState} {id token : String} {auth : Auth}
    {lastSeq : Option ℕ} {restored : List String} {K : Conn}
    (h : runClient env s id token auth lastSeq restored = .admitted K s') :
    s'.clients = s.clients := by
  rw [runClient] at h
  rw [← (Outcome.admitted.inj h).2]
  exact clients_upkeep.deliverQueuedMessages env _ id _

/-- The record of another client after a client was inserted. -/
lemma lookup_insertClient_of_ne {s : AppState} {now : ℕ} {id token x : String}
    {transport : TransportKind} (hx : x ≠ id) :
    (s.insertClient now id token transport).clients.lookup x = s.clients.lookup x := by
  rw [insertClient, FinMap.lookup_insert_ite, if_neg hx]

lemma lookup_clients_admitSocket {env : Env} {cfg : Config} {s s' : AppState} {id token : String}
    {auth : Auth} {lastSeq : Option ℕ} {K : Conn} {x : String}
    (h : admitSocket env cfg s id token auth lastSeq = .admitted K s') (hx : x ≠ id) :
    s'.clients.lookup x = s.clients.lookup x := by
  rcases runClient_of_admitSocket h with ⟨-, t, restored, rfl, hrun⟩ | ⟨-, -, t, rfl, hrun⟩
  · rw [clients_runClient hrun, clients_upkeep.restoreSession]
    exact lookup_insertClient_of_ne hx
  · rw [clients_runClient hrun]
    exact lookup_insertClient_of_ne hx

/-- The checks of an HTTP request leave the records alone. -/
lemma clients_claimId {cfg : Config} {s t : AppState} {id token : String} {claims : Option Value}
    {why : Option Refusal} (h : claimId cfg (s.storeClaims id claims) id token = (t, why)) :
    t.clients = s.clients := by
  obtain ⟨n, hn⟩ := claimId_counter cfg (s.storeClaims id claims) id token
  rw [h] at hn
  rw [show t = _ from hn]
  rfl

lemma lookup_clients_registerPoll {env : Env} {s : AppState} {isNew : Bool} {tx : ℕ}
    {q : HttpQuery} {auth : Auth} {x : String} (hx : x ≠ q.id) :
    (registerPoll env s isNew tx q auth).clients.lookup x = s.clients.lookup x := by
  rw [registerPoll]
  split_ifs
  · rw [clients_upkeep.deliverQueuedMessages]
    exact lookup_insertClient_of_ne hx
  · rw [touch, FinMap.lookup_modify, if_neg hx]

/-- An admitted connect leaves the records of others alone. -/
lemma lookup_clients_connect {env : Env} {cfg : Config} {s s' : AppState} {r : Request} {K : Conn}
    {x : String} (h : connect env cfg s r = .admitted K s') (hx : x ≠ K.id) :
    s'.clients.lookup x = s.clients.lookup x := by
  cases r with
  | ws q =>
      rcases handleSocket_cases env cfg s q with ⟨_, heq, -⟩ | ⟨id, token, auth, h'⟩
      · rw [connect, heq] at h
        exact absurd h (by simp)
      · obtain ⟨hid, -, -, -, -, -, heq⟩ := h'
        have hK := (connect_admitted h).admittedFor.id
        rw [connect, heq] at h
        have hne : x ≠ id := by
          rintro rfl
          exact hx (Option.some.inj (hid.symm.trans hK))
        have hadmit := lookup_clients_admitSocket h hne
        exact hadmit
  | sse q =>
      rcases sseHandler_cases env cfg s q with ⟨_, heq⟩ | ⟨auth, t, -, hclaim, heq⟩
      · rw [connect, heq] at h
        exact absurd h (by simp)
      · rw [connect, heq, openStream] at h
        obtain ⟨rfl, rfl⟩ := Outcome.admitted.inj h
        have hsame := clients_claimId hclaim
        rw [← hsame]
        exact (congrArg (Finmap.lookup x) (clients_upkeep.deliverQueuedMessages env _ q.id _)).trans
          (lookup_insertClient_of_ne hx)
  | poll q =>
      rcases pollHandler_cases env cfg s q with ⟨_, heq⟩ | ⟨auth, t, u, -, hclaim, hu, heq⟩
      · rw [connect, heq] at h
        exact absurd h (by simp)
      · rw [connect, heq] at h
        obtain ⟨rfl, rfl⟩ := Outcome.admitted.inj h
        have hsame := clients_claimId hclaim
        have hpair : (pollingPair t q.id).1.clients = t.clients := by
          rw [pollingPair]
          split <;> rfl
        have hpoll : u.clients.lookup x = t.clients.lookup x := by
          rw [hu, lookup_clients_registerPoll hx, hpair]
        rw [← hsame]
        exact hpoll

/-! ### Removal -/

lemma clients_teardown (env : Env) (cfg : Config) (s : AppState) (id : String) :
    (teardown env cfg s id).clients = s.clients.erase id :=
  clients_upkeep.removeClientFromAllRooms env cfg _ id

lemma RecordFrom.closeSocket {x : String} {pinged spoke : Prop} (env : Env) (cfg : Config)
    (s : AppState) (id : String) (c : ℕ) :
    RecordFrom x pinged spoke s (closeSocket env cfg s id c) := by
  rw [Dendri.closeSocket]
  split_ifs
  · exact .of_erase id (clients_teardown env cfg s id)
  · exact .of_eq rfl

/-! ### Background passes -/

lemma RecordFrom.evictBroken {x : String} {pinged spoke : Prop} (env : Env) (cfg : Config)
    (s : AppState) : RecordFrom x pinged spoke s (evictBroken env cfg s) := by
  rw [Dendri.evictBroken]
  generalize toEvict env cfg s = ids
  induction ids generalizing s with
  | nil => exact .of_eq rfl
  | cons id ids ih => exact (RecordFrom.of_erase id rfl).trans (ih (evictClient env s id))

/-! ### Steps of the server -/

/-- The client that pings or connects in a step: its record gets a new
`last_ping`. A `POST /http/send` and a poll count as a heartbeat. -/
def pinging (cfg : Config) (w : World) (l : Label) : Option String :=
  match l.event with
  | .connect r =>
      match connect l.env cfg w.app r with
      | .admitted K _ => some K.id
      | .rejected _ _ => none
  | .httpSend id token _ =>
      ((w.app.clients.lookup id).filter fun client => decide (client.token = token)).map fun _ => id
  | ev =>
      ((incoming cfg w ev).filter fun p => decide (p.2.type_ = .HEARTBEAT)).map Prod.fst

/-- The client of which a message is handled in a step: its record gets a new
`last_message`. -/
def speaking (cfg : Config) (w : World) (l : Label) : Option String :=
  ((incoming cfg w l.event).filter fun p =>
    decide (p.2.type_ ≠ .HEARTBEAT) && allowed l.env p.1 p.2.type_).map Prod.fst

lemma speaking_of_incoming {cfg : Config} {w : World} {l : Label} {id : String} {msg : Message}
    (hin : incoming cfg w l.event = some (id, msg)) (htype : msg.type_ ≠ .HEARTBEAT)
    (hallowed : allowed l.env id msg.type_ = true) : speaking cfg w l = some id := by
  simp [speaking, hin, htype, hallowed, Option.filter]

lemma record_wsText {cfg : Config} {w : World} {env : Env} {k len : ℕ} {parsed : Option Message}
    {K : Conn} {x : String} (hK : w.openConn k .WebSocket = some K) :
    RecordFrom x (pinging cfg w ⟨env, .wsText k len parsed⟩ = some x)
      (speaking cfg w ⟨env, .wsText k len parsed⟩ = some x) w.app
      (wsText env cfg w.app K.chan K.id len parsed) := by
  rw [wsText.eq_def]
  by_cases hlen : cfg.maxMessageSize < len
  · rw [if_pos hlen]
    exact .of_eq rfl
  · rw [if_neg hlen]
    cases parsed with
    | none => exact .of_eq rfl
    | some msg =>
        have hin : incoming cfg w (.wsText k len (some msg)) = some (K.id, msg) := by
          simp [incoming, hK, hlen]
        have hreceive : RecordFrom x (pinging cfg w ⟨env, .wsText k len (some msg)⟩ = some x)
            (speaking cfg w ⟨env, .wsText k len (some msg)⟩ = some x) w.app
            (receive env cfg w.app K.id msg).1 := by
          refine (RecordFrom.receive env cfg w.app K.id msg).mono ?_ ?_
          · rintro ⟨rfl, htype⟩
            simp [pinging, hin, htype, Option.filter]
          · rintro ⟨rfl, htype, hallowed⟩
            exact speaking_of_incoming hin htype hallowed
        dsimp only
        split_ifs
        · exact hreceive
        · exact hreceive.trans (.of_eq rfl)

lemma record_sendHandler {cfg : Config} {w : World} {env : Env} {id token : String}
    {parsed : Option Message} {x : String} :
    RecordFrom x (pinging cfg w ⟨env, .httpSend id token parsed⟩ = some x)
      (speaking cfg w ⟨env, .httpSend id token parsed⟩ = some x) w.app
      (sendHandler env cfg w.app id token parsed).1 := by
  rw [sendHandler]
  cases hc : w.app.clients.lookup id with
  | none => exact .of_eq rfl
  | some client =>
      dsimp only
      by_cases htoken : client.token = token
      · rw [if_pos htoken]
        -- whoever posts with its token has its record touched first
        have hping : pinging cfg w ⟨env, .httpSend id token parsed⟩ = some id := by
          simp [pinging, hc, htoken, Option.filter]
        have htouch : RecordFrom x (pinging cfg w ⟨env, .httpSend id token parsed⟩ = some x)
            (speaking cfg w ⟨env, .httpSend id token parsed⟩ = some x) w.app
            (w.app.touch env.now id) :=
          .touch env.now id fun hx => hx ▸ hping
        cases parsed with
        | none => exact htouch
        | some msg =>
            refine htouch.trans ((RecordFrom.receive env cfg _ id msg).mono ?_ ?_)
            · exact fun h => h.1 ▸ hping
            · rintro ⟨rfl, htype, hallowed⟩
              have hin : incoming cfg w (.httpSend x token (some msg)) = some (x, msg) := by
                simp [incoming, hc, htoken, Option.filter]
              exact speaking_of_incoming hin htype hallowed
      · rw [if_neg htoken]
        exact .of_eq rfl

lemma record_connect {cfg : Config} {w : World} {env : Env} {r : Request} {K : Conn} {s' : AppState}
    {x : String} {spoke : Prop} (hout : connect env cfg w.app r = .admitted K s') :
    RecordFrom x (pinging cfg w ⟨env, .connect r⟩ = some x) spoke w.app s' := by
  by_cases hx : x = K.id
  · have hping : pinging cfg w ⟨env, .connect r⟩ = some x := by
      simp only [pinging, hout, hx]
    exact fun _ _ => Or.inl hping
  · refine .of_kept fun client hc => ?_
    rw [← hc]
    exact (lookup_clients_connect hout hx).symm

/-- Where the records come from that there are after a step. -/
lemma record_of_step {cfg : Config} {w w' : World} {l : Label} (h : step cfg w l = some w')
    (x : String) :
    RecordFrom x (pinging cfg w l = some x) (speaking cfg w l = some x) w.app w'.app := by
  have hreacts := reacts_of_step h
  obtain ⟨env, ev⟩ := l
  generalize w'.app = s' at hreacts ⊢
  dsimp only at hreacts
  cases hreacts with
  | refused r =>
      refine .of_eq ?_
      cases storedClaims env cfg r with
      | none => rfl
      | some stored => rfl
  | admitted r K s' hout => exact record_connect hout
  | wsText k len parsed K hK => exact record_wsText hK
  | httpSend id token parsed => exact record_sendHandler
  | wsClose k K hK => exact .closeSocket env cfg w.app K.id K.chan
  | watchdogTick k K hK => exact .of_erase K.id (clients_teardown env cfg _ K.id)
  | streamEnd k K hK => exact .of_erase K.id (clients_teardown env cfg _ K.id)
  | evictBroken => exact .evictBroken env cfg w.app
  | expireSessions => exact .of_eq (clients_upkeep.cleanupExpiredSessions env cfg w.app)
  | expireMessages => exact .of_eq (clients_upkeep.messagesExpire env cfg w.app)
  | _ => exact .of_eq rfl

/-! ### The accesses of a pass -/

/-- How far an eviction pass has come; `now` is the time that it has read at its
start, and `rest` the ids whose turn is still to come. -/
inductive CheckPhase where
  | idle
  | evicting (now : ℕ) (rest : List String)
  /-- The sender of `id` was removed. -/
  | unsent (now : ℕ) (id : String) (rest : List String)
  /-- A client was removed from `clients`, and its slot is to be released. -/
  | dropped (now : ℕ) (id : String) (rest : List String)
  | clearing (now : ℕ) (id : String) (rest : List String)
  | unregistering (now : ℕ) (id : String) (rest : List String)
  deriving DecidableEq

namespace CheckPhase

/-- The time that the pass goes by. -/
def now : CheckPhase → ℕ
  | idle => 0
  | evicting now _ | unsent now _ _ | dropped now _ _ | clearing now _ _
  | unregistering now _ _ => now

/-- The ids that are still to be removed from `clients`. -/
def pending : CheckPhase → List String
  | idle => []
  | unsent _ id rest => id :: rest
  | evicting _ rest | dropped _ _ rest | clearing _ _ rest | unregistering _ _ rest => rest

/-- The id that the next access removes from `clients`. -/
def removed? : CheckPhase → Option String
  | unsent _ id _ => some id
  | _ => none

end CheckPhase

/-- One access of a pass to the shared state. -/
def checkBrokenAccess (env : Env) (cfg : Config) (s : AppState) :
    CheckPhase → AppState × CheckPhase
  | .idle => (s, .evicting env.now (toEvict env cfg s))
  | .evicting _ [] => (s, .idle)
  | .evicting now (id :: rest) =>
      ({ s with wsSenders := s.wsSenders.erase id }, .unsent now id rest)
  | .unsent now id rest =>
      ({ s with clients := s.clients.erase id },
        if (s.clients.lookup id).isSome then .dropped now id rest else .clearing now id rest)
  | .dropped now id rest => (s.releaseConnectionSlot, .clearing now id rest)
  | .clearing now id rest => (s.redisClearMessageQueue env id, .unregistering now id rest)
  | .unregistering now id rest => (s.redisRemoveClient env id, .evicting now rest)

/-- The turn of one id, without interruption. -/
lemma alone_evictClient (env : Env) (cfg : Config) (s : AppState) (now : ℕ) (id : String)
    (rest : List String) :
    Alone (fun s p => some (checkBrokenAccess env cfg s p)) (s, .evicting now (id :: rest))
      (evictClient env s id, .evicting now rest) := by
  rw [evictClient, dropClient]
  refine .head rfl ?_
  cases hc : s.clients.lookup id with
  | none =>
      have herase : checkBrokenAccess env cfg { s with wsSenders := s.wsSenders.erase id }
          (.unsent now id rest) =
          ({ s with wsSenders := s.wsSenders.erase id, clients := s.clients.erase id },
            .clearing now id rest) := by
        simp [checkBrokenAccess, hc]
      exact .head (congrArg some herase) (.head rfl (.head rfl (.refl _)))
  | some client =>
      have herase : checkBrokenAccess env cfg { s with wsSenders := s.wsSenders.erase id }
          (.unsent now id rest) =
          ({ s with wsSenders := s.wsSenders.erase id, clients := s.clients.erase id },
            .dropped now id rest) := by
        simp [checkBrokenAccess, hc]
      exact .head (congrArg some herase) (.head rfl (.head rfl (.head rfl (.refl _))))

/-- A pass that is not interrupted is `evictBroken`. -/
theorem alone_checkBroken (env : Env) (cfg : Config) (s : AppState) :
    Alone (fun s p => some (checkBrokenAccess env cfg s p)) (s, .idle)
      (evictBroken env cfg s, .idle) := by
  have hloop : ∀ (ids : List String) (t : AppState),
      Alone (fun s p => some (checkBrokenAccess env cfg s p)) (t, .evicting env.now ids)
        (ids.foldl (evictClient env) t, .idle) := by
    intro ids
    induction ids with
    | nil => exact fun t => .head rfl (.refl _)
    | cons id ids ih =>
        exact fun t => (alone_evictClient env cfg t env.now id ids).trans (ih _)
  exact .head rfl (hloop (toEvict env cfg s) s)

/-! ### A pass among the other events -/

/-- The server while a pass goes on: the records that there were at its start, and
who has pinged or connected, and who has sent messages, since then. -/
structure Checked where
  world : World
  phase : CheckPhase
  taken : DashMap ClientMeta
  pinged : Finset String
  spoke : Finset String

/-- A step of the server, or the next access of the pass. -/
inductive CheckEvent where
  | other (l : Label)
  | pass (env : Env)

/-- The server with no pass going on. -/
def Checked.start (w : World) : Checked := ⟨w, .idle, ∅, ∅, ∅⟩

/-- One event. -/
def checkStep (cfg : Config) (w : Checked) : CheckEvent → Option Checked
  | .other l =>
      (step cfg w.world l).map fun world =>
        { w with
          world := world
          pinged := w.pinged ∪ (pinging cfg w.world l).toFinset
          spoke := w.spoke ∪ (speaking cfg w.world l).toFinset }
  | .pass env =>
      let r := checkBrokenAccess env cfg w.world.app w.phase
      let world := { w.world with app := r.1 }
      match w.phase with
      | .idle => some ⟨world, r.2, w.world.app.clients, ∅, ∅⟩
      | _ => some { w with world := world, phase := r.2 }

/-- The event removes `id` from `clients`, in a pass that goes by the time `now`. -/
def Removes (w : Checked) (e : CheckEvent) (now : ℕ) (id : String) (client : ClientMeta) : Prop :=
  (∃ env, e = .pass env) ∧ (∃ rest, w.phase = .unsent now id rest) ∧
    w.world.app.clients.lookup id = some client

/-- Who is removed has a record that is stale at the time of the pass, and has
neither pinged nor connected since the ids were collected. -/
def RemovesStale (cfg : Config) (w : Checked) (e : CheckEvent) : Prop :=
  ∀ now id client, Removes w e now id client →
    ((cfg.aliveTimeout.toNat : ℤ) ≤ now - client.lastPing ∨
      (cfg.idleTimeout.toNat : ℤ) ≤ now - client.lastMessage) ∧ id ∉ w.pinged

/-- Who is removed has neither pinged nor connected since the ids were collected,
and has sent no message either unless it was collected for its heartbeat. -/
def NotRefreshed (cfg : Config) (w : Checked) (e : CheckEvent) : Prop :=
  ∀ now id client, Removes w e now id client → id ∉ w.pinged ∧
    (id ∈ w.spoke → ∀ old, w.taken.lookup id = some old →
      asI64 cfg.aliveTimeout ≤ now - old.lastPing)

/-- The invariant: who is still to be removed was collected with a broken record
and has it still, but for pings and messages since. -/
def Collected (cfg : Config) (w : Checked) : Prop :=
  ∀ id ∈ w.phase.pending, ∀ client, w.world.app.clients.lookup id = some client →
    id ∈ w.pinged ∨ ∃ old, w.taken.lookup id = some old ∧
      isBroken cfg w.phase.now old = true ∧ client.lastPing = old.lastPing ∧
      (client.lastMessage = old.lastMessage ∨ id ∈ w.spoke)

lemma collected_start (cfg : Config) (w : World) : Collected cfg (.start w) :=
  fun _ hid => absurd hid List.not_mem_nil

/-- An access of a pass that has begun removes records only, and adds nobody to
its list. -/
lemma checkBrokenAccess_frame (env : Env) (cfg : Config) (s : AppState) {p : CheckPhase}
    (hp : p ≠ .idle) :
    (∀ id client, (checkBrokenAccess env cfg s p).1.clients.lookup id = some client →
        s.clients.lookup id = some client) ∧
      (∀ id ∈ (checkBrokenAccess env cfg s p).2.pending,
        id ∈ p.pending ∧ (checkBrokenAccess env cfg s p).2.now = p.now) := by
  cases p with
  | idle => exact absurd rfl hp
  | evicting now rest =>
      cases rest with
      | nil => exact ⟨fun _ _ hc => hc, fun _ hid => absurd hid List.not_mem_nil⟩
      | cons id rest => exact ⟨fun _ _ hc => hc, fun _ hid => ⟨hid, rfl⟩⟩
  | unsent now id rest =>
      refine ⟨fun x client hc => ?_, fun x hx => ?_⟩
      · simp only [checkBrokenAccess, FinMap.lookup_erase_ite] at hc
        split_ifs at hc
        exact hc
      · simp only [checkBrokenAccess] at hx ⊢
        split_ifs at hx ⊢
        · exact ⟨List.mem_cons_of_mem id hx, rfl⟩
        · exact ⟨List.mem_cons_of_mem id hx, rfl⟩
  | dropped now id rest | clearing now id rest | unregistering now id rest =>
      exact ⟨fun _ _ hc => hc, fun _ hid => ⟨hid, rfl⟩⟩

/-- Every event keeps the invariant. -/
lemma Collected.step {cfg : Config} {w w' : Checked} {e : CheckEvent} (h : Collected cfg w)
    (hstep : checkStep cfg w e = some w') : Collected cfg w' := by
  cases e with
  | other l =>
      obtain ⟨world, hworld, rfl⟩ := Option.map_eq_some_iff.mp hstep
      intro id hid client' hclient'
      rcases record_of_step hworld id client' hclient' with hping | ⟨client, hclient, hp, hm⟩
      · refine Or.inl (Finset.mem_union_right _ ?_)
        rw [hping]
        simp
      · rcases h id hid client hclient with hpinged | ⟨old, hold, hbroken, hp', hm'⟩
        · exact Or.inl (Finset.mem_union_left _ hpinged)
        · refine Or.inr ⟨old, hold, hbroken, hp.trans hp', ?_⟩
          rcases hm with hm | hspeak
          · exact hm'.imp hm.trans (Finset.mem_union_left _)
          · refine Or.inr (Finset.mem_union_right _ ?_)
            rw [hspeak]
            simp
  | pass env =>
      by_cases hp : w.phase = .idle
      · simp only [checkStep, hp, Option.some.injEq] at hstep
        rw [← hstep]
        intro id hid client hclient
        exact Or.inr ⟨client, hclient, (mem_toEvict hclient).mp hid, rfl, Or.inl rfl⟩
      · obtain ⟨hrecords, hpending⟩ := checkBrokenAccess_frame env cfg w.world.app hp
        have hw' : w' = { w with
            world := { w.world with app := (checkBrokenAccess env cfg w.world.app w.phase).1 }
            phase := (checkBrokenAccess env cfg w.world.app w.phase).2 } := by
          rw [checkStep] at hstep
          split at hstep
          · exact absurd ‹_› hp
          · exact (Option.some.inj hstep).symm
        rw [hw']
        intro id hid client hclient
        obtain ⟨hid', hnow⟩ := hpending id hid
        rw [hnow]
        exact h id hid' client (hrecords id client hclient)

/-- In every interleaving of eviction passes with other events in which a pass
removes no client that was refreshed since the ids were collected, passes remove
stale clients only. -/
theorem evicts_stale {cfg : Config} (halive : cfg.aliveTimeout.toNat < 2 ^ 63) (w : World)
    {es : List CheckEvent}
    (h : AllSteps (checkStep cfg) (fun w e _ => NotRefreshed cfg w e) (.start w) es) :
    AllSteps (checkStep cfg) (fun w e _ => RemovesStale cfg w e) (.start w) es := by
  refine AllSteps.of_invariant (I := Collected cfg) ?_ (collected_start cfg w) h
  intro w e w' hinv hstep hnot
  refine ⟨hinv.step hstep, fun now id client hremoves => ?_⟩
  obtain ⟨hpinged, hspoke⟩ := hnot now id client hremoves
  obtain ⟨-, ⟨rest, hphase⟩, hclient⟩ := hremoves
  have hpending : id ∈ w.phase.pending := by
    rw [hphase]
    exact List.mem_cons_self
  have hnow : w.phase.now = now := by rw [hphase]; rfl
  rcases hinv id hpending client hclient with hp | ⟨old, hold, hbroken, hping, hmessage⟩
  · exact absurd hp hpinged
  refine ⟨?_, hpinged⟩
  rw [hnow, isBroken, Bool.or_eq_true, Bool.and_eq_true, decide_eq_true_eq, decide_eq_true_eq,
    decide_eq_true_eq] at hbroken
  rw [← asI64_of_lt halive, hping]
  rcases hmessage with hmessage | hspeak
  · rw [hmessage]
    refine hbroken.imp_right fun hidle => ?_
    rw [← asI64_of_pos hidle.1]
    exact hidle.2
  · exact Or.inl (hspoke hspeak old hold)

/-- A heartbeat. -/
def heartbeat : Message := { type_ := .HEARTBEAT }

/-- `alice` connects at time `0` and is collected when her heartbeat has run out;
`bob` connected later and pings while the pass goes on. -/
def bobPings : List CheckEvent :=
  [.other ⟨Env.quiet 0, .connect (Params.plain "alice" "a").ws⟩,
    .other ⟨Env.quiet 50000, .connect (Params.plain "bob" "b").ws⟩, .pass (Env.quiet 60000),
    .other ⟨Env.quiet 60001, .say 1 heartbeat⟩, .pass (Env.quiet 60002), .pass (Env.quiet 60003),
    .pass (Env.quiet 60004)]

theorem evicts_stale_alice :
    (run (checkStep {}) (.start (World.init {} Redis.empty)) bobPings).map
        (fun w => w.world.app.clients.keys) = some {"bob"} ∧
      AllSteps (checkStep {}) (fun w e _ => RemovesStale {} w e)
        (.start (World.init {} Redis.empty)) bobPings := by
  refine ⟨by decide +kernel, evicts_stale (by decide) _ ?_⟩
  have hcheck : AllSteps (checkStep {})
      (fun w _ _ => ∀ id ∈ w.phase.removed?, id ∉ w.pinged ∧ id ∉ w.spoke)
      (.start (World.init {} Redis.empty)) bobPings := by decide +kernel
  refine AllSteps.of_invariant (I := fun _ => True) (fun w e _ _ _ hP => ⟨trivial, ?_⟩) trivial
    hcheck
  rintro now id client ⟨-, ⟨rest, hphase⟩, -⟩
  obtain ⟨hpinged, hspoke⟩ := hP id (by rw [hphase]; rfl)
  exact ⟨hpinged, fun h => absurd h hspoke⟩

/-- `alice` is collected, pings before her turn, and is removed. -/
theorem evicts_pinged_client :
    ¬∀ (cfg : Config) (w : World) (es : List CheckEvent),
      AllSteps (checkStep cfg) (fun w e _ => RemovesStale cfg w e) (.start w) es := by
  intro hall
  let es : List CheckEvent :=
    [.other ⟨Env.quiet 0, .connect (Params.plain "alice" "a").ws⟩, .pass (Env.quiet 60000),
      .other ⟨Env.quiet 60001, .say 0 heartbeat⟩, .pass (Env.quiet 60002)]
  have heval : (run (checkStep {}) (.start (World.init {} Redis.empty)) es).map
      (fun w => (w.phase, w.world.app.clients.lookup "alice")) =
      some (.unsent 60000 "alice" [], some ⟨"a", 60001, 0, .WebSocket⟩) := by decide +kernel
  obtain ⟨w, hrun, hw⟩ := Option.map_eq_some_iff.mp heval
  obtain ⟨hphase, hclient⟩ := Prod.mk.inj hw
  have hstep : checkStep {} w (.pass (Env.quiet 60003)) = some { w with
      world := { w.world with
        app := (checkBrokenAccess (Env.quiet 60003) {} w.world.app w.phase).1 }
      phase := (checkBrokenAccess (Env.quiet 60003) {} w.world.app w.phase).2 } := by
    simp only [checkStep, hphase]
  have hstale := (hall {} _ (es ++ [.pass (Env.quiet 60003)])).last hrun hstep
  obtain ⟨hold, -⟩ := hstale 60000 "alice" _ ⟨⟨_, rfl⟩, ⟨[], hphase⟩, hclient⟩
  exact absurd hold (by decide)

end Dendri
