import Dendri.Lib.Dispatcher
import Dendri.Server.Webhook
import Dendri.System

/-!
The webhook: the events of `webhook.rs`, the handlers that emit them and the task that
delivers them.

* `WebhookEvent`, `WebhookSender`: the events with their JSON, and the sender of
  `AppState::new`, which exists for an accepted URL only;
* `handleMessageEvents`, `receiveEvents`, `connectEvents`, `announcements`: what each handler
  emits;
* `WebhookWorld`, `webhookStep`: the server and the delivery task side by side. The handlers
  do not wait for the task, and the task reads nothing of the server.
-/

namespace Dendri

open Dispatch

/-! ### Events -/

/-- `WebhookEvent`. -/
structure WebhookEvent where
  event : String
  timestamp : ℕ
  peerId : Option String := none
  room : Option String := none
  data : Option Value := none

namespace WebhookEvent

/-- `WebhookEvent::peer_connected`. -/
def peerConnected (now : ℕ) (peerId : String) : WebhookEvent :=
  { event := "peer.connected", timestamp := now, peerId := some peerId }

/-- `WebhookEvent::peer_disconnected`. -/
def peerDisconnected (now : ℕ) (peerId : String) : WebhookEvent :=
  { event := "peer.disconnected", timestamp := now, peerId := some peerId }

/-- `WebhookEvent::room_joined`. -/
def roomJoined (now : ℕ) (peerId room : String) : WebhookEvent :=
  { event := "room.joined", timestamp := now, peerId := some peerId, room := some room }

/-- `WebhookEvent::room_left`. -/
def roomLeft (now : ℕ) (peerId room : String) : WebhookEvent :=
  { event := "room.left", timestamp := now, peerId := some peerId, room := some room }

/-- `WebhookEvent::rate_limited`. -/
def rateLimited (now : ℕ) (peerId bucket : String) : WebhookEvent :=
  { event := "rate.limited", timestamp := now, peerId := some peerId
    data := some (.object [("bucket", .string bucket)]) }

/-- The serialization of an event: absent fields are left out. -/
def json (e : WebhookEvent) : Value :=
  .object ([("event", .string e.event), ("timestamp", .number (toString e.timestamp))] ++
    (e.peerId.map fun id => ("peer_id", Value.string id)).toList ++
    (e.room.map fun room => ("room", Value.string room)).toList ++
    (e.data.map fun data => ("data", data)).toList)

end WebhookEvent

/-! ### The sender -/

/-- `WEBHOOK_QUEUE_CAPACITY`, `MAX_RETRIES` and `RETRY_DELAYS`, in milliseconds. -/
def webhookLimits : Limits where
  capacity := 1024
  attempts := 3
  pause n := [1000, 5000, 25000].getD n 0
  attempts_pos := by decide

/-- The `webhook_url` and the `webhook_secret` of `Config`. -/
structure WebhookConfig where
  webhookUrl : Option String := none
  webhookSecret : Option String := none

/-- `WebhookSender`, with its queue and its delivery task. It is created for a URL that
passes the filter. -/
structure WebhookSender (parse : String → Option Url) where
  url : String
  secret : Option String
  safe : isSafeWebhookUrl parse url = true
  task : Dispatcher WebhookEvent := {}

/-- The `webhook` of `AppState::new`. -/
def newWebhook (parse : String → Option Url) (cfg : WebhookConfig) :
    Option (WebhookSender parse) :=
  match cfg.webhookUrl with
  | none => none
  | some url =>
      if h : isSafeWebhookUrl parse url = true then
        some { url := url, secret := cfg.webhookSecret, safe := h }
      else none

/-- The request of one attempt. -/
structure WebhookRequest where
  url : String
  headers : List (String × String)
  body : String

/-- What the delivery task uses of other crates: `serde_json::to_string`, and the hexadecimal
HMAC of a payload under a secret. -/
structure WebhookCodec where
  render : Value → String
  hmac : String → String → String

namespace WebhookSender

variable {parse : String → Option Url}

/-- `emit`: a full queue drops the event. -/
def emit (s : WebhookSender parse) (e : WebhookEvent) : WebhookSender parse :=
  { s with task := offer webhookLimits s.task e }

/-- The request for an event, the same for each attempt. -/
def request (s : WebhookSender parse) (codec : WebhookCodec) (e : WebhookEvent) : WebhookRequest :=
  let payload := codec.render e.json
  { url := s.url
    headers := [("Content-Type", "application/json"), ("X-Dendri-Event", e.event)] ++
      (s.secret.map fun secret =>
        ("X-Dendri-Signature", s!"sha256={codec.hmac secret payload}")).toList
    body := payload }

end WebhookSender

/-! ### What the handlers emit -/

/-- The event of `handle_room_join`, for a join that is not denied. -/
def handleRoomJoinEvents (env : Env) (cfg : Config) (s : AppState) (clientId : String)
    (msg : Message) : List WebhookEvent :=
  match msg.room with
  | none => []
  | some roomName =>
      match joinDenial cfg s clientId roomName with
      | some _ => []
      | none => [.roomJoined env.now clientId roomName]

/-- The event of `handle_room_leave`, whether or not the client was in the room. -/
def handleRoomLeaveEvents (env : Env) (clientId : String) (msg : Message) : List WebhookEvent :=
  match msg.room with
  | none => []
  | some roomName =>
      if !isValidIdentifier roomName then [] else [.roomLeft env.now clientId roomName]

/-- The events of `handle_message`. -/
def handleMessageEvents (env : Env) (cfg : Config) (s : AppState) (clientId : String)
    (msg : Message) : List WebhookEvent :=
  match msg.type_ with
  | .RoomJoin => handleRoomJoinEvents env cfg s clientId msg
  | .RoomLeave => handleRoomLeaveEvents env clientId msg
  | _ => []

/-- The events of a parsed message of either transport: those of its handler, or the refusal
by the rate limiter. -/
def receiveEvents (env : Env) (cfg : Config) (s : AppState) (clientId : String) (msg : Message) :
    List WebhookEvent :=
  match msg.type_.bucket with
  | some bucket =>
      if env.governorCheck clientId bucket then handleMessageEvents env cfg s clientId msg
      else [.rateLimited env.now clientId bucket]
  | none => handleMessageEvents env cfg s clientId msg

/-- The events of a connect request: `run_client` and `sse_handler` announce every admitted
connection, `poll_handler` the first poll of a client. -/
def connectEvents (env : Env) (cfg : Config) (s : AppState) (r : Request) : List WebhookEvent :=
  match connect env cfg s r, r with
  | .rejected _ _, _ => []
  | .admitted K _, .ws _ | .admitted K _, .sse _ => [.peerConnected env.now K.id]
  | .admitted K _, .poll q =>
      if (s.clients.lookup q.id).isNone then [.peerConnected env.now K.id] else []

/-- The events of a step. The end of `run_client` and `cleanup_client` announce the peers
they remove; a `LEAVE`, a dead destination, `check_broken` and an expired session announce
nothing. -/
def announcements (cfg : Config) (w : World) (l : Label) : List WebhookEvent :=
  match l.event with
  | .connect r => connectEvents l.env cfg w.app r
  | ev =>
      match incoming cfg w ev, cleanedUp w ev with
      | some (id, msg), _ => receiveEvents l.env cfg w.app id msg
      | none, some (_, K) => [.peerDisconnected l.env.now K.id]
      | none, none => []

/-! ### The server and the delivery task -/

/-- The server, the events that its handlers have emitted and the webhook, if there is one. -/
structure WebhookWorld (parse : String → Option Url) where
  world : World
  emitted : List WebhookEvent
  webhook : Option (WebhookSender parse)

/-- A step of the server, or an action of the delivery task at some time. -/
inductive WebhookLabel where
  | server (l : Label)
  | task (now : ℕ) (t : Work)

/-- The server and the delivery task, interleaved. -/
def webhookStep (parse : String → Option Url) (cfg : Config) (w : WebhookWorld parse) :
    WebhookLabel → Option (WebhookWorld parse)
  | .server l =>
      (step cfg w.world l).map fun world =>
        let events := announcements cfg w.world l
        ⟨world, w.emitted ++ events, w.webhook.map fun s => events.foldl WebhookSender.emit s⟩
  | .task now t =>
      w.webhook.bind fun s =>
        (work webhookLimits s.task now t).map fun task =>
          { w with webhook := some { s with task := task } }

/-- An empty server with its webhook. -/
def WebhookWorld.init (parse : String → Option Url) (cfg : Config) (webhook : WebhookConfig)
    (redis : Redis) : WebhookWorld parse :=
  ⟨World.init cfg redis, [], newWebhook parse webhook⟩

end Dendri
