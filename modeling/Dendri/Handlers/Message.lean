import Dendri.Handlers.Rooms

/-!
`handlers/message.rs`, the dispatch of an incoming message and the handlers
that are not about joining or leaving, together with the two places that feed
it: the read loop of `run_client` in `handlers/ws.rs` and `send_handler` in
`handlers/http.rs`.

* `handleTransmission`, `handleData`, `handlePresenceUpdate`, `handleMessage`;
* `removedBy`: the client a relayed message removes, if any: the destination
  whose channel turns out to be closed, or the sender of a `LEAVE` without
  destination;
* `registry_handleMessage`, `moves_handleMessage`: a message acts on the
  registry through `removedBy` and the replay buffer only, and on memberships
  through joining and leaving only.
-/

namespace Dendri

open AppState

/-! ### Relaying between peers -/

/-- `send_leave_to_source`. -/
def sendLeaveToSource (s : AppState) (fromId toId : String) : AppState :=
  s.sendTo toId [.relay { type_ := .LEAVE, src := some fromId, dst := some toId }]

/-- `handle_transmission`. -/
def handleTransmission (env : Env) (s : AppState) (msg : Message) : AppState :=
  let srcId := msg.src.getD ""
  let dstId := msg.dst.getD ""
  if dstId ≠ "" then
    match s.wsSenders.lookup dstId with
    | some c =>
        if (s.chans c).closed then
          sendLeaveToSource ((s.dropClient dstId).redisRemoveClient env dstId) dstId srcId
        else s.send c [.relay msg]
    | none =>
        if msg.type_ = .LEAVE ∨ msg.type_ = .EXPIRE then s
        else s.redisAddMessageToQueue env dstId (.message msg)
  else if msg.type_ = .LEAVE then (s.dropClient srcId).redisRemoveClient env srcId
  else s

/-- The client a relayed message removes. -/
def removedBy (s : AppState) (msg : Message) : Option String :=
  let dstId := msg.dst.getD ""
  if dstId ≠ "" then
    match s.wsSenders.lookup dstId with
    | some c => if (s.chans c).closed then some dstId else none
    | none => none
  else if msg.type_ = .LEAVE then some (msg.src.getD "")
  else none

/-! ### Relaying data -/

/-- `replay_buffer.push`, unless the message is ephemeral. -/
def bufferRelay (env : Env) (s : AppState) (key : String) (seq : ℕ) (msg : Message) : AppState :=
  { s with
    replayBuffer :=
      if msg.topicClass = some "ephemeral" then s.replayBuffer
      else s.replayBuffer.push env.now key seq (.relay msg) }

/-- The room fan-out of `handle_data` and `handle_presence_update`: every
member of the room except the sender. -/
def roomFanOut (s : AppState) (clientId key : String) (frame : Frame) : AppState :=
  s.fanOut (((s.rooms.lookup key).getD ∅).erase clientId) frame

/-- A room or destination that is present is a valid identifier. -/
def validIfPresent (name : Option String) : Bool :=
  match name with
  | some name => isValidIdentifier name
  | none => true

/-- `handle_data`. -/
def handleData (env : Env) (cfg : Config) (s : AppState) (clientId : String) (msg : Message) :
    AppState :=
  if !cfg.enableRelay then s.sendTo clientId [.error "Relay not enabled on this server"]
  else if !validIfPresent msg.room || !validIfPresent msg.dst then s
  else
    let seq := s.seqCounter + 1
    let s := { s with seqCounter := seq }
    let msg := { msg with seq := some seq, timestamp := some (env.now : ℤ) }
    match msg.room with
    | some roomName =>
        let key := roomKey s clientId roomName
        bufferRelay env (roomFanOut s clientId key (.relay msg)) key seq msg
    | none =>
        match msg.dst with
        | some dstId => bufferRelay env (s.sendTo dstId [.relay msg]) dstId seq msg
        | none => s

/-- `handle_presence_update`. -/
def handlePresenceUpdate (s : AppState) (clientId : String) (msg : Message) : AppState :=
  match msg.room with
  | none => s
  | some roomName =>
      if !isValidIdentifier roomName then s
      else
        let roomStored := roomKey s clientId roomName
        let s :=
          { s with
            presence :=
              match msg.payload with
              | some payload =>
                  s.presence.insert roomStored
                    (((s.presence.lookup roomStored).getD ∅).insert clientId payload)
              | none => s.presence }
        roomFanOut s clientId roomStored (.relay msg)

/-! ### Dispatch -/

/-- `handle_message`: the source id is overwritten, activity is recorded, and
the message goes to the handler of its type. -/
def handleMessage (env : Env) (cfg : Config) (s : AppState) (clientId : String) (msg : Message) :
    AppState :=
  let msg := { msg with src := some clientId }
  let s := if msg.type_ ≠ .HEARTBEAT then s.recordMessage env.now clientId else s
  match msg.type_ with
  | .HEARTBEAT => s.touch env.now clientId
  | .OFFER | .ANSWER | .CANDIDATE | .ACK | .LEAVE | .EXPIRE => handleTransmission env s msg
  | .DATA => handleData env cfg s clientId msg
  | .RoomJoin => handleRoomJoin env cfg s clientId msg
  | .RoomLeave => handleRoomLeave s clientId msg
  | .PresenceUpdate => handlePresenceUpdate s clientId msg
  | .OPEN | .IdTaken | .ERROR | .RoomPeers => s

/-- The types `handle_message` hands to `handle_transmission`. -/
def MessageType.isTransmission : MessageType → Bool
  | .OFFER | .ANSWER | .CANDIDATE | .ACK | .LEAVE | .EXPIRE => true
  | _ => false

/-- Charge the bucket of a message, if it has one. -/
def meter (env : Env) (s : AppState) (clientId : String) (type_ : MessageType) : AppState × Bool :=
  match type_.bucket with
  | some bucket => s.checkAndConsume env clientId bucket
  | none => (s, true)

/-- A parsed message of either transport: metered, and handled if the rate
limit allows it. -/
def receive (env : Env) (cfg : Config) (s : AppState) (clientId : String) (msg : Message) :
    AppState × Bool :=
  let (s, allowed) := meter env s clientId msg.type_
  if allowed then (handleMessage env cfg s clientId msg, true) else (s, false)

/-- One text frame in the read loop of `run_client`; `c` is the connection's
own channel, `len` the length of the text and `parsed` the message it holds. -/
def wsText (env : Env) (cfg : Config) (s : AppState) (c : ℕ) (clientId : String) (len : ℕ)
    (parsed : Option Message) : AppState :=
  if cfg.maxMessageSize < len then
    s.send c [.error s!"Message exceeds maximum size of {cfg.maxMessageSize} bytes"]
  else
    match parsed with
    | none => s
    | some msg =>
        let (s, allowed) := receive env cfg s clientId msg
        if allowed then s else s.send c [.error "Rate limit exceeded"]

/-- `send_handler`: the state and the HTTP status. -/
def sendHandler (env : Env) (cfg : Config) (s : AppState) (id token : String)
    (parsed : Option Message) : AppState × ℕ :=
  match s.clients.lookup id with
  | none => (s, 401)
  | some client =>
      if client.token = token then
        let s := s.touch env.now id
        match parsed with
        | none => (s, 400)
        | some msg =>
            let (s, allowed) := receive env cfg s id msg
            (s, if allowed then 200 else 429)
      else (s, 401)

/-! ### What a message does to the registry -/

/-- Whether the rate limiter lets a message of this type pass. -/
def allowed (env : Env) (clientId : String) (type_ : MessageType) : Bool :=
  match type_.bucket with
  | some bucket => env.governorCheck clientId bucket
  | none => true

/-- The registry after the bucket of a message type was charged. -/
def Registry.meter (g : Registry) (clientId : String) (type_ : MessageType) : Registry :=
  match type_.bucket with
  | some bucket => g.charge clientId bucket
  | none => g

/-- The registry after the removal of a client, if any. -/
def Registry.dropIfAny (g : Registry) : Option String → Registry
  | some id => g.drop id
  | none => g

/-- The client that the handling of a message removes. -/
def removes (s : AppState) (clientId : String) (msg : Message) : Option String :=
  if msg.type_.isTransmission then removedBy s { msg with src := some clientId } else none

/-- The key a message is buffered under for replay. -/
def bufferKey (cfg : Config) (s : AppState) (clientId : String) (msg : Message) : Option String :=
  if msg.type_ = .DATA ∧ cfg.enableRelay ∧ validIfPresent msg.room ∧ validIfPresent msg.dst ∧
      msg.topicClass ≠ some "ephemeral" then
    match msg.room with
    | some roomName => some (roomKey s clientId roomName)
    | none => msg.dst
  else none

/-- The buffer key depends on the state through the sender's tenant only. -/
lemma bufferKey_congr {cfg : Config} {s t : AppState} {id : String} {msg msg' : Message}
    (ht : t.clientTenants = s.clientTenants) (h₁ : msg'.type_ = msg.type_)
    (h₂ : msg'.room = msg.room) (h₃ : msg'.dst = msg.dst)
    (h₄ : msg'.topicClass = msg.topicClass) :
    bufferKey cfg t id msg' = bufferKey cfg s id msg := by
  simp only [bufferKey, roomKey, ht, h₁, h₂, h₃, h₄]

lemma meter_eq (env : Env) (s : AppState) (id : String) (type_ : MessageType) :
    (meter env s id type_).2 = allowed env id type_ ∧
      (meter env s id type_).1.registry = s.registry.meter id type_ := by
  rw [meter, allowed, Registry.meter]
  cases type_.bucket with
  | none => exact ⟨rfl, rfl⟩
  | some bucket => exact ⟨rfl, rfl⟩

lemma registry_handleTransmission (env : Env) (s : AppState) (msg : Message) :
    (handleTransmission env s msg).registry = s.registry.dropIfAny (removedBy s msg) := by
  rw [handleTransmission, removedBy]
  by_cases hdst : msg.dst.getD "" ≠ ""
  · rw [if_pos hdst, if_pos hdst]
    cases s.wsSenders.lookup (msg.dst.getD "") with
    | none => dsimp only; split_ifs <;> rfl
    | some c =>
        dsimp only
        split_ifs
        · exact registry_dropClient s _
        · rfl
  · rw [if_neg hdst, if_neg hdst]
    split_ifs
    · exact registry_dropClient s _
    · rfl

/-- The message that data is relayed as. -/
def numbered (env : Env) (s : AppState) (msg : Message) : Message :=
  { msg with seq := some (s.seqCounter + 1), timestamp := some (env.now : ℤ) }

/-- Data passes the checks of `handle_data`. -/
structure Relays (cfg : Config) (msg : Message) : Prop where
  enabled : cfg.enableRelay = true
  room : validIfPresent msg.room = true
  dst : validIfPresent msg.dst = true

/-- A property of the state after data: the data is answered with an error or
ignored, or it is counted and relayed to a room, to a peer or to nobody. -/
lemma handleData_induction {P : AppState → Prop} {env : Env} {cfg : Config} {s : AppState}
    {id : String} {msg : Message}
    (disabled : P (s.sendTo id [.error "Relay not enabled on this server"])) (invalid : P s)
    (room : ∀ room, Relays cfg msg → msg.room = some room →
      P (bufferRelay env (roomFanOut { s with seqCounter := s.seqCounter + 1 } id
        (roomKey s id room) (.relay (numbered env s msg))) (roomKey s id room) (s.seqCounter + 1)
        (numbered env s msg)))
    (peer : ∀ dst, Relays cfg msg → msg.room = none → msg.dst = some dst →
      P (bufferRelay env (AppState.sendTo { s with seqCounter := s.seqCounter + 1 } dst
        [.relay (numbered env s msg)]) dst (s.seqCounter + 1) (numbered env s msg)))
    (nobody : P { s with seqCounter := s.seqCounter + 1 }) :
    P (handleData env cfg s id msg) := by
  rw [handleData]
  split_ifs with hrelay hvalid
  · exact disabled
  · exact invalid
  · have hv : validIfPresent msg.room = true ∧ validIfPresent msg.dst = true := by
      simpa using hvalid
    have hrelays : Relays cfg msg := ⟨by simpa using hrelay, hv.1, hv.2⟩
    obtain ⟨type_, src, dst, payload, seq, roomName, timestamp, topicClass⟩ := msg
    cases roomName with
    | some roomName => exact room roomName hrelays rfl
    | none =>
        cases dst with
        | some dst => exact peer dst hrelays rfl rfl
        | none => exact nobody

/-- Relayed data touches nothing of the registry but the replay buffer. -/
lemma registry_handleData (env : Env) (cfg : Config) (s : AppState) (id : String)
    (msg : Message) :
    (handleData env cfg s id msg).registry =
      { s.registry with replay := (handleData env cfg s id msg).replayBuffer } := by
  refine handleData_induction (P := fun t => t.registry = { s.registry with
    replay := t.replayBuffer }) ?_ ?_ ?_ ?_ ?_
  · rfl
  · rfl
  · exact fun _ _ _ => rfl
  · exact fun _ _ _ _ => rfl
  · rfl

lemma registry_handlePresenceUpdate (s : AppState) (id : String) (msg : Message) :
    (handlePresenceUpdate s id msg).registry = s.registry := by
  rw [handlePresenceUpdate]
  split
  · rfl
  · split_ifs <;> rfl

/-- The activity record of a message, which no registry entry shows. -/
def recorded (env : Env) (s : AppState) (id : String) (type_ : MessageType) : AppState :=
  if type_ ≠ .HEARTBEAT then s.recordMessage env.now id else s

lemma registry_recorded (env : Env) (s : AppState) (id : String) (type_ : MessageType) :
    (recorded env s id type_).registry = s.registry := by
  rw [recorded]
  split_ifs
  · exact registry_recordMessage s env.now id
  · rfl

/-- The dispatch, as a rule: a property of the state after a message is shown
handler by handler, for the message with its source overwritten. -/
lemma handleMessage_induction {P : AppState → Prop} {env : Env} {cfg : Config} {s : AppState}
    {id : String} {msg : Message}
    (heartbeat : msg.type_ = .HEARTBEAT → P (s.touch env.now id))
    (transmission : msg.type_.isTransmission = true →
      P (handleTransmission env (recorded env s id msg.type_) { msg with src := some id }))
    (data : msg.type_ = .DATA →
      P (handleData env cfg (recorded env s id msg.type_) id { msg with src := some id }))
    (join : msg.type_ = .RoomJoin →
      P (handleRoomJoin env cfg (recorded env s id msg.type_) id { msg with src := some id }))
    (leave : msg.type_ = .RoomLeave →
      P (handleRoomLeave (recorded env s id msg.type_) id { msg with src := some id }))
    (presence : msg.type_ = .PresenceUpdate →
      P (handlePresenceUpdate (recorded env s id msg.type_) id { msg with src := some id }))
    (ignored : msg.type_ ∉ [MessageType.HEARTBEAT, .DATA, .RoomJoin, .RoomLeave,
      .PresenceUpdate] → msg.type_.isTransmission = false → P (recorded env s id msg.type_)) :
    P (handleMessage env cfg s id msg) := by
  obtain ⟨type_, src, dst, payload, seq, room, timestamp, topicClass⟩ := msg
  cases type_ with
  | HEARTBEAT => exact heartbeat rfl
  | OFFER | ANSWER | CANDIDATE | ACK | LEAVE | EXPIRE => exact transmission rfl
  | DATA => exact data rfl
  | RoomJoin => exact join rfl
  | RoomLeave => exact leave rfl
  | PresenceUpdate => exact presence rfl
  | OPEN | IdTaken | ERROR | RoomPeers => exact ignored (by simp) rfl

/-- A message acts on the registry by the removal of `removes` and by the
replay buffer only. -/
lemma registry_handleMessage (env : Env) (cfg : Config) (s : AppState) (id : String)
    (msg : Message) :
    (handleMessage env cfg s id msg).registry =
      { s.registry.dropIfAny (removes s id msg) with
        replay := (handleMessage env cfg s id msg).replayBuffer } := by
  have hrec := registry_recorded env s id msg.type_
  -- every handler but `handle_transmission` leaves the clients alone
  have hkeep : ∀ t : AppState, msg.type_.isTransmission = false → t.registry = s.registry →
      t.registry = { s.registry.dropIfAny (removes s id msg) with replay := t.replayBuffer } := by
    intro t htype ht
    have hnone : removes s id msg = none := by rw [removes, htype]; rfl
    rw [hnone, Registry.dropIfAny, ← ht]
    rfl
  refine handleMessage_induction (P := fun t => t.registry =
    { s.registry.dropIfAny (removes s id msg) with replay := t.replayBuffer }) ?_ ?_ ?_ ?_ ?_ ?_ ?_
  · intro h
    exact hkeep _ (by rw [h]; rfl) (registry_touch s env.now id)
  · intro h
    have hremoved : removedBy (recorded env s id msg.type_) { msg with src := some id } =
        removes s id msg := by
      rw [removes, if_pos h, recorded]
      split_ifs <;> rfl
    have ht := registry_handleTransmission env (recorded env s id msg.type_)
      { msg with src := some id }
    rw [hrec, hremoved] at ht
    rw [← ht]
    rfl
  · intro h
    have hd := registry_handleData env cfg (recorded env s id msg.type_) id
      { msg with src := some id }
    have hnone : removes s id msg = none := by rw [removes, h]; rfl
    rw [hrec] at hd
    rw [hnone]
    exact hd
  · intro h
    exact hkeep _ (by rw [h]; rfl) ((registry_handleRoomJoin env cfg _ id _).trans hrec)
  · intro h
    exact hkeep _ (by rw [h]; rfl) ((registry_handleRoomLeave _ id _).trans hrec)
  · intro h
    exact hkeep _ (by rw [h]; rfl) ((registry_handlePresenceUpdate _ id _).trans hrec)
  · exact fun _ h => hkeep _ h hrec

/-- A received message charges its bucket and, if allowed, acts as
`handle_message` does. -/
lemma registry_receive (env : Env) (cfg : Config) (s : AppState) (id : String) (msg : Message) :
    (receive env cfg s id msg).1.registry =
      { (s.registry.meter id msg.type_).dropIfAny
          (if allowed env id msg.type_ then removes s id msg else none) with
        replay := (receive env cfg s id msg).1.replayBuffer } := by
  obtain ⟨hok, hreg⟩ := meter_eq env s id msg.type_
  have hremoves : removes (meter env s id msg.type_).1 id msg = removes s id msg := by
    rw [meter]
    cases msg.type_.bucket with
    | none => rfl
    | some bucket => rfl
  rw [receive]
  dsimp only
  rw [hok]
  cases allowed env id msg.type_ with
  | false =>
      rw [← hreg]
      rfl
  | true =>
      have h := registry_handleMessage env cfg (meter env s id msg.type_).1 id msg
      rw [hreg, hremoves] at h
      exact h

/-! ### What a message does to the replay buffer -/

lemma holds_bufferRelay {env : Env} {s : AppState} {key k : String} {seq : ℕ} {out : Message}
    {m : BufferedMessage Frame} (h : (bufferRelay env s key seq out).replayBuffer.Holds k m) :
    s.replayBuffer.Holds k m ∨
      (k = key ∧ out.topicClass ≠ some "ephemeral" ∧ m.data = .relay out) := by
  simp only [bufferRelay] at h
  split_ifs at h with heph
  · exact Or.inl h
  · rcases ReplayBuffer.holds_push h with hold | ⟨hk, rfl⟩
    · exact Or.inl hold
    · exact Or.inr ⟨hk, heph, rfl⟩

/-- After relayed data a buffer holds what it held before, and the message
under its `bufferKey`. -/
lemma holds_handleData {env : Env} {cfg : Config} {s : AppState} {id : String} {msg : Message}
    {k : String} {m : BufferedMessage Frame} (htype : msg.type_ = .DATA)
    (h : (handleData env cfg s id msg).replayBuffer.Holds k m) :
    s.replayBuffer.Holds k m ∨ (bufferKey cfg s id msg = some k ∧
      ∃ out, m.data = .relay out ∧ out.type_ = .DATA ∧ out.room = msg.room ∧
        out.dst = msg.dst) := by
  have hbuffered : ∀ (t : AppState) (key : String), t.replayBuffer = s.replayBuffer →
      (¬msg.topicClass = some "ephemeral" → bufferKey cfg s id msg = some key) →
      (bufferRelay env t key (s.seqCounter + 1) (numbered env s msg)).replayBuffer.Holds k m →
      s.replayBuffer.Holds k m ∨ (bufferKey cfg s id msg = some k ∧
        ∃ out, m.data = .relay out ∧ out.type_ = .DATA ∧ out.room = msg.room ∧
          out.dst = msg.dst) := by
    intro t key ht hkey hh
    rcases holds_bufferRelay hh with hold | ⟨rfl, heph, hdata⟩
    · exact Or.inl (ht ▸ hold)
    · exact Or.inr ⟨hkey heph, _, hdata, htype, rfl, rfl⟩
  revert h
  refine handleData_induction (P := fun t => t.replayBuffer.Holds k m → _) ?_ ?_ ?_ ?_ ?_
  · exact fun h => Or.inl h
  · exact fun h => Or.inl h
  · intro room hrelays hroom
    refine hbuffered _ _ rfl fun heph => ?_
    rw [bufferKey, if_pos ⟨htype, hrelays.enabled, hrelays.room, hrelays.dst, heph⟩, hroom]
  · intro dst hrelays hroom hdst
    refine hbuffered _ _ rfl fun heph => ?_
    rw [bufferKey, if_pos ⟨htype, hrelays.enabled, hrelays.room, hrelays.dst, heph⟩, hroom]
    exact hdst
  · exact fun h => Or.inl h

/-- Whatever a message is, a buffer holds afterwards what it held before, and
the message itself under its `bufferKey`. -/
lemma holds_handleMessage {env : Env} {cfg : Config} {s : AppState} {id : String}
    {msg : Message} {k : String} {m : BufferedMessage Frame}
    (h : (handleMessage env cfg s id msg).replayBuffer.Holds k m) :
    s.replayBuffer.Holds k m ∨ (bufferKey cfg s id msg = some k ∧
      ∃ out, m.data = .relay out ∧ out.type_ = .DATA ∧ out.room = msg.room ∧
        out.dst = msg.dst) := by
  have hrec := registry_recorded env s id msg.type_
  have hkeep : ∀ t : AppState, t.registry.replay = s.replayBuffer →
      t.replayBuffer.Holds k m → s.replayBuffer.Holds k m := fun t ht hh => ht ▸ hh
  revert h
  refine handleMessage_induction (P := fun t => t.replayBuffer.Holds k m → _)
    ?_ ?_ ?_ ?_ ?_ ?_ ?_
  · exact fun _ h => Or.inl (hkeep _ (by rw [registry_touch]; rfl) h)
  · intro _ h
    refine Or.inl (hkeep _ ?_ h)
    rw [registry_handleTransmission, hrec]
    cases removedBy (recorded env s id msg.type_) { msg with src := some id } <;> rfl
  · intro htype h
    have hkey : bufferKey cfg (recorded env s id msg.type_) id { msg with src := some id } =
        bufferKey cfg s id msg :=
      bufferKey_congr (congrArg Registry.tenants hrec) rfl rfl rfl rfl
    have htype' : ({ msg with src := some id } : Message).type_ = .DATA := htype
    rcases holds_handleData htype' h with hold | ⟨hk, hout⟩
    · exact Or.inl (hkeep _ (by rw [hrec]; rfl) hold)
    · rw [hkey] at hk
      exact Or.inr ⟨hk, hout⟩
  · exact fun _ h => Or.inl (hkeep _ (by rw [registry_handleRoomJoin, hrec]; rfl) h)
  · exact fun _ h => Or.inl (hkeep _ (by rw [registry_handleRoomLeave, hrec]; rfl) h)
  · exact fun _ h => Or.inl (hkeep _ (by rw [registry_handlePresenceUpdate, hrec]; rfl) h)
  · exact fun _ _ h => Or.inl (hkeep _ (by rw [hrec]; rfl) h)

lemma holds_receive {env : Env} {cfg : Config} {s : AppState} {id : String} {msg : Message}
    {k : String} {m : BufferedMessage Frame}
    (h : (receive env cfg s id msg).1.replayBuffer.Holds k m) :
    s.replayBuffer.Holds k m ∨ (allowed env id msg.type_ = true ∧
      bufferKey cfg s id msg = some k ∧
      ∃ out, m.data = .relay out ∧ out.type_ = .DATA ∧ out.room = msg.room ∧
        out.dst = msg.dst) := by
  have hmeter : (meter env s id msg.type_).1.replayBuffer = s.replayBuffer ∧
      (meter env s id msg.type_).1.clientTenants = s.clientTenants := by
    rw [meter]
    cases msg.type_.bucket with
    | none => exact ⟨rfl, rfl⟩
    | some bucket => exact ⟨rfl, rfl⟩
  rw [receive] at h
  dsimp only at h
  rw [(meter_eq env s id msg.type_).1] at h
  split_ifs at h with hallowed
  · have hm := holds_handleMessage h
    rw [hmeter.1, bufferKey_congr hmeter.2 rfl rfl rfl rfl] at hm
    exact hm.imp_right fun hnew => ⟨hallowed, hnew⟩
  · rw [hmeter.1] at h
    exact Or.inl h

/-- A message between peers leaves the replay buffer alone, also when it removes
a client. -/
lemma replayBuffer_handleMessage (env : Env) (cfg : Config) (s : AppState) {id : String}
    {msg : Message} (h : msg.type_.isTransmission = true) :
    (handleMessage env cfg s id msg).replayBuffer = s.replayBuffer := by
  have hother : ∀ type_, msg.type_ = type_ → type_.isTransmission = true := fun _ ht => ht ▸ h
  refine handleMessage_induction (P := fun t => t.replayBuffer = s.replayBuffer)
    ?_ ?_ ?_ ?_ ?_ ?_ ?_
  · exact fun ht => absurd (hother _ ht) (by decide)
  · intro _
    have hreg := registry_handleTransmission env (recorded env s id msg.type_)
      { msg with src := some id }
    rw [registry_recorded] at hreg
    refine (congrArg Registry.replay hreg).trans ?_
    cases removedBy (recorded env s id msg.type_) { msg with src := some id } <;> rfl
  · exact fun ht => absurd (hother _ ht) (by decide)
  · exact fun ht => absurd (hother _ ht) (by decide)
  · exact fun ht => absurd (hother _ ht) (by decide)
  · exact fun ht => absurd (hother _ ht) (by decide)
  · exact fun _ hno => absurd (hno.symm.trans h) (by decide)

lemma replayBuffer_receive (env : Env) (cfg : Config) (s : AppState) {id : String}
    {msg : Message} (h : msg.type_.isTransmission = true) :
    (receive env cfg s id msg).1.replayBuffer = s.replayBuffer := by
  have hmeter : (meter env s id msg.type_).1.replayBuffer = s.replayBuffer := by
    rw [meter]
    cases msg.type_.bucket with
    | none => rfl
    | some bucket => rfl
  rw [receive]
  dsimp only
  split_ifs
  · exact (replayBuffer_handleMessage env cfg _ h).trans hmeter
  · exact hmeter

/-! ### What a message does to memberships -/

/-- The room a message makes its sender join. -/
def joins (cfg : Config) (s : AppState) (clientId : String) (msg : Message) : Option String :=
  if msg.type_ = .RoomJoin then
    msg.room.bind fun room =>
      if joinDenial cfg s clientId room = none then some (roomKey s clientId room) else none
  else none

lemma room_of_joins {cfg : Config} {s : AppState} {id key : String} {msg : Message}
    (h : joins cfg s id msg = some key) :
    ∃ room, msg.room = some room ∧ key = roomKey s id room := by
  rw [joins] at h
  split_ifs at h
  obtain ⟨room, hroom, hkey⟩ := Option.bind_eq_some_iff.mp h
  split_ifs at hkey
  exact ⟨room, hroom, (Option.some.inj hkey).symm⟩

/-- An accepted join passed the name check and the claims gate. -/
lemma checks_of_joins {cfg : Config} {s : AppState} {id : String} {msg : Message}
    {room key : String} (hroom : msg.room = some room) (h : joins cfg s id msg = some key) :
    isValidIdentifier room = true ∧ claimsRefuse s id room = false := by
  have hdenial : joinDenial cfg s id room = none := by
    rw [joins] at h
    split_ifs at h
    rw [hroom, Option.bind_some] at h
    by_contra hne
    rw [if_neg hne] at h
    exact absurd h (by simp)
  rw [joinDenial] at hdenial
  cases hvalid : isValidIdentifier room with
  | false => simp [hvalid] at hdenial
  | true =>
      cases hrefuse : claimsRefuse s id room with
      | false => exact ⟨rfl, rfl⟩
      | true => simp [hvalid, hrefuse] at hdenial

/-- The room a message makes its sender leave. -/
def leaves (s : AppState) (clientId : String) (msg : Message) : Option String :=
  if msg.type_ = .RoomLeave then
    msg.room.bind fun room =>
      if isValidIdentifier room then some (roomKey s clientId room) else none
  else none

/-- Memberships after a message that joins or leaves at most one room. -/
def movedBy (L : Ledger String String) (id : String) (joined left : Option String) :
    Ledger String String :=
  match joined, left with
  | some key, _ => L.join id key
  | none, some key => L.leave id key
  | none, none => L

lemma roomMaps_handleTransmission (env : Env) (s : AppState) (msg : Message) :
    (handleTransmission env s msg).roomMaps = s.roomMaps := by
  rw [handleTransmission]
  by_cases hdst : msg.dst.getD "" ≠ ""
  · rw [if_pos hdst]
    cases s.wsSenders.lookup (msg.dst.getD "") with
    | none => dsimp only; split_ifs <;> rfl
    | some c => dsimp only; split_ifs <;> rfl
  · rw [if_neg hdst]
    split_ifs <;> rfl

lemma roomMaps_handleData (env : Env) (cfg : Config) (s : AppState) (id : String)
    (msg : Message) : (handleData env cfg s id msg).roomMaps = s.roomMaps := by
  refine handleData_induction (P := fun t => t.roomMaps = s.roomMaps) ?_ ?_ ?_ ?_ ?_
  · rfl
  · rfl
  · exact fun _ _ _ => rfl
  · exact fun _ _ _ _ => rfl
  · rfl

lemma roomMaps_handlePresenceUpdate (s : AppState) (id : String) (msg : Message) :
    (handlePresenceUpdate s id msg).roomMaps = s.roomMaps := by
  rw [handlePresenceUpdate]
  split
  · rfl
  · split_ifs <;> rfl

/-- What joining and leaving read is not changed by the activity record. -/
lemma reads_recorded (env : Env) (cfg : Config) (s : AppState) (id : String)
    (type_ : MessageType) :
    (∀ room, joinDenial cfg (recorded env s id type_) id room = joinDenial cfg s id room) ∧
      (∀ room, roomKey (recorded env s id type_) id room = roomKey s id room) ∧
      (recorded env s id type_).roomMaps = s.roomMaps := by
  rw [recorded]
  split_ifs
  · exact ⟨fun _ => rfl, fun _ => rfl, rfl⟩
  · exact ⟨fun _ => rfl, fun _ => rfl, rfl⟩

/-- Entries after a message: an accepted join makes one for its sender. -/
def Entries.joinedBy (e : Entries) (id : String) : Option String → Entries
  | some _ => { e with indexed := insert id e.indexed }
  | none => e

/-- How a message that joins `joined` and leaves `left` changes memberships and
entries: nothing else happens to them, and no room is left empty. -/
structure Moves (id : String) (joined left : Option String) (s t : AppState) : Prop where
  ledger : t.ledger = movedBy s.ledger id joined left
  entries : t.entries = s.entries.joinedBy id joined
  noEmptyRoom : NoEmptyRoom s → NoEmptyRoom t

lemma Moves.of_roomMaps {id : String} {s t : AppState} (h : t.roomMaps = s.roomMaps) :
    Moves id none none s t :=
  let ⟨hl, he, hn⟩ := memberships_of_roomMaps h
  ⟨hl, he, hn⟩

/-- The statements before a handler that leave the three maps alone do not
count. -/
lemma Moves.of_roomMaps_left {id : String} {joined left : Option String} {s t u : AppState}
    (h : t.roomMaps = s.roomMaps) (hm : Moves id joined left t u) : Moves id joined left s u := by
  obtain ⟨hl, he, hn⟩ := memberships_of_roomMaps h
  refine ⟨?_, ?_, fun hs => hm.noEmptyRoom (hn hs)⟩
  · rw [hm.ledger, hl]
  · rw [hm.entries, he]

lemma moves_handleRoomJoin (env : Env) (cfg : Config) (s : AppState) (id : String)
    (msg : Message) :
    Moves id (msg.room.bind fun room =>
        if joinDenial cfg s id room = none then some (roomKey s id room) else none)
      none s (handleRoomJoin env cfg s id msg) := by
  have hl := ledger_handleRoomJoin env cfg s id msg
  have he := entries_handleRoomJoin env cfg s id msg
  have hn := fun h => noEmptyRoom_handleRoomJoin env cfg h id msg (s := s)
  refine ⟨hl.trans ?_, he.trans ?_, hn⟩
  · cases msg.room with
    | none => rfl
    | some room => dsimp only [Option.bind_some]; split_ifs <;> rfl
  · cases msg.room with
    | none => rfl
    | some room => dsimp only [Option.bind_some]; split_ifs <;> rfl

lemma moves_handleRoomLeave {s : AppState} (hs : s.ledger.Sound) (id : String) (msg : Message) :
    Moves id none (msg.room.bind fun room =>
        if isValidIdentifier room then some (roomKey s id room) else none)
      s (handleRoomLeave s id msg) := by
  have hl := ledger_handleRoomLeave hs id msg
  refine ⟨hl.trans ?_, entries_handleRoomLeave s id msg,
    fun h => noEmptyRoom_handleRoomLeave h id msg⟩
  cases msg.room with
  | none => rfl
  | some room => dsimp only [Option.bind_some]; split_ifs <;> rfl

/-- A message acts on memberships by joining and leaving only. -/
lemma moves_handleMessage (env : Env) (cfg : Config) {s : AppState} (hs : s.ledger.Sound)
    (id : String) (msg : Message) :
    Moves id (joins cfg s id msg) (leaves s id msg) s (handleMessage env cfg s id msg) := by
  obtain ⟨hdenial, hkey, hmaps⟩ := reads_recorded env cfg s id msg.type_
  have hkeep : ∀ t : AppState, msg.type_ ≠ .RoomJoin → msg.type_ ≠ .RoomLeave →
      t.roomMaps = s.roomMaps →
      Moves id (joins cfg s id msg) (leaves s id msg) s t := by
    intro t hj hl ht
    rw [joins, leaves, if_neg hj, if_neg hl]
    exact Moves.of_roomMaps ht
  refine handleMessage_induction ?_ ?_ ?_ ?_ ?_ ?_ ?_
  · intro h
    exact hkeep _ (by rw [h]; decide) (by rw [h]; decide) rfl
  · intro h
    refine hkeep _ (fun hc => ?_) (fun hc => ?_)
      ((roomMaps_handleTransmission env _ _).trans hmaps)
    · rw [hc] at h
      exact absurd h (by decide)
    · rw [hc] at h
      exact absurd h (by decide)
  · intro h
    exact hkeep _ (by rw [h]; decide) (by rw [h]; decide)
      ((roomMaps_handleData env cfg _ id _).trans hmaps)
  · intro h
    have hm := moves_handleRoomJoin env cfg (recorded env s id msg.type_) id
      { msg with src := some id }
    simp only [hdenial, hkey] at hm
    rw [joins, leaves, if_pos h, if_neg (by rw [h]; decide)]
    exact hm.of_roomMaps_left hmaps
  · intro h
    have hs' : (recorded env s id msg.type_).ledger.Sound := by
      rw [(memberships_of_roomMaps hmaps).1]
      exact hs
    have hm := moves_handleRoomLeave hs' id { msg with src := some id }
    simp only [hkey] at hm
    rw [joins, leaves, if_pos h, if_neg (by rw [h]; decide)]
    exact hm.of_roomMaps_left hmaps
  · intro h
    exact hkeep _ (by rw [h]; decide) (by rw [h]; decide)
      ((roomMaps_handlePresenceUpdate _ id _).trans hmaps)
  · intro h _
    exact hkeep _ (fun hc => h (by rw [hc]; decide)) (fun hc => h (by rw [hc]; decide)) hmaps

/-- A received message joins and leaves only if the rate limiter lets it
pass. -/
lemma moves_receive (env : Env) (cfg : Config) {s : AppState} (hs : s.ledger.Sound)
    (id : String) (msg : Message) :
    Moves id (if allowed env id msg.type_ then joins cfg s id msg else none)
      (if allowed env id msg.type_ then leaves s id msg else none) s
      (receive env cfg s id msg).1 := by
  have hmeter : (meter env s id msg.type_).1 = s ∨ ∃ bucket,
      (meter env s id msg.type_).1 = (s.checkAndConsume env id bucket).1 := by
    rw [meter]
    cases msg.type_.bucket with
    | none => exact Or.inl rfl
    | some bucket => exact Or.inr ⟨bucket, rfl⟩
  rw [receive]
  dsimp only
  rw [(meter_eq env s id msg.type_).1]
  cases allowed env id msg.type_ with
  | false =>
      rcases hmeter with h | ⟨bucket, h⟩
      · rw [h]
        exact Moves.of_roomMaps rfl
      · rw [h]
        exact Moves.of_roomMaps rfl
  | true =>
      rcases hmeter with h | ⟨bucket, h⟩
      · rw [h]
        exact moves_handleMessage env cfg hs id msg
      · rw [h]
        have hm := moves_handleMessage env cfg (s := (s.checkAndConsume env id bucket).1) hs id msg
        have hmaps : (s.checkAndConsume env id bucket).1.roomMaps = s.roomMaps := rfl
        exact hm.of_roomMaps_left hmaps

end Dendri
