import Mathlib.Tactic

/-!
`enums.rs` and `models/message.rs`: the message types, the messages clients
exchange with the server, and the text frames the server puts on a client's
channel, kept here as the structured values they are rendered from.

A frame of the source is either the serialisation of a `Message` or one of a
few texts built by interpolation; `Frame` has one constructor for each.
-/

namespace Dendri

/-- `MessageType`. -/
inductive MessageType where
  | OPEN | LEAVE | CANDIDATE | OFFER | ANSWER | EXPIRE | HEARTBEAT | IdTaken | ERROR
  | DATA | ACK | RoomJoin | RoomLeave | RoomPeers | PresenceUpdate
  deriving DecidableEq, Repr

/-- `PeerError`, the protocol errors a WebSocket connect is refused with. -/
inductive PeerError where
  | InvalidKey | InvalidToken | InvalidWsParameters | ConnectionLimitExceed
  deriving DecidableEq, Repr

/-- `PeerError::as_str`. -/
def PeerError.asStr : PeerError → String
  | .InvalidKey => "Invalid key provided"
  | .InvalidToken => "Invalid token provided"
  | .InvalidWsParameters => "No id, token, or key supplied to websocket server"
  | .ConnectionLimitExceed => "Server has reached its concurrent user limit"

/-- `Message`. The payload is the raw JSON text of the source's `RawValue`. -/
structure Message where
  type_ : MessageType
  src : Option String := none
  dst : Option String := none
  payload : Option String := none
  seq : Option ℕ := none
  room : Option String := none
  timestamp : Option ℤ := none
  topicClass : Option String := none
  deriving DecidableEq, Repr

/-- The text frames the server sends. -/
inductive Frame where
  /-- `serde_json::to_string(&msg)`. -/
  | relay (msg : Message)
  /-- An `ERROR` frame with its `msg`. -/
  | error (msg : String)
  /-- The `REPLAY_GAP` error. -/
  | replayGap (oldestSeq requestedSeq : ℕ)
  | roomJoinDenied (room reason : String)
  /-- `ROOM-PEERS`; the payload lists the members in no fixed order. -/
  | roomPeers (room : String) (members : Finset String)
  /-- Stored presence data, replayed to a joining client. -/
  | presence (src room payload : String)
  | expire (src dst : String)
  deriving DecidableEq

/-- The text of a message queue entry, as far as the server looks at it: the
serialisation of a message, or a text that does not parse as one. -/
inductive QueueEntry where
  | message (msg : Message)
  | malformed (text : String)
  deriving DecidableEq

/-- `serde_json::from_str::<Message>` on a queue entry. -/
def QueueEntry.parse : QueueEntry → Option Message
  | .message msg => some msg
  | .malformed _ => none

/-- The bucket of the rate limiter a message is charged to, if any. -/
def MessageType.bucket : MessageType → Option String
  | .OFFER | .ANSWER | .CANDIDATE => some "signaling"
  | .DATA => some "data"
  | _ => none

end Dendri
