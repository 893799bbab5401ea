import Dendri.Concurrent.Joining
import Dendri.Properties.Admission

/-!
A `ROOM-JOIN` of a client that is in the room. The two limits on the number of
rooms are not checked for a member, but the limit on the size of the room is.

* `joinDenial_of_member`: what is left of the checks;
* `joinRoom_of_member`: the two insertions change nothing;
* `rejoin_idempotent_iff`: the join is accepted and changes nothing just when the
  name is an identifier and the room is not full;
* `rejoin_denied`: the only member of a room of size one is denied.
-/

namespace Dendri

open AppState Transition

/-- What a join should do for a member: it is not denied, the three maps stay, and
all that happens is that the client gets the members and the presence data. -/
structure RejoinIdempotent (env : Env) (cfg : Config) (s : AppState) (id : String) (msg : Message)
    (roomName : String) (members : Finset String) : Prop where
  accepted : joinDenial cfg s id roomName = none
  rooms : (handleRoomJoin env cfg s id msg).rooms = s.rooms
  clientRooms : (handleRoomJoin env cfg s id msg).clientRooms = s.clientRooms
  presence : (handleRoomJoin env cfg s id msg).presence = s.presence
  frames : handleRoomJoin env cfg s id msg = s.sendTo id
    (.roomPeers roomName members :: presenceFrames env s (roomKey s id roomName) roomName)

section Member

variable {s : AppState} {id roomName : String} {members joined : Finset String}

/-- Of the limits only that on the size of the room is checked for a member. -/
lemma joinDenial_of_member (cfg : Config)
    (hroom : s.rooms.lookup (roomKey s id roomName) = some members)
    (hindex : s.clientRooms.lookup id = some joined) (hkey : roomKey s id roomName ∈ joined)
    (hclaims : claimsRefuse s id roomName = false) :
    joinDenial cfg s id roomName =
      if isValidIdentifier roomName = false then some .invalidName
      else if 0 < cfg.maxRoomSize ∧ cfg.maxRoomSize ≤ members.card then some .roomFull
      else none := by
  have hmember : ¬roomKey s id roomName ∉ joined := not_not_intro hkey
  rw [joinDenial, hroom, hindex, hclaims, Option.getD_some, Option.getD_some]
  cases isValidIdentifier roomName with
  | false => rfl
  | true =>
    rw [if_neg (by decide), if_neg (by decide), if_neg fun h => hmember h.1,
      if_neg fun h => hmember h.1]
    rfl

/-- A member is inserted where it is. -/
lemma joinRoom_of_member {key : String} (hroom : s.rooms.lookup key = some members)
    (hmem : id ∈ members) (hindex : s.clientRooms.lookup id = some joined) (hkey : key ∈ joined) :
    joinRoom s id key = s := by
  have hrooms : s.rooms.insert key (insert id members) = s.rooms := by
    rw [Finset.insert_eq_of_mem hmem]
    exact FinMap.insert_eq_self_iff.mpr hroom
  have hrev : s.clientRooms.insert id (insert key joined) = s.clientRooms := by
    rw [Finset.insert_eq_of_mem hkey]
    exact FinMap.insert_eq_self_iff.mpr hindex
  rw [joinRoom, hroom, hindex, Option.getD_some, Option.getD_some, hrooms, hrev]

lemma claimsRefuse_eq_false
    (h : ∀ claims, s.clientClaims.lookup id = some claims → roomAllowed claims roomName = true) :
    claimsRefuse s id roomName = false := by
  rw [claimsRefuse]
  cases hlookup : s.clientClaims.lookup id with
  | none => rfl
  | some claims =>
    dsimp only
    rw [h claims hlookup]
    rfl

/-- An accepted join of a member changes nothing but its channel. -/
lemma rejoinIdempotent_of_accepted (env : Env) (cfg : Config) {msg : Message}
    (hmsg : msg.room = some roomName)
    (hroom : s.rooms.lookup (roomKey s id roomName) = some members) (hmem : id ∈ members)
    (hindex : s.clientRooms.lookup id = some joined) (hkey : roomKey s id roomName ∈ joined)
    (haccepted : joinDenial cfg s id roomName = none) :
    RejoinIdempotent env cfg s id msg roomName members := by
  have hresult : handleRoomJoin env cfg s id msg = s.sendTo id
      (.roomPeers roomName members :: presenceFrames env s (roomKey s id roomName) roomName) := by
    rw [handleRoomJoin, hmsg]
    dsimp only
    rw [haccepted]
    dsimp only
    rw [joinRoom_of_member hroom hmem hindex hkey, joinFrames, hroom]
    rfl
  refine ⟨haccepted, ?_, ?_, ?_, hresult⟩
  all_goals
    rw [hresult]
    rfl

end Member

/-- A further join of a member is accepted, and changes nothing, just when the
name of the room is an identifier and the room has not reached its size. -/
theorem rejoin_idempotent_iff (env : Env) (cfg : Config) (s : AppState) (id : String)
    (msg : Message) (roomName : String) (members joined : Finset String)
    (hmsg : msg.room = some roomName)
    (hroom : s.rooms.lookup (roomKey s id roomName) = some members) (hmem : id ∈ members)
    (hindex : s.clientRooms.lookup id = some joined) (hkey : roomKey s id roomName ∈ joined)
    (hclaims : ∀ claims, s.clientClaims.lookup id = some claims →
      roomAllowed claims roomName = true) :
    RejoinIdempotent env cfg s id msg roomName members ↔
      isValidIdentifier roomName = true ∧
        (cfg.maxRoomSize = 0 ∨ members.card < cfg.maxRoomSize) := by
  have hdenial := joinDenial_of_member cfg hroom hindex hkey (claimsRefuse_eq_false hclaims)
  constructor
  · intro h
    rw [h.accepted] at hdenial
    split_ifs at hdenial with hvalid hfull
    rw [Bool.not_eq_false] at hvalid
    exact ⟨hvalid, by omega⟩
  · rintro ⟨hvalid, hsize⟩
    refine rejoinIdempotent_of_accepted env cfg hmsg hroom hmem hindex hkey ?_
    rw [hdenial, if_neg (by rw [hvalid]; decide), if_neg (by omega)]

/-- `alice` connects and joins `lobby`. -/
def joinsOnce : List Label :=
  [.connect (Params.plain "alice" "tok").ws, .say 0 (roomJoin "lobby")].map quietly

/-- A server on which a room holds one client. -/
def onePerRoom : Config := { maxRoomSize := 1 }

/-- `alice` is in `lobby`, has no claims, and the room name stands for itself. -/
def AloneInLobby (s : AppState) : Prop :=
  roomKey s "alice" "lobby" = "lobby" ∧ s.rooms.lookup "lobby" = some {"alice"} ∧
    s.clientRooms.lookup "alice" = some {"lobby"} ∧ s.clientClaims.lookup "alice" = none

instance (s : AppState) : Decidable (AloneInLobby s) := inferInstanceAs (Decidable (_ ∧ _))

theorem rejoin_idempotent_lobby :
    ∃ w, run (step {}) (World.init {} Redis.empty) joinsOnce = some w ∧ AloneInLobby w.app ∧
      RejoinIdempotent (Env.quiet 0) {} w.app "alice" (roomJoin "lobby") "lobby" {"alice"} := by
  have heval : (run (step {}) (World.init {} Redis.empty) joinsOnce).map
      (fun w => decide (AloneInLobby w.app)) = some true := by decide +kernel
  obtain ⟨w, hw, hin⟩ := Option.map_eq_some_iff.mp heval
  have hlobby := of_decide_eq_true hin
  obtain ⟨hkey, hroom, hindex, hclaims⟩ := hlobby
  refine ⟨w, hw, of_decide_eq_true hin, ?_⟩
  refine (rejoin_idempotent_iff (Env.quiet 0) {} w.app "alice" (roomJoin "lobby") "lobby" {"alice"}
    {"lobby"} rfl ?_ (Finset.mem_singleton_self _) hindex ?_ ?_).mpr ⟨by decide, by decide⟩
  · rw [hkey]
    exact hroom
  · rw [hkey]
    exact Finset.mem_singleton_self _
  · intro claims h
    rw [hclaims] at h
    cases h

/-- A client that is alone in a room of size one is denied when it joins again, as
if it were not there. -/
theorem rejoin_denied :
    ∃ w, run (step onePerRoom) (World.init onePerRoom Redis.empty) joinsOnce = some w ∧
      AloneInLobby w.app ∧
      joinDenial onePerRoom w.app "alice" "lobby" = some .roomFull ∧
      ¬RejoinIdempotent (Env.quiet 0) onePerRoom w.app "alice" (roomJoin "lobby") "lobby"
        {"alice"} := by
  have heval : (run (step onePerRoom) (World.init onePerRoom Redis.empty) joinsOnce).map
      (fun w => decide (AloneInLobby w.app ∧
        joinDenial onePerRoom w.app "alice" "lobby" = some .roomFull)) = some true := by
    decide +kernel
  obtain ⟨w, hw, hin⟩ := Option.map_eq_some_iff.mp heval
  obtain ⟨hlobby, hdenial⟩ := of_decide_eq_true hin
  refine ⟨w, hw, hlobby, hdenial, fun h => ?_⟩
  have haccepted := h.accepted
  rw [hdenial] at haccepted
  cases haccepted

end Dendri
