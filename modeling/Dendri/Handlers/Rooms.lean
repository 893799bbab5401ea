import Dendri.Lib.Ledger
import Dendri.Server.Validation
import Dendri.Server.Registry

/-!
The room operations of `handlers/message.rs`: storage keys, joining, leaving,
the removal of a client from all its rooms, at once or deferred, and the
expiry of deferred removals.

The memberships of a state are read as a `Ledger` (`AppState.ledger`): the
member sets of `rooms`, the reverse index `client_rooms` and the lists of
`pending_removals`. Each operation acts on it as the ledger operation of its
purpose:

* `ledger_joinRoom`, `ledger_removeClientFromRoom`: joining and leaving;
* `ledger_removeClientFromAllRooms`: `removeAll` without a session TTL,
  `defer` with one;
* `ledger_expireSession`: the expiry of one deferred removal;
* `ledger_restoreSession`: the restoring branch of a reconnect.

`removeClientFromAllRooms_induction`, `expireSession_induction` and
`cleanupExpiredSessions_induction` are the rules for properties that every
single removal keeps.

`NoEmptyRoom` is kept by all of them, `AppState.entries` says which ids have an
entry in the two per-client maps, and none of them touches the registry, except
that the removal from all rooms drops the client's replay buffer
(`registry_removeClientFromAllRooms`).
-/

namespace Dendri

open AppState

/-- `room_key`. -/
def roomKey (s : AppState) (clientId room : String) : String :=
  namespaceRoom (s.clientTenants.lookup clientId) room

/-! ### Leaving -/

/-- `remove_client_from_room`. -/
def removeClientFromRoom (s : AppState) (clientId storedKey : String) : AppState :=
  match s.rooms.lookup storedKey with
  | none => s
  | some members =>
      let members := members.erase clientId
      let presence := FinMap.modify s.presence storedKey fun p => p.erase clientId
      let s :=
        if members = ∅ then
          { s with rooms := s.rooms.erase storedKey, presence := presence.erase storedKey }
        else
          fanOut { s with rooms := s.rooms.insert storedKey members, presence := presence }
            members (.roomPeers (roomDisplay storedKey) members)
      { s with
        clientRooms := FinMap.modify s.clientRooms clientId fun rooms => rooms.erase storedKey }

/-- `immediate_remove_from_all_rooms`. -/
def immediateRemoveFromAllRooms (env : Env) (s : AppState) (clientId : String) : AppState :=
  let s :=
    match s.clientRooms.lookup clientId with
    | some rooms =>
        (env.order.toList rooms).foldl (fun s room => removeClientFromRoom s clientId room)
          { s with clientRooms := s.clientRooms.erase clientId }
    | none => s
  { s with replayBuffer := s.replayBuffer.removeClient clientId }

/-- The deferred branch of `remove_client_from_all_rooms`: the room list moves
to `pending_removals`. -/
def deferRemoveFromAllRooms (env : Env) (s : AppState) (clientId : String) : AppState :=
  let s :=
    match s.clientRooms.lookup clientId with
    | some rooms =>
        { s with
          clientRooms := s.clientRooms.erase clientId
          pendingRemovals :=
            if (env.order.toList rooms).isEmpty then s.pendingRemovals
            else s.pendingRemovals.insert clientId ⟨env.order.toList rooms, env.now⟩ }
    | none => s
  { s with replayBuffer := s.replayBuffer.removeClient clientId }

/-- `remove_client_from_all_rooms`. -/
def removeClientFromAllRooms (env : Env) (cfg : Config) (s : AppState) (clientId : String) :
    AppState :=
  if cfg.sessionTtl = 0 then immediateRemoveFromAllRooms env s clientId
  else deferRemoveFromAllRooms env s clientId

/-- One round of the loop of `cleanup_expired_sessions`. -/
def expireSession (s : AppState) (clientId : String) : AppState :=
  match s.pendingRemovals.lookup clientId with
  | some pending =>
      pending.rooms.foldl (fun s room => removeClientFromRoom s clientId room)
        { s with pendingRemovals := s.pendingRemovals.erase clientId }
  | none => s

/-- The ids whose deferred removal is at least `session_ttl` old. -/
def expiredSessions (env : Env) (cfg : Config) (s : AppState) : List String :=
  (env.order.toList s.pendingRemovals.keys).filter fun id =>
    match s.pendingRemovals.lookup id with
    | some pending => decide (cfg.sessionTtl ≤ env.now - pending.disconnectedAt)
    | none => false

/-- `cleanup_expired_sessions`. -/
def cleanupExpiredSessions (env : Env) (cfg : Config) (s : AppState) : AppState :=
  if cfg.sessionTtl = 0 then s else (expiredSessions env cfg s).foldl expireSession s

/-- A client leaves its rooms one by one, or its room list is put aside, and then
its buffer goes: a property that all of this keeps is kept by the removal. -/
lemma removeClientFromAllRooms_induction {P : AppState → Prop} (env : Env) (cfg : Config)
    {s : AppState} {id : String} (hs : P s)
    (hindex : P { s with clientRooms := s.clientRooms.erase id })
    (hroom : ∀ t room, P t → P (removeClientFromRoom t id room))
    (hdefer : ∀ rooms, s.clientRooms.lookup id = some rooms →
      P { s with
        clientRooms := s.clientRooms.erase id
        pendingRemovals :=
          if (env.order.toList rooms).isEmpty then s.pendingRemovals
          else s.pendingRemovals.insert id ⟨env.order.toList rooms, env.now⟩ })
    (hbuffer : ∀ t, P t → P { t with replayBuffer := t.replayBuffer.removeClient id }) :
    P (removeClientFromAllRooms env cfg s id) := by
  rw [removeClientFromAllRooms, immediateRemoveFromAllRooms, deferRemoveFromAllRooms]
  cases hrooms : s.clientRooms.lookup id with
  | none =>
      dsimp only
      rw [ite_self]
      exact hbuffer s hs
  | some rooms =>
      dsimp only
      by_cases httl : cfg.sessionTtl = 0
      · rw [if_pos httl]
        exact hbuffer _ (List.foldlRecOn _ _ hindex fun t ht room _ => hroom t room ht)
      · rw [if_neg httl]
        exact hbuffer _ (hdefer rooms hrooms)

/-- The expiry of a deferred removal takes the client out of its rooms one by
one. -/
lemma expireSession_induction {P : AppState → Prop} {s : AppState} {id : String} (hs : P s)
    (hpending : P { s with pendingRemovals := s.pendingRemovals.erase id })
    (hroom : ∀ t room, P t → P (removeClientFromRoom t id room)) : P (expireSession s id) := by
  rw [expireSession]
  cases s.pendingRemovals.lookup id with
  | none => exact hs
  | some pending => exact List.foldlRecOn _ _ hpending fun t ht room _ => hroom t room ht

/-- A property that the expiry of each session keeps is kept by a whole pass. -/
lemma cleanupExpiredSessions_induction {P : AppState → Prop} (env : Env) (cfg : Config)
    {s : AppState} (hs : P s) (hexpire : ∀ t id, P t → P (expireSession t id)) :
    P (cleanupExpiredSessions env cfg s) := by
  rw [cleanupExpiredSessions]
  split_ifs
  · exact hs
  · generalize expiredSessions env cfg s = ids
    induction ids generalizing s with
    | nil => exact hs
    | cons id ids ih => exact ih (hexpire s id hs)

/-! ### Joining -/

/-- Why a `ROOM-JOIN` is refused. -/
inductive JoinDenial where
  | invalidName | authDenied | clientRoomLimit | serverRoomLimit | roomFull
  deriving DecidableEq, Repr

/-- The frame a refused client gets. -/
def JoinDenial.frame (roomName : String) : JoinDenial → Frame
  | .invalidName => .error "Invalid room name"
  | .authDenied => .roomJoinDenied roomName "auth_denied"
  | .clientRoomLimit => .roomJoinDenied roomName "client_room_limit"
  | .serverRoomLimit => .roomJoinDenied roomName "server_room_limit"
  | .roomFull => .roomJoinDenied roomName "room_full"

/-- The room list of the claims stored for a client refuses the room. -/
def claimsRefuse (s : AppState) (clientId roomName : String) : Bool :=
  match s.clientClaims.lookup clientId with
  | some claims => !roomAllowed claims roomName
  | none => false

/-- The checks of `handle_room_join`, in the order of its early returns. -/
def joinDenial (cfg : Config) (s : AppState) (clientId roomName : String) : Option JoinDenial :=
  let roomStored := roomKey s clientId roomName
  let joined := (s.clientRooms.lookup clientId).getD ∅
  let members := (s.rooms.lookup roomStored).getD ∅
  if !isValidIdentifier roomName then some .invalidName
  else if claimsRefuse s clientId roomName then some .authDenied
  else if roomStored ∉ joined ∧ 0 < cfg.maxRoomsPerClient ∧
      cfg.maxRoomsPerClient ≤ joined.card then some .clientRoomLimit
  else if roomStored ∉ joined ∧ 0 < cfg.maxTotalRooms ∧ roomStored ∉ s.rooms ∧
      cfg.maxTotalRooms ≤ s.rooms.keys.card then some .serverRoomLimit
  else if 0 < cfg.maxRoomSize ∧ cfg.maxRoomSize ≤ members.card then some .roomFull
  else none

/-- The two insertions of `handle_room_join`. -/
def joinRoom (s : AppState) (clientId roomStored : String) : AppState :=
  { s with
    rooms := s.rooms.insert roomStored (insert clientId ((s.rooms.lookup roomStored).getD ∅))
    clientRooms :=
      s.clientRooms.insert clientId (insert roomStored ((s.clientRooms.lookup clientId).getD ∅)) }

/-- The frames a client gets on joining: the members, then the stored presence
data of the room. -/
def joinFrames (env : Env) (s : AppState) (roomStored roomName : String) : List Frame :=
  let presence := (s.presence.lookup roomStored).getD ∅
  .roomPeers roomName ((s.rooms.lookup roomStored).getD ∅) ::
    (env.order.toList presence.keys).map fun peer =>
      .presence peer roomName ((presence.lookup peer).getD "")

/-- `handle_room_join`. -/
def handleRoomJoin (env : Env) (cfg : Config) (s : AppState) (clientId : String) (msg : Message) :
    AppState :=
  match msg.room with
  | none => s
  | some roomName =>
      match joinDenial cfg s clientId roomName with
      | some denial => s.sendTo clientId [denial.frame roomName]
      | none =>
          let roomStored := roomKey s clientId roomName
          let s := joinRoom s clientId roomStored
          s.sendTo clientId (joinFrames env s roomStored roomName)

/-- `handle_room_leave`. -/
def handleRoomLeave (s : AppState) (clientId : String) (msg : Message) : AppState :=
  match msg.room with
  | none => s
  | some roomName =>
      if !isValidIdentifier roomName then s
      else removeClientFromRoom s clientId (roomKey s clientId roomName)

/-- A leave is ignored, or it removes the client from the room it names. -/
lemma handleRoomLeave_cases (s : AppState) (id : String) (msg : Message) :
    handleRoomLeave s id msg = s ∨
      ∃ room, msg.room = some room ∧ isValidIdentifier room = true ∧
        handleRoomLeave s id msg = removeClientFromRoom s id (roomKey s id room) := by
  cases hroom : msg.room with
  | none =>
      left
      rw [handleRoomLeave, hroom]
  | some room =>
      have heq : handleRoomLeave s id msg =
          if !isValidIdentifier room then s
          else removeClientFromRoom s id (roomKey s id room) := by
        rw [handleRoomLeave, hroom]
      cases hvalid : isValidIdentifier room with
      | false =>
          left
          rw [heq, hvalid]
          rfl
      | true =>
          right
          refine ⟨room, rfl, hvalid, ?_⟩
          rw [heq, hvalid]
          rfl

/-! ### Restoring a session -/

/-- The restoring statements of a WebSocket reconnect: a pending removal is
cancelled, the client is put back into its rooms, and the list becomes its
reverse index. -/
def restoreSession (s : AppState) (id : String) : AppState :=
  match s.pendingRemovals.lookup id with
  | some pending =>
      { s with
        pendingRemovals := s.pendingRemovals.erase id
        rooms :=
          pending.rooms.foldl
            (fun rooms room => rooms.insert room (insert id ((rooms.lookup room).getD ∅))) s.rooms
        clientRooms := s.clientRooms.insert id pending.rooms.toFinset }
  | none => s

/-- The rooms a reconnect restores, in the order of the pending list. -/
def restoredRooms (s : AppState) (id : String) : List String :=
  match s.pendingRemovals.lookup id with
  | some pending => pending.rooms
  | none => []

/-! ### The memberships of a state -/

/-- The member sets, the reverse index and the pending lists of a state. -/
def AppState.ledger (s : AppState) : Ledger String String where
  member id room := ∃ members, s.rooms.lookup room = some members ∧ id ∈ members
  index id room := ∃ rooms, s.clientRooms.lookup id = some rooms ∧ room ∈ rooms
  pending id room := ∃ pending, s.pendingRemovals.lookup id = some pending ∧ room ∈ pending.rooms

/-- No entry of `rooms` is the empty set. -/
def NoEmptyRoom (s : AppState) : Prop :=
  ∀ room members, s.rooms.lookup room = some members → members ≠ ∅

/-- Membership in the default value of a lookup. -/
lemma mem_getD_empty {α : Type} [DecidableEq α] {o : Option (Finset α)} {a : α} :
    a ∈ o.getD ∅ ↔ ∃ t, o = some t ∧ a ∈ t := by
  cases o <;> simp

lemma ledger_joinRoom (s : AppState) (id key : String) :
    (joinRoom s id key).ledger = s.ledger.join id key := by
  ext d r
  · simp only [AppState.ledger, joinRoom, Ledger.join, FinMap.lookup_insert_ite]
    by_cases hr : r = key
    · subst hr
      simp only [if_true, Option.some.injEq, exists_eq_left', Finset.mem_insert, mem_getD_empty,
        and_true]
      exact or_comm
    · simp [hr]
  · simp only [AppState.ledger, joinRoom, Ledger.join, FinMap.lookup_insert_ite]
    by_cases hd : d = id
    · subst hd
      simp only [if_true, Option.some.injEq, exists_eq_left', Finset.mem_insert, mem_getD_empty,
        true_and]
      exact or_comm
    · simp [hd]
  · rfl

lemma noEmptyRoom_joinRoom {s : AppState} (h : NoEmptyRoom s) (id key : String) :
    NoEmptyRoom (joinRoom s id key) := by
  intro r members hl
  simp only [joinRoom, FinMap.lookup_insert_ite] at hl
  split_ifs at hl
  · rw [Option.some.injEq] at hl
    rw [← hl]
    exact Finset.insert_ne_empty _ _
  · exact h r members hl

/-- The member sets after a removal from one room. -/
lemma lookup_rooms_removeClientFromRoom (s : AppState) (id key room : String) :
    (removeClientFromRoom s id key).rooms.lookup room =
      if room = key then
        (s.rooms.lookup key).bind fun m => if m.erase id = ∅ then none else some (m.erase id)
      else s.rooms.lookup room := by
  rw [removeClientFromRoom]
  cases hm : s.rooms.lookup key with
  | none =>
      split_ifs with hr
      · rw [hr, hm, Option.bind_none]
      · rfl
  | some members =>
      dsimp only
      by_cases hempty : members.erase id = ∅
      · simp only [hempty, if_true, FinMap.lookup_erase_ite, Option.bind_some]
      · simp only [hempty, if_false, fanOut, FinMap.lookup_insert_ite, Option.bind_some]

/-- The reverse index after a removal from one room, which is left alone when
the room does not exist. -/
lemma clientRooms_removeClientFromRoom (s : AppState) (id key : String) :
    (removeClientFromRoom s id key).clientRooms =
      if key ∈ s.rooms then FinMap.modify s.clientRooms id fun rooms => rooms.erase key
      else s.clientRooms := by
  rw [removeClientFromRoom]
  cases hm : s.rooms.lookup key with
  | none => rw [if_neg (Finmap.lookup_eq_none.mp hm)]
  | some members =>
      rw [if_pos (Finmap.mem_of_lookup_eq_some hm)]
      dsimp only
      split_ifs <;> rfl

lemma pendingRemovals_removeClientFromRoom (s : AppState) (id key : String) :
    (removeClientFromRoom s id key).pendingRemovals = s.pendingRemovals := by
  rw [removeClientFromRoom]
  split
  · rfl
  · dsimp only
    split_ifs <;> rfl

/-- Removing a client from a room is leaving it, once the index is sound: the
early return for a missing room then skips nothing. -/
lemma ledger_removeClientFromRoom {s : AppState} (hs : s.ledger.Sound) (id key : String) :
    (removeClientFromRoom s id key).ledger = s.ledger.leave id key := by
  ext d r
  · simp only [AppState.ledger, Ledger.leave, lookup_rooms_removeClientFromRoom]
    by_cases hr : r = key
    · subst hr
      cases hm : s.rooms.lookup r with
      | none => simp
      | some m =>
          by_cases hempty : m.erase id = ∅
          · have hd : ∀ d ∈ m, d = id := fun d hd => by
              by_contra hne
              have := Finset.mem_erase.mpr ⟨hne, hd⟩
              rw [hempty] at this
              exact absurd this (by simp)
            simp only [Option.bind_some, hempty, if_true, reduceCtorEq, false_and, exists_false,
              Option.some.injEq, exists_eq_left', and_true, false_iff, not_and, not_not]
            exact hd d
          · simp only [Option.bind_some, hempty, if_true, if_false, Option.some.injEq,
              exists_eq_left', Finset.mem_erase, and_true]
            tauto
    · simp [hr]
  · simp only [AppState.ledger, Ledger.leave, clientRooms_removeClientFromRoom]
    by_cases hkey : key ∈ s.rooms
    · simp only [hkey, if_true, FinMap.lookup_modify]
      by_cases hd : d = id
      · subst hd
        cases hc : s.clientRooms.lookup d with
        | none => simp
        | some rooms => simp; tauto
      · simp [hd]
    · simp only [hkey, if_false]
      refine (and_iff_left_of_imp ?_).symm
      rintro hi ⟨rfl, rfl⟩
      obtain ⟨members, hl, -⟩ := hs d r hi
      exact hkey (Finmap.mem_of_lookup_eq_some hl)
  · simp only [AppState.ledger, Ledger.leave, pendingRemovals_removeClientFromRoom]

lemma noEmptyRoom_removeClientFromRoom {s : AppState} (h : NoEmptyRoom s) (id key : String) :
    NoEmptyRoom (removeClientFromRoom s id key) := by
  intro r members hl
  rw [lookup_rooms_removeClientFromRoom] at hl
  split_ifs at hl
  · obtain ⟨m, -, hm⟩ := Option.bind_eq_some_iff.mp hl
    split_ifs at hm with hempty
    rw [Option.some.injEq] at hm
    rwa [← hm]
  · exact h r members hl

/-- A loop of removals is leaving the rooms of its list. -/
lemma ledger_foldl_removeClientFromRoom (id : String) (l : List String) {s : AppState}
    (hs : s.ledger.Sound) :
    (l.foldl (fun s room => removeClientFromRoom s id room) s).ledger =
      s.ledger.leaveList id l := by
  induction l generalizing s with
  | nil => rfl
  | cons room l ih =>
      have hl := ledger_removeClientFromRoom hs id room
      have hs' : (removeClientFromRoom s id room).ledger.Sound := by
        rw [hl]
        exact hs.leave
      rw [List.foldl_cons, ih hs', hl]
      rfl

lemma not_index_of_none {s : AppState} {id : String} (h : s.clientRooms.lookup id = none)
    (room : String) : ¬s.ledger.index id room := by
  rintro ⟨rooms, hl, -⟩
  rw [h] at hl
  exact absurd hl (by simp)

lemma index_iff_mem_toList (env : Env) {s : AppState} {id : String} {rooms : Finset String}
    (h : s.clientRooms.lookup id = some rooms) (room : String) :
    s.ledger.index id room ↔ room ∈ env.order.toList rooms := by
  rw [env.order.mem_toList]
  simp [AppState.ledger, h]

/-- The removal without a session TTL is `removeAll`. -/
lemma ledger_immediateRemoveFromAllRooms (env : Env) {s : AppState} (hs : s.ledger.Sound)
    (id : String) :
    (immediateRemoveFromAllRooms env s id).ledger = s.ledger.removeAll id := by
  rw [immediateRemoveFromAllRooms]
  cases hc : s.clientRooms.lookup id with
  | none =>
      have hni := not_index_of_none hc
      ext d r
      · exact (and_iff_left fun h => hni r h.2).symm
      · refine (and_iff_left_of_imp ?_).symm
        rintro hi rfl
        exact hni r hi
      · rfl
  | some rooms =>
      have hindex := index_iff_mem_toList env hc
      set t : AppState := { s with clientRooms := s.clientRooms.erase id } with ht
      have hti : ∀ d r, t.ledger.index d r ↔ s.ledger.index d r ∧ d ≠ id := by
        intro d r
        simp only [AppState.ledger, ht, FinMap.lookup_erase_ite]
        by_cases hd : d = id <;> simp [hd]
      have hts : t.ledger.Sound := fun d r hi => hs d r ((hti d r).mp hi).1
      change ((env.order.toList rooms).foldl
        (fun s room => removeClientFromRoom s id room) t).ledger = _
      rw [ledger_foldl_removeClientFromRoom id _ hts, Ledger.leaveList_eq]
      ext d r
      · change s.ledger.member d r ∧ _ ↔ s.ledger.member d r ∧ _
        rw [hindex r]
      · change t.ledger.index d r ∧ _ ↔ s.ledger.index d r ∧ _
        rw [hti d r]
        tauto
      · rfl

/-- The removal with a session TTL is `defer`. -/
lemma ledger_deferRemoveFromAllRooms (env : Env) (s : AppState) (id : String) :
    (deferRemoveFromAllRooms env s id).ledger = s.ledger.defer id := by
  rw [deferRemoveFromAllRooms]
  cases hc : s.clientRooms.lookup id with
  | none =>
      have hni := not_index_of_none hc
      ext d r
      · rfl
      · refine (and_iff_left_of_imp ?_).symm
        rintro hi rfl
        exact hni r hi
      · have hnone : ¬∃ room, s.ledger.index id room := by
          rintro ⟨room, hi⟩
          exact hni room hi
        simp only [Ledger.defer, hni r, hnone, and_false, false_or, not_false_eq_true, and_true]
        rfl
  | some rooms =>
      have hindex := index_iff_mem_toList env hc
      have hne : (∃ room, s.ledger.index id room) ↔ ¬(env.order.toList rooms).isEmpty = true := by
        simp only [hindex, List.isEmpty_iff]
        constructor
        · rintro ⟨_, hroom⟩
          exact List.ne_nil_of_mem hroom
        · exact List.exists_mem_of_ne_nil _
      ext d r
      · rfl
      · simp only [AppState.ledger, Ledger.defer, FinMap.lookup_erase_ite]
        by_cases hd : d = id <;> simp [hd]
      · simp only [Ledger.defer, hindex r, hne]
        simp only [AppState.ledger]
        by_cases hempty : (env.order.toList rooms).isEmpty = true
        · have hnil : env.order.toList rooms = [] := List.isEmpty_iff.mp hempty
          simp [hnil]
        · rcases eq_or_ne d id with rfl | hd
          · simp [hempty]
          · simp [hd, hempty]

lemma ledger_removeClientFromAllRooms (env : Env) (cfg : Config) {s : AppState}
    (hs : s.ledger.Sound) (id : String) :
    (removeClientFromAllRooms env cfg s id).ledger =
      if cfg.sessionTtl = 0 then s.ledger.removeAll id else s.ledger.defer id := by
  rw [removeClientFromAllRooms]
  split_ifs
  · exact ledger_immediateRemoveFromAllRooms env hs id
  · exact ledger_deferRemoveFromAllRooms env s id

lemma noEmptyRoom_removeClientFromAllRooms (env : Env) (cfg : Config) {s : AppState}
    (h : NoEmptyRoom s) (id : String) : NoEmptyRoom (removeClientFromAllRooms env cfg s id) := by
  exact removeClientFromAllRooms_induction env cfg h h
    (fun t room ht => noEmptyRoom_removeClientFromRoom ht id room) (fun _ _ => h) fun _ ht => ht

/-- A client has a pending removal. -/
def HasPending (s : AppState) (id : String) : Prop := (s.pendingRemovals.lookup id).isSome

/-- The expiry of a client's deferred removal; without one nothing happens. -/
lemma ledger_expireSession {s : AppState} (hs : s.ledger.Sound) (id : String) :
    (expireSession s id).ledger = s.ledger.expire id := by
  rw [expireSession]
  cases hp : s.pendingRemovals.lookup id with
  | none =>
      have hnp : ∀ room, ¬s.ledger.pending id room := by
        rintro room ⟨pending, hl, -⟩
        rw [hp] at hl
        exact absurd hl (by simp)
      ext d r
      · exact (and_iff_left fun h => hnp r h.2).symm
      · exact (and_iff_left fun h => hnp r h.2).symm
      · refine (and_iff_left_of_imp ?_).symm
        rintro h rfl
        exact hnp r h
  | some pending =>
      have hpend : ∀ room, s.ledger.pending id room ↔ room ∈ pending.rooms := by
        intro room
        simp [AppState.ledger, hp]
      set t : AppState := { s with pendingRemovals := s.pendingRemovals.erase id } with ht
      change (pending.rooms.foldl (fun s room => removeClientFromRoom s id room) t).ledger = _
      rw [ledger_foldl_removeClientFromRoom id _ (s := t) hs, Ledger.leaveList_eq]
      ext d r
      · change s.ledger.member d r ∧ _ ↔ s.ledger.member d r ∧ _
        rw [hpend r]
      · change s.ledger.index d r ∧ _ ↔ s.ledger.index d r ∧ _
        rw [hpend r]
      · simp only [AppState.ledger, ht, Ledger.expire, FinMap.lookup_erase_ite]
        by_cases hd : d = id <;> simp [hd]

lemma noEmptyRoom_expireSession {s : AppState} (h : NoEmptyRoom s) (id : String) :
    NoEmptyRoom (expireSession s id) := by
  exact expireSession_induction h h fun t room ht => noEmptyRoom_removeClientFromRoom ht id room

/-- Putting a client back into the rooms of a list. -/
lemma member_foldl_insert (id : String) (l : List String) (rooms : DashMap (Finset String))
    (d room : String) :
    (∃ members, (l.foldl (fun rooms room => rooms.insert room
        (insert id ((rooms.lookup room).getD ∅))) rooms).lookup room = some members ∧ d ∈ members) ↔
      (∃ members, rooms.lookup room = some members ∧ d ∈ members) ∨ (d = id ∧ room ∈ l) := by
  induction l generalizing rooms with
  | nil => simp
  | cons r l ih =>
      rw [List.foldl_cons, ih]
      by_cases hr : room = r
      · subst hr
        simp only [FinMap.lookup_insert_ite, if_true, Option.some.injEq, exists_eq_left',
          Finset.mem_insert, mem_getD_empty, List.mem_cons, true_or, and_true]
        by_cases hd : d = id <;> simp [hd]
      · simp [hr]

/-- The restoring branch restores the pending list. -/
lemma ledger_restoreSession {s : AppState} {id : String} (hp : HasPending s id) :
    (restoreSession s id).ledger = s.ledger.restore id := by
  obtain ⟨pending, hp⟩ := Option.isSome_iff_exists.mp hp
  have hpend : ∀ room, s.ledger.pending id room ↔ room ∈ pending.rooms := by
    intro room
    simp [AppState.ledger, hp]
  simp only [restoreSession, hp]
  ext d r
  · simp only [Ledger.restore, hpend r]
    exact member_foldl_insert id pending.rooms s.rooms d r
  · simp only [Ledger.restore, hpend r]
    simp only [AppState.ledger, FinMap.lookup_insert_ite]
    by_cases hd : d = id <;> simp [hd]
  · simp only [AppState.ledger, Ledger.restore, FinMap.lookup_erase_ite]
    by_cases hd : d = id <;> simp [hd]

lemma restoreSession_of_not_hasPending {s : AppState} {id : String} (hp : ¬HasPending s id) :
    restoreSession s id = s := by
  have hnone : s.pendingRemovals.lookup id = none := by
    simpa [HasPending] using hp
  simp only [restoreSession, hnone]

lemma noEmptyRoom_restoreSession {s : AppState} (h : NoEmptyRoom s) (id : String) :
    NoEmptyRoom (restoreSession s id) := by
  have key : ∀ (l : List String) (rooms : DashMap (Finset String)),
      (∀ room members, rooms.lookup room = some members → members ≠ ∅) →
      ∀ room members, (l.foldl (fun rooms room => rooms.insert room
        (insert id ((rooms.lookup room).getD ∅))) rooms).lookup room = some members →
          members ≠ ∅ := by
    intro l
    induction l with
    | nil => exact fun _ h => h
    | cons r l ih =>
        intro rooms hrooms
        refine ih _ fun room members hl => ?_
        rw [FinMap.lookup_insert_ite] at hl
        split_ifs at hl
        · rw [Option.some.injEq] at hl
          rw [← hl]
          exact Finset.insert_ne_empty _ _
        · exact hrooms room members hl
  rw [restoreSession]
  cases s.pendingRemovals.lookup id with
  | none => exact h
  | some pending => exact key pending.rooms s.rooms h

/-! ### Entries of the two per-client maps -/

/-- The ids that have an entry in `client_rooms` and in `pending_removals`,
whether or not it names a room. -/
@[ext] structure Entries where
  indexed : Finset String
  waiting : Finset String

/-- The entries of a state. -/
def AppState.entries (s : AppState) : Entries := ⟨s.clientRooms.keys, s.pendingRemovals.keys⟩

lemma mem_waiting_iff {s : AppState} {id : String} : id ∈ s.entries.waiting ↔ HasPending s id := by
  rw [HasPending, Finmap.lookup_isSome]
  exact Finmap.mem_keys

/-- The three maps memberships are kept in. -/
def AppState.roomMaps (s : AppState) :
    DashMap (Finset String) × DashMap (Finset String) × DashMap PendingRemoval :=
  (s.rooms, s.clientRooms, s.pendingRemovals)

/-- A statement that leaves the three maps alone changes no membership, no
entry and empties no room. -/
lemma memberships_of_roomMaps {s t : AppState} (h : t.roomMaps = s.roomMaps) :
    t.ledger = s.ledger ∧ t.entries = s.entries ∧ (NoEmptyRoom s → NoEmptyRoom t) := by
  rw [AppState.roomMaps, AppState.roomMaps, Prod.mk.injEq, Prod.mk.injEq] at h
  obtain ⟨h₁, h₂, h₃⟩ := h
  refine ⟨?_, ?_, fun hs => ?_⟩
  · simp only [AppState.ledger, h₁, h₂, h₃]
  · rw [AppState.entries, h₂, h₃]
    rfl
  · rw [NoEmptyRoom, h₁]
    exact hs

lemma entries_joinRoom (s : AppState) (id key : String) :
    (joinRoom s id key).entries = { s.entries with indexed := insert id s.entries.indexed } := by
  simp only [AppState.entries, joinRoom, FinMap.keys_insert]

lemma entries_removeClientFromRoom (s : AppState) (id key : String) :
    (removeClientFromRoom s id key).entries = s.entries := by
  rw [AppState.entries, pendingRemovals_removeClientFromRoom, clientRooms_removeClientFromRoom]
  split_ifs
  · rw [FinMap.keys_modify]
    rfl
  · rfl

lemma entries_foldl_removeClientFromRoom (id : String) (l : List String) (s : AppState) :
    (l.foldl (fun s room => removeClientFromRoom s id room) s).entries = s.entries := by
  induction l generalizing s with
  | nil => rfl
  | cons room l ih => rw [List.foldl_cons, ih, entries_removeClientFromRoom]

/-- After the removal of a client its reverse index is gone, and no other
client waits than before. -/
lemma entries_removeClientFromAllRooms (env : Env) (cfg : Config) (s : AppState) (id : String) :
    (removeClientFromAllRooms env cfg s id).entries.indexed = s.entries.indexed.erase id ∧
      (removeClientFromAllRooms env cfg s id).entries.waiting ⊆
        if cfg.sessionTtl = 0 then s.entries.waiting else insert id s.entries.waiting := by
  have hnone : s.clientRooms.lookup id = none → s.entries.indexed.erase id = s.entries.indexed := by
    intro h
    exact Finset.erase_eq_of_notMem fun hm => Finmap.lookup_eq_none.mp h (Finmap.mem_keys.mp hm)
  rw [removeClientFromAllRooms]
  split_ifs
  · rw [immediateRemoveFromAllRooms]
    cases hc : s.clientRooms.lookup id with
    | none => exact ⟨(hnone hc).symm, Finset.Subset.refl _⟩
    | some rooms =>
        have he := entries_foldl_removeClientFromRoom id (env.order.toList rooms)
          { s with clientRooms := s.clientRooms.erase id }
        constructor
        · exact (congrArg Entries.indexed he).trans (Finmap.keys_erase _ _)
        · exact (congrArg Entries.waiting he).subset
  · rw [deferRemoveFromAllRooms]
    cases hc : s.clientRooms.lookup id with
    | none => exact ⟨(hnone hc).symm, Finset.subset_insert _ _⟩
    | some rooms =>
        refine ⟨Finmap.keys_erase _ _, ?_⟩
        simp only [AppState.entries]
        split_ifs
        · exact Finset.subset_insert _ _
        · rw [FinMap.keys_insert]

lemma entries_expireSession (s : AppState) (id : String) :
    (expireSession s id).entries = { s.entries with waiting := s.entries.waiting.erase id } := by
  rw [expireSession]
  cases hp : s.pendingRemovals.lookup id with
  | none =>
      have hid : id ∉ s.entries.waiting := fun hm =>
        Finmap.lookup_eq_none.mp hp (Finmap.mem_keys.mp hm)
      rw [Finset.erase_eq_of_notMem hid]
  | some pending =>
      dsimp only
      rw [entries_foldl_removeClientFromRoom]
      simp only [AppState.entries, Finmap.keys_erase]

/-- A pass makes no client wait. -/
lemma waiting_cleanupExpiredSessions (env : Env) (cfg : Config) (s : AppState) :
    (cleanupExpiredSessions env cfg s).entries.waiting ⊆ s.entries.waiting := by
  refine cleanupExpiredSessions_induction (P := fun t => t.entries.waiting ⊆ s.entries.waiting)
    env cfg (Finset.Subset.refl _) fun t k ht => ?_
  rw [entries_expireSession]
  exact (Finset.erase_subset _ _).trans ht

lemma entries_restoreSession {s : AppState} {id : String} (hp : HasPending s id) :
    (restoreSession s id).entries =
      ⟨insert id s.entries.indexed, s.entries.waiting.erase id⟩ := by
  obtain ⟨pending, hp⟩ := Option.isSome_iff_exists.mp hp
  simp only [restoreSession, hp, AppState.entries, FinMap.keys_insert, Finmap.keys_erase]

/-! ### What the handlers do to memberships and registry -/

/-- A refused or malformed `ROOM-JOIN` changes no membership; an accepted one
joins the room under its storage key. -/
lemma ledger_handleRoomJoin (env : Env) (cfg : Config) (s : AppState) (id : String)
    (msg : Message) :
    (handleRoomJoin env cfg s id msg).ledger =
      match msg.room with
      | some room =>
          if joinDenial cfg s id room = none then s.ledger.join id (roomKey s id room)
          else s.ledger
      | none => s.ledger := by
  rw [handleRoomJoin]
  cases msg.room with
  | none => rfl
  | some room =>
      dsimp only
      cases joinDenial cfg s id room with
      | none => rw [if_pos rfl, ← ledger_joinRoom]; rfl
      | some denial => rw [if_neg (by simp)]; rfl

lemma noEmptyRoom_handleRoomJoin (env : Env) (cfg : Config) {s : AppState} (h : NoEmptyRoom s)
    (id : String) (msg : Message) : NoEmptyRoom (handleRoomJoin env cfg s id msg) := by
  rw [handleRoomJoin]
  cases msg.room with
  | none => exact h
  | some room =>
      dsimp only
      cases joinDenial cfg s id room with
      | none => exact noEmptyRoom_joinRoom h id (roomKey s id room)
      | some denial => exact h

lemma ledger_handleRoomLeave {s : AppState} (hs : s.ledger.Sound) (id : String) (msg : Message) :
    (handleRoomLeave s id msg).ledger =
      match msg.room with
      | some room =>
          if isValidIdentifier room then s.ledger.leave id (roomKey s id room) else s.ledger
      | none => s.ledger := by
  rw [handleRoomLeave]
  cases msg.room with
  | none => rfl
  | some room =>
      dsimp only
      cases isValidIdentifier room with
      | false => rfl
      | true => exact ledger_removeClientFromRoom hs id _

lemma noEmptyRoom_handleRoomLeave {s : AppState} (h : NoEmptyRoom s) (id : String)
    (msg : Message) : NoEmptyRoom (handleRoomLeave s id msg) := by
  obtain hs | ⟨room, -, -, hs⟩ := handleRoomLeave_cases s id msg
  · rw [hs]
    exact h
  · rw [hs]
    exact noEmptyRoom_removeClientFromRoom h id _

/-- A refused join adds no entry; an accepted one adds the client's own. -/
lemma entries_handleRoomJoin (env : Env) (cfg : Config) (s : AppState) (id : String)
    (msg : Message) :
    (handleRoomJoin env cfg s id msg).entries =
      match msg.room with
      | some room =>
          if joinDenial cfg s id room = none then
            { s.entries with indexed := insert id s.entries.indexed }
          else s.entries
      | none => s.entries := by
  rw [handleRoomJoin]
  cases msg.room with
  | none => rfl
  | some room =>
      dsimp only
      cases joinDenial cfg s id room with
      | none => rw [if_pos rfl, ← entries_joinRoom s id (roomKey s id room)]; rfl
      | some denial => rw [if_neg (by simp)]; rfl

lemma entries_handleRoomLeave (s : AppState) (id : String) (msg : Message) :
    (handleRoomLeave s id msg).entries = s.entries := by
  obtain hs | ⟨room, -, -, hs⟩ := handleRoomLeave_cases s id msg
  · rw [hs]
  · rw [hs]
    exact entries_removeClientFromRoom s id _

lemma registry_removeClientFromRoom (s : AppState) (id key : String) :
    (removeClientFromRoom s id key).registry = s.registry := by
  rw [removeClientFromRoom]
  split
  · rfl
  · dsimp only
    split_ifs <;> rfl

lemma registry_foldl_removeClientFromRoom (id : String) (l : List String) (s : AppState) :
    (l.foldl (fun s room => removeClientFromRoom s id room) s).registry = s.registry := by
  induction l generalizing s with
  | nil => rfl
  | cons room l ih => rw [List.foldl_cons, ih, registry_removeClientFromRoom]

lemma registry_handleRoomJoin (env : Env) (cfg : Config) (s : AppState) (id : String)
    (msg : Message) : (handleRoomJoin env cfg s id msg).registry = s.registry := by
  rw [handleRoomJoin]
  split
  · rfl
  · split <;> rfl

lemma registry_handleRoomLeave (s : AppState) (id : String) (msg : Message) :
    (handleRoomLeave s id msg).registry = s.registry := by
  obtain hs | ⟨room, -, -, hs⟩ := handleRoomLeave_cases s id msg
  · rw [hs]
  · rw [hs]
    exact registry_removeClientFromRoom s id _

/-- Of the registry, the removal from all rooms touches the replay buffer
only. -/
lemma registry_removeClientFromAllRooms (env : Env) (cfg : Config) (s : AppState) (id : String) :
    (removeClientFromAllRooms env cfg s id).registry =
      { s.registry with replay := s.registry.replay.removeClient id } := by
  have key : ∀ t : AppState, t.registry = s.registry →
      AppState.registry { t with replayBuffer := t.replayBuffer.removeClient id } =
        { s.registry with replay := s.registry.replay.removeClient id } := by
    intro t ht
    rw [← ht]
    rfl
  rw [removeClientFromAllRooms, immediateRemoveFromAllRooms, deferRemoveFromAllRooms]
  split_ifs
  · refine key _ ?_
    cases s.clientRooms.lookup id with
    | none => rfl
    | some rooms => rw [registry_foldl_removeClientFromRoom]; rfl
  · refine key _ ?_
    cases s.clientRooms.lookup id with
    | none => rfl
    | some rooms => rfl

/-- A client without an entry in the reverse index is in no room that the
removal would visit. -/
lemma removeClientFromAllRooms_of_none (env : Env) (cfg : Config) {s : AppState} {id : String}
    (h : s.clientRooms.lookup id = none) :
    removeClientFromAllRooms env cfg s id =
      { s with replayBuffer := s.replayBuffer.removeClient id } := by
  rw [removeClientFromAllRooms, immediateRemoveFromAllRooms, deferRemoveFromAllRooms, h]
  split_ifs
  · rfl
  · rfl

lemma registry_expireSession (s : AppState) (id : String) :
    (expireSession s id).registry = s.registry := by
  rw [expireSession]
  cases s.pendingRemovals.lookup id with
  | none => rfl
  | some pending => rw [registry_foldl_removeClientFromRoom]; rfl

lemma registry_cleanupExpiredSessions (env : Env) (cfg : Config) (s : AppState) :
    (cleanupExpiredSessions env cfg s).registry = s.registry :=
  cleanupExpiredSessions_induction (P := fun t => t.registry = s.registry) env cfg rfl
    fun t id ht => (registry_expireSession t id).trans ht

lemma registry_restoreSession (s : AppState) (id : String) :
    (restoreSession s id).registry = s.registry := by
  rw [restoreSession]
  cases s.pendingRemovals.lookup id with
  | none => rfl
  | some pending => rfl

end Dendri
