import Dendri.Services

/-!
The handlers that register and remove nobody. They move memberships, presence,
buffered and queued messages, and apart from that they only send.

* `AppState.core`: the fields that are left when those are taken away;
* `Upkeep R`: the relation `R` between the states before and after contains the
  statements that leave the core alone and those that send, and is transitive;
* `Upkeep.removeClientFromRoom`, ..., `Upkeep.messagesExpire`: then it contains
  the handlers that are put together from such statements.
-/

namespace Dendri

open AppState

/-- The client records, the channels and their ends. -/
def AppState.core (s : AppState) : DashMap ℕ × DashMap ClientMeta × DashMap Value ×
    DashMap String × UInt64 × DashMap ℕ × (ℕ → Channel) × ℕ :=
  (s.wsSenders, s.clients, s.clientClaims, s.clientTenants, s.activeConnections,
    s.pollingReceivers, s.chans, s.nextChan)

/-- A relation between states that statements which only keep books and send
satisfy. -/
structure Upkeep (R : AppState → AppState → Prop) : Prop where
  trans : ∀ {s t u}, R s t → R t u → R s u
  of_core : ∀ {s t}, t.core = s.core → R s t
  send : ∀ s c frames, R s (AppState.send s c frames)
  fanOut : ∀ s members frame, R s (AppState.fanOut s members frame)

namespace Upkeep

variable {R : AppState → AppState → Prop} (h : Upkeep R)

include h

lemma refl (s : AppState) : R s s := h.of_core rfl

/-- A statement before or after that leaves the core alone does not count. -/
lemma after_core {s t u : AppState} (htu : R t u) (ht : t.core = s.core) : R s u :=
  h.trans (h.of_core ht) htu

lemma then_core {s t u : AppState} (hst : R s t) (hu : u.core = t.core) : R s u :=
  h.trans hst (h.of_core hu)

lemma sendTo (s : AppState) (id : String) (frames : List Frame) : R s (s.sendTo id frames) := by
  cases hc : s.wsSenders.lookup id with
  | none =>
      rw [sendTo_of_none hc]
      exact h.refl s
  | some c =>
      rw [sendTo_of_some hc]
      exact h.send s c frames

/-- A loop of statements of the relation. -/
lemma foldl {α : Type} {f : AppState → α → AppState} (hf : ∀ t a, R t (f t a)) (l : List α)
    (s : AppState) : R s (l.foldl f s) := by
  induction l generalizing s with
  | nil => exact h.refl s
  | cons a l ih => exact h.trans (hf s a) (ih (f s a))

/-! ### Rooms -/

lemma removeClientFromRoom (s : AppState) (id key : String) :
    R s (removeClientFromRoom s id key) := by
  rw [removeClientFromRoom.eq_def]
  split
  · exact h.refl s
  · rename_i members hmembers
    dsimp only
    split_ifs
    · exact h.of_core rfl
    · have hfan := h.fanOut
        { s with
          rooms := s.rooms.insert key (members.erase id)
          presence := FinMap.modify s.presence key fun p => p.erase id }
        (members.erase id) (.roomPeers (roomDisplay key) (members.erase id))
      exact h.then_core (h.after_core hfan rfl) rfl

lemma removeClientFromAllRooms (env : Env) (cfg : Config) (s : AppState) (id : String) :
    R s (removeClientFromAllRooms env cfg s id) := by
  have hbuffer : ∀ t : AppState, R t { t with replayBuffer := t.replayBuffer.removeClient id } :=
    fun t => h.of_core rfl
  exact removeClientFromAllRooms_induction (P := R s) env cfg (h.refl s) (h.of_core rfl)
    (fun t room ht => h.trans ht (h.removeClientFromRoom t id room)) (fun _ _ => h.of_core rfl)
    fun t ht => h.trans ht (hbuffer t)

lemma cleanupExpiredSessions (env : Env) (cfg : Config) (s : AppState) :
    R s (cleanupExpiredSessions env cfg s) := by
  refine cleanupExpiredSessions_induction (P := R s) env cfg (h.refl s) fun t id ht =>
    h.trans ht ?_
  exact expireSession_induction (P := R t) (h.refl t) (h.of_core rfl) fun u room hu =>
    h.trans hu (h.removeClientFromRoom u id room)

lemma handleRoomJoin (env : Env) (cfg : Config) (s : AppState) (id : String) (msg : Message) :
    R s (handleRoomJoin env cfg s id msg) := by
  rw [handleRoomJoin.eq_def]
  split
  · exact h.refl s
  · split
    · exact h.sendTo s id _
    · exact h.after_core (h.sendTo _ id _) rfl

lemma handleRoomLeave (s : AppState) (id : String) (msg : Message) :
    R s (handleRoomLeave s id msg) := by
  obtain hs | ⟨room, -, -, hs⟩ := handleRoomLeave_cases s id msg
  · rw [hs]
    exact h.refl s
  · rw [hs]
    exact h.removeClientFromRoom s id _

/-- Restoring a session moves memberships only. -/
lemma restoreSession (s : AppState) (id : String) : R s (restoreSession s id) := by
  rw [restoreSession.eq_def]
  split
  · exact h.of_core rfl
  · exact h.refl s

/-! ### Messages -/

lemma handleData (env : Env) (cfg : Config) (s : AppState) (id : String) (msg : Message) :
    R s (handleData env cfg s id msg) := by
  have hcount : R s { s with seqCounter := s.seqCounter + 1 } := h.of_core rfl
  have hbuffer : ∀ (t : AppState) (key : String) (seq : ℕ) (msg : Message),
      R t (bufferRelay env t key seq msg) := fun _ _ _ _ => h.of_core rfl
  refine handleData_induction (P := R s) ?_ ?_ ?_ ?_ ?_
  · exact h.sendTo s id _
  · exact h.refl s
  · intro room _ _
    exact h.trans (h.trans hcount (h.fanOut _ _ _)) (hbuffer _ _ _ _)
  · intro dst _ _ _
    exact h.trans (h.trans hcount (h.sendTo _ _ _)) (hbuffer _ _ _ _)
  · exact hcount

lemma handlePresenceUpdate (s : AppState) (id : String) (msg : Message) :
    R s (handlePresenceUpdate s id msg) := by
  rw [handlePresenceUpdate.eq_def]
  split
  · exact h.refl s
  · split_ifs
    · exact h.refl s
    · exact h.after_core (h.fanOut _ _ _) rfl

lemma meter (env : Env) (s : AppState) (id : String) (type_ : MessageType) :
    R s (meter env s id type_).1 := by
  rw [Dendri.meter]
  split
  · exact h.of_core rfl
  · exact h.refl s

lemma deliverQueuedMessages (env : Env) (s : AppState) (id : String) (c : ℕ) :
    R s (deliverQueuedMessages env s id c) := by
  have htouch : R s (s.redisTouchQueue env id) := h.of_core rfl
  rw [Dendri.deliverQueuedMessages]
  split_ifs
  · exact htouch
  · exact h.then_core (h.trans htouch (h.send _ c _)) rfl

lemma messagesExpire (env : Env) (cfg : Config) (s : AppState) :
    R s (messagesExpire env cfg s) :=
  messagesExpire_induction (P := R s) env cfg (h.refl s) (fun _ _ ht => h.then_core ht rfl)
    fun t src _ ht => h.trans ht (h.sendTo t src _)

end Upkeep

end Dendri
