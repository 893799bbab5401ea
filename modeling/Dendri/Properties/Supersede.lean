import Dendri.System
import Dendri.Properties.Admission

/-!
Cleanups on behalf of a connection that is no longer the current one of its
id. A WebSocket checks on closing that its channel is still the id's; the
cleanup of an event stream, from its watchdog or at its end, does not.

* `cleanupOf`: the connection on whose behalf a step runs its disconnect code;
* `cleanupClient_unchanged_iff`: `cleanup_client` changes nothing just when the
  id has no entry left;
* `superseded_cleanup_iff`: in every run, the cleanups on behalf of superseded
  connections change nothing just when each of them is a WebSocket's, or finds
  no entry for its id.
-/

namespace Dendri

open AppState Transition

/-- The connection on whose behalf a step runs its disconnect code. -/
def cleanupOf (w : World) : Event → Option Conn
  | .wsClose k => w.openConn k .WebSocket
  | .watchdogTick k => w.droppedStream k
  | .streamEnd k => w.endedStream k
  | _ => none

/-- The channel of the connection is no longer the one stored for its id. -/
def Superseded (w : World) (K : Conn) : Prop := w.app.wsSenders.lookup K.id ≠ some K.chan

/-- The maps and the counter that a cleanup writes are the same. -/
structure SameClients (s s' : AppState) : Prop where
  clients : s'.clients = s.clients
  wsSenders : s'.wsSenders = s.wsSenders
  clientClaims : s'.clientClaims = s.clientClaims
  clientTenants : s'.clientTenants = s.clientTenants
  rooms : s'.rooms = s.rooms
  clientRooms : s'.clientRooms = s.clientRooms
  activeConnections : s'.activeConnections = s.activeConnections

/-- The id has no entry in the maps that a cleanup erases it from. -/
structure NoEntry (s : AppState) (id : String) : Prop where
  clients : s.clients.lookup id = none
  wsSenders : s.wsSenders.lookup id = none
  clientClaims : s.clientClaims.lookup id = none
  clientTenants : s.clientTenants.lookup id = none
  clientRooms : s.clientRooms.lookup id = none

/-- `cleanup_client` of an id without entries. -/
lemma cleanupClient_of_noEntry (env : Env) (cfg : Config) {s : AppState} {id : String}
    (h : NoEntry s id) : SameClients s (cleanupClient env cfg s id) := by
  rw [cleanupClient, teardown, removeClientFromAllRooms_of_none]
  · refine ⟨FinMap.erase_eq_self h.clients, FinMap.erase_eq_self h.wsSenders,
      FinMap.erase_eq_self h.clientClaims, FinMap.erase_eq_self h.clientTenants, rfl, rfl, ?_⟩
    have hnone : ¬(s.clients.lookup id).isSome = true := by rw [h.clients]; simp
    exact if_neg hnone
  · exact h.clientRooms

lemma indexed_cleanupClient (env : Env) (cfg : Config) (s : AppState) (id : String) :
    (cleanupClient env cfg s id).entries.indexed = s.entries.indexed.erase id :=
  (entries_removeClientFromAllRooms env cfg
    (((AppState.dropClient { s with pollingReceivers := s.pollingReceivers.erase id }
      id).eraseAuth id).removeBuckets id) id).1

/-- `cleanup_client` changes nothing just when there is nothing to remove. -/
lemma cleanupClient_unchanged_iff (env : Env) (cfg : Config) (s : AppState) (id : String) :
    SameClients s (cleanupClient env cfg s id) ↔ NoEntry s id := by
  refine ⟨fun h => ?_, cleanupClient_of_noEntry env cfg⟩
  obtain ⟨hreg, -⟩ := cleanupClient_frame env cfg s id
  have hids : s.clients.keys.erase id = s.clients.keys :=
    (congrArg Registry.ids hreg).symm.trans (congrArg Finmap.keys h.clients)
  have hindexed : s.clientRooms.keys.erase id = s.clientRooms.keys :=
    (indexed_cleanupClient env cfg s id).symm.trans (congrArg Finmap.keys h.clientRooms)
  have hsenders : s.wsSenders.erase id = s.wsSenders :=
    (congrArg Registry.senders hreg).symm.trans h.wsSenders
  have hclaims : s.clientClaims.erase id = s.clientClaims :=
    (congrArg Registry.claims hreg).symm.trans h.clientClaims
  have htenants : s.clientTenants.erase id = s.clientTenants :=
    (congrArg Registry.tenants hreg).symm.trans h.clientTenants
  refine ⟨?_, FinMap.erase_eq_self_iff.mp hsenders, FinMap.erase_eq_self_iff.mp hclaims,
    FinMap.erase_eq_self_iff.mp htenants, ?_⟩
  · rw [Finmap.lookup_eq_none]
    exact fun hmem => Finset.erase_eq_self.mp hids (Finmap.mem_keys.mpr hmem)
  · rw [Finmap.lookup_eq_none]
    exact fun hmem => Finset.erase_eq_self.mp hindexed (Finmap.mem_keys.mpr hmem)

/-- The cleanup of a superseded connection changes nothing. -/
def SupersededHarmless (w : World) (l : Label) (w' : World) : Prop :=
  ∀ K, cleanupOf w l.event = some K → Superseded w K → SameClients w.app w'.app

/-- A superseded connection that is cleaned up is a WebSocket, or its id has no
entry. -/
def SupersededGone (w : World) (l : Label) : Prop :=
  ∀ K, cleanupOf w l.event = some K → Superseded w K →
    (∃ k, l.event = .wsClose k) ∨ NoEntry w.app K.id

lemma supersededHarmless_iff_of_step {cfg : Config} {w w' : World} {l : Label}
    (h : step cfg w l = some w') : SupersededHarmless w l w' ↔ SupersededGone w l := by
  obtain ⟨env, ev⟩ := l
  -- the state after a cleanup, whichever step runs it
  have hcleanup : ∀ K, cleanupOf w ev = some K → (¬∃ k, ev = .wsClose k) →
      (SameClients w.app w'.app ↔ NoEntry w.app K.id) →
      (SupersededHarmless w ⟨env, ev⟩ w' ↔ SupersededGone w ⟨env, ev⟩) := by
    intro K hK hws hiff
    constructor
    · intro hsame K' hK' hsup
      obtain rfl := Option.some.inj (hK.symm.trans hK')
      exact Or.inr (hiff.mp (hsame K hK hsup))
    · intro hgone K' hK' hsup
      obtain rfl := Option.some.inj (hK.symm.trans hK')
      exact hiff.mpr ((hgone K hK hsup).resolve_left hws)
  have hnone : cleanupOf w ev = none →
      (SupersededHarmless w ⟨env, ev⟩ w' ↔ SupersededGone w ⟨env, ev⟩) := by
    intro hnone
    exact ⟨fun _ K hK => absurd (hnone.symm.trans hK) (by simp),
      fun _ K hK => absurd (hnone.symm.trans hK) (by simp)⟩
  cases ev with
  | wsClose k =>
      obtain ⟨K, hK, hw⟩ := Option.map_eq_some_iff.mp h
      refine ⟨fun _ _ _ _ => Or.inl ⟨k, rfl⟩, fun _ K' hK' hsup => ?_⟩
      obtain rfl := Option.some.inj (hK.symm.trans hK')
      rw [← hw, closeSocket, if_neg hsup]
      exact ⟨rfl, rfl, rfl, rfl, rfl, rfl, rfl⟩
  | watchdogTick k =>
      cases hK : w.droppedStream k with
      | none => exact hnone hK
      | some K =>
          have hw : watchdogTick env cfg w k = some w' := h
          rw [watchdogTick, hK, Option.some.injEq] at hw
          refine hcleanup K hK (by simp) ?_
          rw [← hw]
          exact cleanupClient_unchanged_iff env cfg w.app K.id
  | streamEnd k =>
      obtain ⟨K, hK, hw⟩ := Option.map_eq_some_iff.mp h
      refine hcleanup K hK (by simp) ?_
      rw [← hw, ← cleanupClient_unchanged_iff env cfg w.app K.id]
      exact ⟨fun h => ⟨h.1, h.2, h.3, h.4, h.5, h.6, h.7⟩,
        fun h => ⟨h.1, h.2, h.3, h.4, h.5, h.6, h.7⟩⟩
  | _ => exact hnone rfl

/-- In every run, the cleanups on behalf of superseded connections change
nothing just when each of them is the close of a WebSocket, or finds no entry
for its id. -/
theorem superseded_cleanup_iff (cfg : Config) (redis : Redis) (ls : List Label) :
    AllSteps (step cfg) SupersededHarmless (World.init cfg redis) ls ↔
      AllSteps (step cfg) (fun w l _ => SupersededGone w l) (World.init cfg redis) ls :=
  AllSteps.congr fun _ _ _ => supersededHarmless_iff_of_step

/-- `alice` opens an event stream, then a WebSocket with the same token; the
client of the stream leaves. -/
def streamThenSocket : List Label :=
  [.connect (.sse (Params.plain "alice" "tok").query), .connect (Params.plain "alice" "tok").ws,
    .receiverDrop 0].map quietly

/-- A superseded connection can tear down its successor: the watchdog of the
stream removes the client of the WebSocket. -/
theorem watchdog_tears_down_successor :
    ¬∀ (cfg : Config) (redis : Redis) (ls : List Label),
      AllSteps (step cfg) SupersededHarmless (World.init cfg redis) ls := by
  intro hall
  have hrun := hall {} Redis.empty (streamThenSocket ++ [quietly (.watchdogTick 0)])
  have heval : (run (step {}) (World.init {} Redis.empty) streamThenSocket).bind (fun w =>
      (step {} w (quietly (.watchdogTick 0))).map fun w' =>
        ((w.droppedStream 0).map fun K => (K.id, K.chan), w.app.wsSenders.lookup "alice",
          w.app.clients.keys, w'.app.clients.keys)) =
      some (some ("alice", 0), some 1, {"alice"}, ∅) := by decide +kernel
  obtain ⟨w, hw, hstep⟩ := Option.bind_eq_some_iff.mp heval
  obtain ⟨w', hw', hobs⟩ := Option.map_eq_some_iff.mp hstep
  rw [Prod.mk.injEq, Prod.mk.injEq, Prod.mk.injEq] at hobs
  obtain ⟨hK, hsender, hbefore, hafter⟩ := hobs
  obtain ⟨K, hK, hfields⟩ := Option.map_eq_some_iff.mp hK
  rw [Prod.mk.injEq] at hfields
  have hsup : Superseded w K := by
    rw [Superseded, hfields.1, hfields.2, hsender]
    decide
  have hsame := (AllSteps.last hrun hw hw' K hK hsup).clients
  rw [hsame, hbefore] at hafter
  exact absurd hafter (by decide)

end Dendri
