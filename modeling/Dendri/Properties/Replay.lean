import Dendri.System
import Dendri.Properties.Admission

/-!
Replay buffers and room traffic. The buffers of clients and of rooms share one
map, keyed by client ids and by storage keys of rooms; a room without a tenant
is stored under its bare name, which may also be a client id.

* `PointToPoint`: a relayed `DATA` message without a room, for one client;
* `KeysApart`: a step admits connections only for client ids, and buffers room
  messages only under other keys;
* `private_of_step`, `replay_private_of_apart`: in every run of such steps, a
  client is replayed only what was sent to it, and no disconnect deletes a
  buffered room message.
-/

namespace Dendri

open AppState Transition

/-- The frame is a `DATA` message that was sent to the client `id`, not to a
room. -/
def PointToPoint (id : String) (frame : Frame) : Prop :=
  ∃ out, frame = .relay out ∧ out.type_ = .DATA ∧ out.room = none ∧ out.dst = some id

/-- The frame is a message that was sent to a room. -/
def ForRoom (frame : Frame) : Prop := ∃ out, frame = .relay out ∧ out.room ≠ none

lemma PointToPoint.not_forRoom {id : String} {frame : Frame} (h : PointToPoint id frame) :
    ¬ForRoom frame := by
  obtain ⟨out, rfl, -, hroom, -⟩ := h
  rintro ⟨out', heq, hne⟩
  rw [Frame.relay.injEq] at heq
  exact hne (heq ▸ hroom)

/-- Client ids and the keys of buffered room messages are kept apart by the set
`isId`. -/
structure KeysApart (isId : String → Prop) (cfg : Config) (w : World) (l : Label) : Prop where
  /-- The ids that connections are admitted for. -/
  admitted : ∀ r id, l.event = .connect r → (connect l.env cfg w.app r).isAdmitted = true →
    r.id = some id → isId id
  /-- The keys that messages with a room are buffered under. -/
  buffered : ∀ id msg key, incoming cfg w l.event = some (id, msg) →
    allowed l.env id msg.type_ = true → msg.room ≠ none →
    bufferKey cfg w.app id msg = some key → ¬isId key

/-- All connections are for client ids, and what is buffered under a client id
was sent to that client. -/
structure Private (isId : String → Prop) (w : World) : Prop where
  conns : ∀ K ∈ w.conns, isId K.id
  buffers : ∀ key m, w.app.replayBuffer.Holds key m → isId key → PointToPoint key m.data

/-- What `replay_since` answers is in the buffers. -/
lemma Private.replaySince {isId : String → Prop} {w : World} (h : Private isId w) {now : ℕ}
    {id : String} {seq : ℕ} (hid : isId id) {frame : Frame}
    (hframe : frame ∈ w.app.replayBuffer.replaySince now id seq) : PointToPoint id frame := by
  obtain ⟨m, hm, rfl⟩ := ReplayBuffer.holds_of_mem_replaySince hframe
  exact h.buffers id m hm hid

/-- A message without a room is buffered for its destination. -/
lemma dst_of_bufferKey {cfg : Config} {s : AppState} {id key : String} {msg : Message}
    (hroom : msg.room = none) (h : bufferKey cfg s id msg = some key) : msg.dst = some key := by
  rw [bufferKey, hroom] at h
  split_ifs at h
  exact h

/-- What a buffer holds after a step was there before, or is the message of the
step, under its `bufferKey`. -/
lemma holds_of_step {cfg : Config} {w w' : World} {l : Label} {key : String}
    {m : BufferedMessage Frame} (h : step cfg w l = some w')
    (hm : w'.app.replayBuffer.Holds key m) :
    w.app.replayBuffer.Holds key m ∨ ∃ id msg, incoming cfg w l.event = some (id, msg) ∧
      allowed l.env id msg.type_ = true ∧ bufferKey cfg w.app id msg = some key ∧
      ∃ out, m.data = .relay out ∧ out.type_ = .DATA ∧ out.room = msg.room ∧
        out.dst = msg.dst := by
  obtain ⟨env, ev⟩ := l
  have ht := step_trans h
  dsimp only at ht
  have hkeep : ∀ s' : AppState, s'.replayBuffer = w.app.replayBuffer →
      s'.replayBuffer.Holds key m → w.app.replayBuffer.Holds key m :=
    fun s' heq hs' => heq ▸ hs'
  -- a cleanup drops the buffer of its id and no other
  have hdown : ∀ (id : String) (s' : AppState),
      s'.replayBuffer = w.app.replayBuffer.removeClient id →
      s'.replayBuffer.Holds key m → w.app.replayBuffer.Holds key m := by
    intro id s' hreplay hs'
    rw [hreplay, ReplayBuffer.holds_removeClient] at hs'
    exact hs'.1
  cases ht with
  | refused r why hout =>
      refine Or.inl (hkeep _ ?_ hm)
      cases storedClaims env cfg r with
      | none => rfl
      | some pair => rfl
  | admitted r K s' hout hadm => exact Or.inl (hkeep s' hadm.replayBuffer hm)
  | message ev id msg s' hin hrec =>
      exact (hrec.holds key m hm).imp_right fun hnew => ⟨id, msg, hin, hnew⟩
  | socketClosed k K s' hdown' hreg hun =>
      exact Or.inl (hdown K.id s' (congrArg Registry.replay hreg) hm)
  | streamCleaned ev k K s' f hev hdown' hlater hclose hreg hun =>
      exact Or.inl (hdown K.id s' (congrArg Registry.replay hreg) hm)
  | evicted =>
      have hreg := (registry_evictBroken env cfg w.app).1
      exact Or.inl (hkeep _ ((congrArg Registry.replay hreg).trans
        (Registry.replay_foldl_drop _ _)) hm)
  | reconciled => exact Or.inl hm
  | expired =>
      exact Or.inl (hkeep _ (congrArg Registry.replay
        (registry_cleanupExpiredSessions env cfg w.app)) hm)
  | replayEvicted => exact Or.inl (ReplayBuffer.holds_evictExpired hm)
  | quiet ev w' hin hdown' hconnect hevict hreg hmaps hconns =>
      exact Or.inl (hkeep _ (congrArg Registry.replay hreg) hm)

/-- The connections after a step are those before it, and the one it admits. -/
lemma conn_of_step {cfg : Config} {w w' : World} {l : Label} {K' : Conn}
    (h : step cfg w l = some w') (hK' : K' ∈ w'.conns) :
    (∃ K ∈ w.conns, K'.id = K.id) ∨ ∃ r, l.event = .connect r ∧ r.id = some K'.id ∧
      (connect l.env cfg w.app r).isAdmitted = true := by
  obtain ⟨env, ev⟩ := l
  have ht := step_trans h
  have hlater : ConnsLater w.conns w'.conns → ∃ K ∈ w.conns, K'.id = K.id := by
    intro hconns
    obtain ⟨j, hj⟩ := List.mem_iff_getElem?.mp hK'
    obtain ⟨K, hK, hlater⟩ := hconns.back j K' hj
    exact ⟨K, List.mem_of_getElem? hK, hlater.id⟩
  dsimp only at ht
  cases ht with
  | admitted r K s' hout hadm =>
      rcases List.mem_append.mp hK' with hold | hnew
      · exact Or.inl ⟨K', hold, rfl⟩
      · rw [List.mem_singleton.mp hnew]
        exact Or.inr ⟨r, rfl, hadm.admittedFor.id, by rw [hout]; rfl⟩
  | socketClosed k K s' hdown' hreg hun =>
      exact Or.inl (hlater (ConnsLater.modify _ k Conn.later_close))
  | streamCleaned ev k K s' f hev hdown' hlater' hclose hreg hun =>
      exact Or.inl (hlater (ConnsLater.modify _ k hlater'))
  | quiet ev w' hin hdown' hconnect hevict hreg hmaps hconns => exact Or.inl (hlater hconns)
  | _ => exact Or.inl ⟨K', hK', rfl⟩

/-- One step that keeps the keys apart keeps the buffers private. -/
lemma private_of_step {isId : String → Prop} {cfg : Config} {w w' : World} {l : Label}
    (hw : Private isId w) (hapart : KeysApart isId cfg w l) (h : step cfg w l = some w') :
    Private isId w' := by
  refine ⟨fun K' hK' => ?_, fun key m hm hid => ?_⟩
  · rcases conn_of_step h hK' with ⟨K, hK, hid⟩ | ⟨r, hr, hid, hadmitted⟩
    · rw [hid]
      exact hw.conns K hK
    · exact hapart.admitted r K'.id hr hadmitted hid
  · rcases holds_of_step h hm with hold | ⟨id, msg, hin, hallowed, hkey, out, hout⟩
    · exact hw.buffers key m hold hid
    · obtain ⟨hdata, htype, hroom, hdst⟩ := hout
      cases hr : msg.room with
      | some room =>
          have hne : msg.room ≠ none := by simp [hr]
          exact absurd hid (hapart.buffered id msg key hin hallowed hne hkey)
      | none => exact ⟨out, hdata, htype, hroom.trans hr, hdst.trans (dst_of_bufferKey hr hkey)⟩

/-! ### What is replayed, and what a disconnect deletes -/

/-- The step may remove a client: a disconnect cleanup, an eviction pass, or a
message between peers. -/
def Disconnects (cfg : Config) (w : World) (ev : Event) : Prop :=
  (∃ k K, cleanedUp w ev = some (k, K)) ∨ ev = .evictBroken ∨
    ∃ id msg, incoming cfg w ev = some (id, msg) ∧ msg.type_.isTransmission = true

/-- An admitted HTTP client is replayed only what was sent to it, whatever
sequence number it asks for, and a disconnect deletes no room message. -/
structure ReplayPrivate (cfg : Config) (w : World) (l : Label) (w' : World) : Prop where
  replayed : ∀ r q, r = .sse q ∨ r = .poll q → l.event = .connect r →
    (connect l.env cfg w.app r).isAdmitted = true →
    ∀ seq, ∀ frame ∈ w.app.replayBuffer.replaySince l.env.now q.id seq, PointToPoint q.id frame
  kept : Disconnects cfg w l.event → ∀ key m, w.app.replayBuffer.Holds key m → ForRoom m.data →
    w'.app.replayBuffer.Holds key m

/-- A disconnect removes at most the buffer of one admitted connection's id. -/
lemma replayBuffer_of_disconnects {cfg : Config} {w w' : World} {l : Label}
    (h : step cfg w l = some w') (hd : Disconnects cfg w l.event) :
    w'.app.replayBuffer = w.app.replayBuffer ∨
      ∃ K ∈ w.conns, w'.app.replayBuffer = w.app.replayBuffer.removeClient K.id := by
  rcases hd with ⟨k, K, hdown⟩ | hevict | ⟨id, msg, hin, htype⟩
  · have hK : K ∈ w.conns := List.mem_of_getElem? (conn_of_cleanedUp hdown)
    obtain ⟨env, ev⟩ := l
    have ht := step_trans h
    dsimp only at ht hdown
    refine Or.inr ⟨K, hK, ?_⟩
    cases ht with
    | socketClosed k' K' s' hdown' hreg hun =>
        obtain ⟨-, rfl⟩ := Prod.mk.inj (Option.some.inj (hdown.symm.trans hdown'))
        exact congrArg Registry.replay hreg
    | streamCleaned ev k' K' s' f hev hdown' hlater hclose hreg hun =>
        obtain ⟨-, rfl⟩ := Prod.mk.inj (Option.some.inj (hdown.symm.trans hdown'))
        exact congrArg Registry.replay hreg
    | message ev id msg s' hin hrec =>
        exact absurd ((only_of_incoming hin).1.symm.trans hdown) (by simp)
    | quiet ev w' hin hnone hconnect hevict hreg hmaps hconns =>
        exact absurd (hnone.symm.trans hdown) (by simp)
    | _ => exact absurd hdown (by simp [cleanedUp])
  · obtain ⟨env, ev⟩ := l
    dsimp only at hevict
    subst hevict
    rw [← Option.some.inj h]
    have hreg := (registry_evictBroken env cfg w.app).1
    exact Or.inl ((congrArg Registry.replay hreg).trans (Registry.replay_foldl_drop _ _))
  · exact Or.inl ((receives_of_step h hin).replay htype)

/-- With private buffers, replay and disconnects are. -/
lemma replayPrivate_of_step {isId : String → Prop} {cfg : Config} {w w' : World} {l : Label}
    (hw : Private isId w) (hapart : KeysApart isId cfg w l) (h : step cfg w l = some w') :
    ReplayPrivate cfg w l w' := by
  constructor
  · intro r q hr hev hadm seq frame hframe
    have hid : r.id = some q.id := by
      rcases hr with rfl | rfl
      · rfl
      · rfl
    exact hw.replaySince (hapart.admitted r q.id hev hadm hid) hframe
  · intro hd key m hm hroom
    rcases replayBuffer_of_disconnects h hd with heq | ⟨K, hK, heq⟩
    · rwa [heq]
    · rw [heq, ReplayBuffer.holds_removeClient]
      refine ⟨hm, ?_⟩
      rintro rfl
      exact (hw.buffers K.id m hm (hw.conns K hK)).not_forRoom hroom

/-- In every run that keeps client ids and the keys of buffered room messages
apart, replay is private, and disconnects delete no room message. -/
theorem replay_private_of_apart {isId : String → Prop} {cfg : Config} {redis : Redis}
    {ls : List Label}
    (hapart : AllSteps (step cfg) (fun w l _ => KeysApart isId cfg w l) (World.init cfg redis)
      ls) :
    AllSteps (step cfg) (ReplayPrivate cfg) (World.init cfg redis) ls := by
  have hinit : Private isId (World.init cfg redis) := by
    refine ⟨fun K hK => absurd hK (by simp [World.init]), ?_⟩
    rintro key m ⟨msgs, hl, -⟩
    exact absurd hl (by simp [World.init, AppState.new])
  refine AllSteps.of_invariant (I := Private isId) (fun w l w' hw h hP => ?_) hinit hapart
  exact ⟨private_of_step hw hP h, replayPrivate_of_step hw hP h⟩

/-- A relaying server. -/
def relayConfig : Config := { enableRelay := true }

/-- A `DATA` message to one client. -/
def dataTo (id : String) : Message := { type_ := .DATA, dst := some id }

/-- A `DATA` message to a room. -/
def dataIn (room : String) : Message := { type_ := .DATA, room := some room }

/-- `bob` sends a message to a room and one to `alice`, who resumes her event
stream. -/
def aliceResumes : List Label :=
  [.connect (.sse (Params.plain "alice" "tok").query), .connect (Params.plain "bob" "tok").ws,
    .say 1 (dataIn "lobby"), .say 1 (dataTo "alice"),
    .connect (.sse { (Params.plain "alice" "tok").query with lastSeq := some 0 })].map quietly

/-- A run whose ids, `alice` and `bob`, are not names of its rooms. -/
theorem replay_private_alice :
    AllSteps (step relayConfig) (ReplayPrivate relayConfig) (World.init relayConfig Redis.empty)
      aliceResumes := by
  have hids : ∀ id ∈ ["alice", "bob"], isValidIdentifier id = true ∧ id ≠ "lobby" := by decide
  have hconnect : ∀ (w : World) (r : Request) (name : String), r.id = some name →
      name ∈ ["alice", "bob"] →
      KeysApart (fun id => id ∈ ["alice", "bob"]) relayConfig w (quietly (.connect r)) := by
    intro w r name hname hmem
    refine ⟨fun r' id hev _ hid => ?_,
      fun id msg key hin => absurd hin (by simp [quietly, incoming])⟩
    have hr : r = r' := Event.connect.inj hev
    rw [← hr, hname, Option.some.injEq] at hid
    rwa [← hid]
  have hsay : ∀ (w : World) (msg : Message), msg.room = none ∨ msg.room = some "lobby" →
      KeysApart (fun id => id ∈ ["alice", "bob"]) relayConfig w (quietly (.say 1 msg)) := by
    intro w msg hroom
    refine ⟨fun r id hev => absurd hev (by simp [quietly, Event.say]), ?_⟩
    intro id msg' key hin _ hne hkey hid
    obtain rfl : msg = msg' := message_of_say hin
    rw [bufferKey, hroom.resolve_left hne] at hkey
    split_ifs at hkey
    have hkey' : namespaceRoom (w.app.clientTenants.lookup id) "lobby" = namespaceRoom none key :=
      Option.some.inj hkey
    have hvalid : isValidIdentifier key = true ∧ key ≠ "lobby" := hids key hid
    exact hvalid.2 (namespaceRoom_inj (by decide) hvalid.1 hkey').2.symm
  refine replay_private_of_apart (AllSteps.of_mem (Q := fun w l _ =>
    KeysApart (fun id => id ∈ ["alice", "bob"]) relayConfig w l) _ fun l hl w w' _ => ?_)
  simp only [aliceResumes, List.map_cons, List.map_nil, List.mem_cons, List.not_mem_nil, or_false]
    at hl
  rcases hl with rfl | rfl | rfl | rfl | rfl
  · exact hconnect w _ "alice" rfl (by decide)
  · exact hconnect w _ "bob" rfl (by decide)
  · exact hsay w _ (Or.inr rfl)
  · exact hsay w _ (Or.inl rfl)
  · exact hconnect w _ "alice" rfl (by decide)

/-- Replay is not private in every run: a message to the room `lobby` is
replayed to a client with the id `lobby`. -/
theorem room_message_replayed_to_namesake :
    ¬∀ (cfg : Config) (redis : Redis) (ls : List Label),
      AllSteps (step cfg) (ReplayPrivate cfg) (World.init cfg redis) ls := by
  intro hall
  let q : HttpQuery := { (Params.plain "lobby" "tok").query with lastSeq := some 0 }
  let ls := [quietly (.connect (Params.plain "alice" "tok").ws), quietly (.say 0 (dataIn "lobby"))]
  have hrun := hall relayConfig Redis.empty (ls ++ [quietly (.connect (.sse q))])
  have heval : (run (step relayConfig) (World.init relayConfig Redis.empty) ls).bind (fun w =>
      (step relayConfig w (quietly (.connect (.sse q)))).map fun _ =>
        decide ((connect (Env.quiet 0) relayConfig w.app (.sse q)).isAdmitted = true ∧
          w.app.replayBuffer.replaySince 0 "lobby" 0 =
            [.relay { dataIn "lobby" with
                      src := some "alice", seq := some 1, timestamp := some 0 }])) =
      some true := by decide +kernel
  obtain ⟨w, hw, hstep⟩ := Option.bind_eq_some_iff.mp heval
  obtain ⟨w', hw', hobs⟩ := Option.map_eq_some_iff.mp hstep
  obtain ⟨hadm, hreplay⟩ := of_decide_eq_true hobs
  have hprivate := (AllSteps.last hrun hw hw').replayed (.sse q) q (Or.inl rfl) rfl hadm 0 _
    (by rw [show q.id = "lobby" from rfl, show (quietly (.connect (.sse q))).env.now = 0 from rfl,
          hreplay]; exact List.mem_singleton_self _)
  exact hprivate.not_forRoom ⟨_, rfl, by simp [dataIn]⟩

end Dendri
