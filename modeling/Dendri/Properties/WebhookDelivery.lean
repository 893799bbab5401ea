import Dendri.Handlers.WebhookEvents
import Dendri.Properties.RegistryMirror

/-!
The webhook over whole runs: what becomes of an event once a handler has emitted it, and what
a subscriber can conclude from the events.

* `Delivers`, `Emits`, `webhook_delivers`: however the delivery task is interleaved with the
  server, every accepted event is posted in turn, at most three times, until a request is
  answered; an event is dropped just when 1024 events wait in the queue; and the task can
  always finish its work;
* `online`: the peers that were last announced as connected;
* `online_of_connect`, `online_of_step`: what a step does to them;
* `webhook_online_iff`: every registered client is among them, and they are the registered
  clients just when clients are removed by disconnect cleanups only.
-/

namespace Dendri

open AppState Dispatch Transition

variable {parse : String → Option Url}

/-! ### Delivery -/

/-- The delivery task runs on its own, without further events. -/
def taskRun (s : WebhookSender parse) (ts : List (ℕ × Work)) : Option (Dispatcher WebhookEvent) :=
  run (fun task t => work webhookLimits task t.1 t.2) s.task ts

/-- The task has posted the events that were accepted, one after the other: each until a
request was answered, or three times. -/
def Posted (task : Dispatcher WebhookEvent) : Prop :=
  ∃ blocks : List (List (WebhookEvent × Bool)),
    List.Forall₂ (Settles 3) task.accepted blocks ∧ task.answers = blocks.flatten

/-- What holds of the delivery task after the server has emitted some events. -/
structure Delivers (emitted : List WebhookEvent) (s : WebhookSender parse) : Prop where
  /-- Accepted events are posted in the order in which they were emitted. -/
  orderly : Orderly webhookLimits s.task
  splits : Splits webhookLimits s.task emitted
  /-- Up to 1024 events are all accepted. -/
  lossless : emitted.length ≤ 1024 → s.task.accepted = emitted
  /-- The task comes to an end, and then it has posted everything. -/
  finishes : ∀ ts task, taskRun s ts = some task → ts.length < 6150
  posts : ∃ ts task, taskRun s ts = some task ∧ task.accepted = s.task.accepted ∧ Posted task

/-- What a step emits, and what becomes of it. The events of a step of the server are offered
in turn: they fill the 1024 places of the queue, and those that find it full are dropped. The
task emits, accepts and drops nothing. -/
def Emits (cfg : Config) (w w' : WebhookWorld parse) : WebhookLabel → Prop
  | .server l =>
      w'.emitted = w.emitted ++ announcements cfg w.world l ∧
        ∀ s', w'.webhook = some s' → ∃ s, w.webhook = some s ∧
          Offered webhookLimits s.task (announcements cfg w.world l) s'.task
  | .task _ _ =>
      w'.emitted = w.emitted ∧
        ∀ s', w'.webhook = some s' → ∃ s, w.webhook = some s ∧
          s'.task.accepted = s.task.accepted ∧ s'.task.dropped = s.task.dropped

/-- The task alone accepts nothing. -/
lemma accepted_of_taskRun {s task : Dispatcher WebhookEvent} {ts : List (ℕ × Work)}
    (h : run (fun task t => work webhookLimits task t.1 t.2) s ts = some task) :
    task.accepted = s.accepted := by
  induction ts generalizing s with
  | nil =>
      rw [run, Option.some.injEq] at h
      rw [h]
  | cons t ts ih =>
      obtain ⟨u, hu, hrest⟩ := run_cons.mp h
      obtain ⟨now, t⟩ := t
      rw [ih hrest, (offers_of_work hu).1]

/-- An idle task with an empty queue has posted everything. -/
lemma posted_of_done {task : Dispatcher WebhookEvent} (h : Orderly webhookLimits task)
    (hdone : task.worker.element.toList ++ task.queue = []) : Posted task := by
  obtain ⟨⟨settled, blocks, haccepted, hblocks, hanswers⟩, -, -⟩ := h
  obtain ⟨helement, -⟩ := List.append_eq_nil_iff.mp hdone
  have hidle : task.worker.failures = [] := by
    cases hw : task.worker with
    | idle => rfl
    | sending e n => rw [hw] at helement; exact absurd helement (by simp [Worker.element])
    | waiting e n wakeAt => rw [hw] at helement; exact absurd helement (by simp [Worker.element])
  rw [hdone, List.append_nil] at haccepted
  rw [hidle, List.append_nil] at hanswers
  exact ⟨blocks, haccepted ▸ hblocks, hanswers⟩

lemma delivers_of_orderly {emitted : List WebhookEvent} {s : WebhookSender parse}
    (hs : Orderly webhookLimits s.task) (hsplits : Splits webhookLimits s.task emitted) :
    Delivers emitted s where
  orderly := hs
  splits := hsplits
  lossless hle := hsplits.accepted_eq (hsplits.dropped_eq_nil hle)
  finishes ts task hrun := by
    have hle := (length_le_pending hs hrun).2
    have hpending := pending_le hs
    have hbound : (webhookLimits.capacity + 1) * (2 * webhookLimits.attempts) = 6150 := rfl
    omega
  posts := by
    obtain ⟨ts, task, hrun, hdone⟩ := exists_run_done hs
    exact ⟨ts, task, hrun, accepted_of_taskRun hrun,
      posted_of_done (length_le_pending hs hrun).1 hdone⟩

/-- The events of a step, emitted one after the other. -/
lemma delivers_emit {emitted events : List WebhookEvent} {s : WebhookSender parse}
    (h : Delivers emitted s) : Delivers (emitted ++ events) (events.foldl WebhookSender.emit s) := by
  induction events generalizing emitted s with
  | nil =>
      rw [List.append_nil]
      exact h
  | cons e events ih =>
      have hemit : Delivers (emitted ++ [e]) (s.emit e) :=
        delivers_of_orderly (h.orderly.offer e) (h.splits.offer h.orderly e)
      have hrest := ih hemit
      rw [List.append_assoc, List.singleton_append] at hrest
      exact hrest

lemma delivers_of_step {cfg : Config} {w w' : WebhookWorld parse} {l : WebhookLabel}
    (hw : ∀ s, w.webhook = some s → Delivers w.emitted s)
    (h : webhookStep parse cfg w l = some w') :
    ∀ s, w'.webhook = some s → Delivers w'.emitted s := by
  intro s' hs'
  cases l with
  | server l =>
      obtain ⟨world, -, rfl⟩ := Option.map_eq_some_iff.mp h
      obtain ⟨s, hs, rfl⟩ := Option.map_eq_some_iff.mp hs'
      exact delivers_emit (hw s hs)
  | task now t =>
      obtain ⟨s, hs, htask⟩ := Option.bind_eq_some_iff.mp h
      obtain ⟨task, hwork, rfl⟩ := Option.map_eq_some_iff.mp htask
      obtain rfl := Option.some.inj hs'
      have hold := hw s hs
      exact delivers_of_orderly (hold.orderly.work hwork) (hold.splits.work hwork)

lemma delivers_init (cfg : Config) (webhook : WebhookConfig) (redis : Redis) :
    ∀ s, (WebhookWorld.init parse cfg webhook redis).webhook = some s → Delivers [] s := by
  intro s hs
  have hfresh : s.task = {} := by
    rw [WebhookWorld.init, newWebhook.eq_def] at hs
    dsimp only at hs
    split at hs
    · exact absurd hs (by simp)
    · split_ifs at hs
      rw [← Option.some.inj hs]
  refine delivers_of_orderly ?_ ?_
  · rw [hfresh]
    exact orderly_fresh webhookLimits
  · rw [hfresh]
    exact splits_fresh webhookLimits

/-- The events of a step reach the queue as offers. -/
lemma task_foldl_emit (s : WebhookSender parse) (events : List WebhookEvent) :
    (events.foldl WebhookSender.emit s).task = events.foldl (offer webhookLimits) s.task := by
  induction events generalizing s with
  | nil => rfl
  | cons e events ih => exact ih (s.emit e)

lemma emits_of_step {cfg : Config} {w w' : WebhookWorld parse} {l : WebhookLabel}
    (h : webhookStep parse cfg w l = some w') : Emits cfg w w' l := by
  cases l with
  | server l =>
      obtain ⟨world, -, rfl⟩ := Option.map_eq_some_iff.mp h
      refine ⟨rfl, fun s' hs' => ?_⟩
      obtain ⟨s, hs, rfl⟩ := Option.map_eq_some_iff.mp hs'
      refine ⟨s, hs, ?_⟩
      rw [task_foldl_emit]
      exact offered_foldl webhookLimits s.task _
  | task now t =>
      obtain ⟨s, hs, htask⟩ := Option.bind_eq_some_iff.mp h
      obtain ⟨task, hwork, rfl⟩ := Option.map_eq_some_iff.mp htask
      refine ⟨rfl, fun s' hs' => ⟨s, hs, ?_⟩⟩
      obtain rfl := Option.some.inj hs'
      exact offers_of_work hwork

/-- In every run of the server and its delivery task, in any order, the events are delivered
as `Delivers` says, and a step drops just the events that find 1024 in the queue. -/
theorem webhook_delivers (parse : String → Option Url) (cfg : Config) (webhook : WebhookConfig)
    (redis : Redis) (ls : List WebhookLabel) :
    AllSteps (webhookStep parse cfg)
      (fun w l w' => (∀ s, w'.webhook = some s → Delivers w'.emitted s) ∧ Emits cfg w w' l)
      (WebhookWorld.init parse cfg webhook redis) ls := by
  exact AllSteps.of_invariant
    (I := fun w : WebhookWorld parse => ∀ s, w.webhook = some s → Delivers w.emitted s)
    (P := fun _ _ _ => True)
    (fun _ _ _ hw h _ =>
      ⟨delivers_of_step hw h, delivers_of_step hw h, emits_of_step h⟩)
    (delivers_init cfg webhook redis) (AllSteps.of_mem _ fun _ _ _ _ _ => trivial)

/-! ### Who is online -/

/-- What an event says about who is connected. -/
def WebhookEvent.track (online : Finset String) (e : WebhookEvent) : Finset String :=
  match e.peerId with
  | none => online
  | some id =>
      if e.event = "peer.connected" then insert id online
      else if e.event = "peer.disconnected" then online.erase id
      else online

/-- The peers that were last announced as connected. -/
def online (events : List WebhookEvent) : Finset String := events.foldl WebhookEvent.track ∅

lemma online_append (events events' : List WebhookEvent) :
    online (events ++ events') = events'.foldl WebhookEvent.track (online events) :=
  List.foldl_append

/-- The events of a message are not about who is connected. -/
lemma track_receiveEvents (env : Env) (cfg : Config) (s : AppState) (id : String) (msg : Message)
    (on : Finset String) : (receiveEvents env cfg s id msg).foldl WebhookEvent.track on = on := by
  have hhandle : (handleMessageEvents env cfg s id msg).foldl WebhookEvent.track on = on := by
    rw [handleMessageEvents]
    cases msg.type_ with
    | RoomJoin =>
        dsimp only
        rw [handleRoomJoinEvents]
        split
        · rfl
        · split <;> rfl
    | RoomLeave =>
        dsimp only
        rw [handleRoomLeaveEvents]
        split
        · rfl
        · split_ifs <;> rfl
    | _ => rfl
  rw [receiveEvents]
  split
  · split_ifs
    · exact hhandle
    · rfl
  · exact hhandle

/-- Every registered client was last announced as connected. -/
def AnnouncedOnline (w : WebhookWorld parse) : Prop :=
  ∀ id, w.world.app.tokens id ≠ none → id ∈ online w.emitted

/-- The clients that were last announced as connected are the registered ones. -/
def OnlineExactly (w : WebhookWorld parse) : Prop :=
  ∀ id, id ∈ online w.emitted ↔ w.world.app.tokens id ≠ none

lemma announcedOnline_append (world : World) (emitted events : List WebhookEvent)
    (webhook : Option (WebhookSender parse)) :
    AnnouncedOnline ⟨world, emitted ++ events, webhook⟩ ↔
      ∀ id, world.app.tokens id ≠ none → id ∈ events.foldl WebhookEvent.track (online emitted) := by
  rw [AnnouncedOnline, online_append]

lemma onlineExactly_append (world : World) (emitted events : List WebhookEvent)
    (webhook : Option (WebhookSender parse)) :
    OnlineExactly ⟨world, emitted ++ events, webhook⟩ ↔
      ∀ id, id ∈ events.foldl WebhookEvent.track (online emitted) ↔ world.app.tokens id ≠ none := by
  rw [OnlineExactly, online_append]

/-- The registered clients that a step removes are removed by a disconnect cleanup. -/
def RemovesAnnounced (cfg : Config) (w : WebhookWorld parse) : WebhookLabel → Prop
  | .server l =>
      ∀ id ∈ removals cfg w.world l, w.world.app.tokens id ≠ none → cleanedUp w.world l.event ≠ none
  | .task _ _ => True

/-- A connect request changes at most the entry of its own id: a refused request changes
nothing, and after an admitted one the id is registered and announced. -/
lemma online_of_connect {cfg : Config} {w w' : World} {env : Env} {r : Request}
    {on : Finset String} (hon : ∀ id, w.app.tokens id ≠ none → id ∈ on)
    (h : step cfg w ⟨env, .connect r⟩ = some w') :
    ((connectEvents env cfg w.app r).foldl WebhookEvent.track on = on ∧
        w'.app.tokens = w.app.tokens) ∨
      ∃ id, (∀ x, x ∈ (connectEvents env cfg w.app r).foldl WebhookEvent.track on ↔
          x = id ∨ x ∈ on) ∧
        ∀ x, w'.app.tokens x ≠ none ↔ x = id ∨ w.app.tokens x ≠ none := by
  rw [step] at h
  dsimp only at h
  cases hout : connect env cfg w.app r with
  | rejected why s =>
      rw [hout, Option.some.injEq, connect_rejected hout] at h
      refine Or.inl ⟨by simp only [connectEvents, hout]; rfl, ?_⟩
      rw [← h]
      cases storedClaims env cfg r <;> rfl
  | admitted K s =>
      rw [hout, Option.some.injEq] at h
      have htokens := tokens_connect hout
      have hregistered : ∀ x, w'.app.tokens x ≠ none ↔ x = K.id ∨ w.app.tokens x ≠ none := by
        intro x
        rw [← h]
        dsimp only
        rw [htokens, Function.update_apply]
        split_ifs with hx
        · simp [hx]
        · simp [hx]
      have hconnected : ∀ x, x ∈ [WebhookEvent.peerConnected env.now K.id].foldl
          WebhookEvent.track on ↔ x = K.id ∨ x ∈ on := fun x => Finset.mem_insert
      refine Or.inr ⟨K.id, fun x => ?_, hregistered⟩
      cases r with
      | ws q =>
          simp only [connectEvents, hout]
          exact hconnected x
      | sse q =>
          simp only [connectEvents, hout]
          exact hconnected x
      | poll q =>
          have hid : K.id = q.id := by
            rcases pollHandler_cases env cfg w.app q with ⟨_, hout'⟩ | ⟨_, _, _, -, -, -, hout'⟩
            · exact absurd (hout.symm.trans hout') (by simp)
            · rw [(Outcome.admitted.inj (hout.symm.trans hout')).1]
          simp only [connectEvents, hout]
          split_ifs with hnew
          · exact hconnected x
          · -- a known polling client was announced before
            have hknown : K.id ∈ on := by
              refine hon K.id fun hnone => hnew ?_
              rw [tokens, Option.map_eq_none_iff, hid] at hnone
              rw [hnone]
              rfl
            rw [List.foldl_nil]
            exact ⟨Or.inr, fun hx => hx.elim (fun heq => heq ▸ hknown) id⟩

/-- A step on a message announces what its handler emits. -/
lemma announcements_of_incoming {cfg : Config} {w : World} {env : Env} {ev : Event} {id : String}
    {msg : Message} (h : incoming cfg w ev = some (id, msg)) :
    announcements cfg w ⟨env, ev⟩ = receiveEvents env cfg w.app id msg := by
  cases ev with
  | connect r => exact absurd h (by simp [incoming])
  | _ => simp only [announcements, h]

/-- A disconnect cleanup announces the peer it removes. -/
lemma announcements_of_cleanedUp {cfg : Config} {w : World} {env : Env} {ev : Event} {k : ℕ}
    {K : Conn} (hin : incoming cfg w ev = none) (h : cleanedUp w ev = some (k, K)) :
    announcements cfg w ⟨env, ev⟩ = [.peerDisconnected env.now K.id] := by
  cases ev with
  | connect r => exact absurd h (by simp [cleanedUp])
  | _ => simp only [announcements, hin, h]

/-- All other steps but connects announce nothing. -/
lemma announcements_of_none {cfg : Config} {w : World} {env : Env} {ev : Event}
    (hconnect : ∀ r, ev ≠ .connect r) (hin : incoming cfg w ev = none)
    (h : cleanedUp w ev = none) : announcements cfg w ⟨env, ev⟩ = [] := by
  cases ev with
  | connect r => exact absurd rfl (hconnect r)
  | _ => simp only [announcements, hin, h]

/-- What a step that is no connect does to the announced peers: a disconnect cleanup takes
out its id. -/
lemma online_of_step {cfg : Config} {w : World} {l : Label} (on : Finset String)
    (hconnect : ∀ r, l.event ≠ .connect r) (x : String) :
    x ∈ (announcements cfg w l).foldl WebhookEvent.track on ↔
      x ∈ on ∧ ¬(x ∈ removals cfg w l ∧ cleanedUp w l.event ≠ none) := by
  obtain ⟨env, ev⟩ := l
  dsimp only at hconnect ⊢
  cases hin : incoming cfg w ev with
  | some p =>
      obtain ⟨id, msg⟩ := p
      rw [announcements_of_incoming hin, track_receiveEvents, (only_of_incoming hin).1]
      simp
  | none =>
      cases hdown : cleanedUp w ev with
      | none =>
          rw [announcements_of_none hconnect hin hdown]
          simp
      | some p =>
          obtain ⟨k, K⟩ := p
          rw [announcements_of_cleanedUp hin hdown, removals_of_cleanedUp hdown]
          have htrack : [WebhookEvent.peerDisconnected env.now K.id].foldl WebhookEvent.track on =
              on.erase K.id := rfl
          rw [htrack, Finset.mem_erase, List.mem_singleton]
          simp only [ne_eq, reduceCtorEq, not_false_eq_true, and_true]
          exact and_comm

/-- The registered clients stay announced, and after a step that keeps the announcements exact
they are exact. -/
lemma announced_of_step {cfg : Config} {w w' : WebhookWorld parse} {l : WebhookLabel}
    (hw : AnnouncedOnline w) (h : webhookStep parse cfg w l = some w') :
    AnnouncedOnline w' ∧ (OnlineExactly w → (OnlineExactly w' ↔ RemovesAnnounced cfg w l)) := by
  cases l with
  | task now t =>
      obtain ⟨s, -, htask⟩ := Option.bind_eq_some_iff.mp h
      obtain ⟨task, -, rfl⟩ := Option.map_eq_some_iff.mp htask
      exact ⟨hw, fun hexact => ⟨fun _ => trivial, fun _ => hexact⟩⟩
  | server l =>
      obtain ⟨env, ev⟩ := l
      obtain ⟨world, hstep, rfl⟩ := Option.map_eq_some_iff.mp h
      rw [announcedOnline_append, onlineExactly_append]
      by_cases hconnect : ∃ r, ev = .connect r
      · obtain ⟨r, rfl⟩ := hconnect
        have hremoves : RemovesAnnounced cfg w (.server ⟨env, .connect r⟩) := by
          intro id hid
          rw [removals_of_none rfl rfl (by simp)] at hid
          exact absurd hid (by simp)
        rw [show announcements cfg w.world ⟨env, .connect r⟩ = connectEvents env cfg w.world.app r
          from rfl]
        rcases online_of_connect hw hstep with ⟨htrack, htokens⟩ | ⟨id, htrack, htokens⟩
        · rw [htrack, htokens]
          exact ⟨hw, fun hexact => ⟨fun _ => hremoves, fun _ => hexact⟩⟩
        · refine ⟨fun x hx => ?_, fun hexact => ⟨fun _ => hremoves, fun _ x => ?_⟩⟩
          · exact (htrack x).mpr (((htokens x).mp hx).imp_right (hw x))
          · rw [htrack x, htokens x, hexact x]
      · have hno : ∀ r, ev ≠ .connect r := fun r hr => hconnect ⟨r, hr⟩
        have htrack := @online_of_step cfg w.world ⟨env, ev⟩ (online w.emitted) hno
        have htokens := tokens_of_step hstep hno
        constructor
        · intro x hx
          rw [htokens x] at hx
          split_ifs at hx with hremoved
          · exact absurd rfl hx
          · exact (htrack x).mpr ⟨hw x hx, fun hboth => hremoved hboth.1⟩
        · intro hexact
          rw [RemovesAnnounced]
          refine forall_congr' fun x => ?_
          rw [htrack x, htokens x, hexact x]
          by_cases hremoved : x ∈ removals cfg w.world ⟨env, ev⟩
          · simp [hremoved]
          · simp [hremoved]

/-- In every run of the server and its delivery task, every registered client was last
announced as connected; and the clients that were last announced as connected are the
registered ones in all states just when registered clients are removed by disconnect cleanups
only, and never by a `LEAVE`, on behalf of a dead destination or by an eviction. -/
theorem webhook_online_iff (parse : String → Option Url) (cfg : Config) (webhook : WebhookConfig)
    (redis : Redis) (ls : List WebhookLabel) :
    AllSteps (webhookStep parse cfg) (fun _ _ w' => AnnouncedOnline w')
        (WebhookWorld.init parse cfg webhook redis) ls ∧
      (AllSteps (webhookStep parse cfg) (fun _ _ w' => OnlineExactly w')
          (WebhookWorld.init parse cfg webhook redis) ls ↔
        AllSteps (webhookStep parse cfg) (fun w l _ => RemovesAnnounced cfg w l)
          (WebhookWorld.init parse cfg webhook redis) ls) := by
  have hempty : ∀ id, (WebhookWorld.init parse cfg webhook redis).world.app.tokens id = none :=
    fun _ => rfl
  have hinit : AnnouncedOnline (WebhookWorld.init parse cfg webhook redis) :=
    fun id hid => absurd (hempty id) hid
  have hexact : OnlineExactly (WebhookWorld.init parse cfg webhook redis) := by
    intro id
    rw [hempty id]
    simp [online, WebhookWorld.init]
  constructor
  · exact AllSteps.of_invariant (I := AnnouncedOnline) (P := fun _ _ _ => True)
      (fun _ _ _ hw h _ => ⟨(announced_of_step hw h).1, (announced_of_step hw h).1⟩) hinit
      (AllSteps.of_mem _ fun _ _ _ _ _ => trivial)
  · exact AllSteps.iff_of_invariant (I := fun w => AnnouncedOnline w ∧ OnlineExactly w)
      (fun _ _ _ hw h => (announced_of_step hw.1 h).2 hw.2)
      (fun _ _ _ hw h hG => ⟨(announced_of_step hw.1 h).1, hG⟩) ⟨hinit, hexact⟩

end Dendri
