import Dendri.Concurrent.Mailbox
import Dendri.Properties.Admission
import Dendri.System

/-!
The hand-over of a Redis queue to a client whose receiver may be dropped while the
loop runs. The loop stops at the first message that the channel does not accept;
the queue is cleared afterwards, however the loop has ended.

* `deliverLoop`, `deliverUnder`: `deliver_queued_messages`, with the rounds before
  which the receiver is dropped as a parameter; the code has it twice, for the
  WebSocket and for HTTP, with the same body;
* `deliverUnder_quiet`: when nothing is dropped it is `deliverQueuedMessages`;
* `acceptedCount`, `deliverLoop_spec`: how many messages the channel accepts, and
  that these are the first ones;
* `handover_iff`: the queue keeps what was not accepted just when all or nothing
  is accepted, as the clearing succeeds or fails;
* `handover_loses_message`: the second of two messages is lost.
-/

namespace Dendri

open AppState Transition

/-! ### The loop -/

/-- The loop of `deliver_queued_messages` from the message number `i` on. Before
the messages that `drops` says the receiver of the channel is dropped. -/
def deliverLoop (drops : ℕ → Bool) (c : ℕ) (s : AppState) (i : ℕ) : List QueueEntry → AppState
  | [] => s
  | entry :: rest =>
      let s := if drops i then s.closeChannel c else s
      match entry.parse with
      | none => deliverLoop drops c s (i + 1) rest
      | some msg =>
          -- the `break` on a failed send
          if (s.chans c).closed then s
          else deliverLoop drops c (s.send c [.relay msg]) (i + 1) rest

/-- `deliver_queued_messages` while the receiver may be dropped. -/
def deliverUnder (drops : ℕ → Bool) (env : Env) (s : AppState) (id : String) (c : ℕ) : AppState :=
  let messages := s.redisQueue env id
  let s := s.redisTouchQueue env id
  if messages = [] then s
  else (deliverLoop drops c s 0 messages).redisClearMessageQueue env id

lemma send_of_closed {s : AppState} {c : ℕ} (h : (s.chans c).closed = true) (frames : List Frame) :
    s.send c frames = s := by
  have hsame : (fun i => if i = c ∧ (s.chans c).closed = false then
      { s.chans c with queue := (s.chans c).queue ++ frames } else s.chans i) = s.chans := by
    funext i
    rw [h, if_neg (by simp)]
  rw [AppState.send, hsame]

/-- Without drops the loop sends all messages, or none if the channel is closed. -/
lemma deliverLoop_quiet (c i : ℕ) (entries : List QueueEntry) (s : AppState) :
    deliverLoop (fun _ => false) c s i entries =
      s.send c ((entries.filterMap QueueEntry.parse).map .relay) := by
  induction entries generalizing s i with
  | nil => exact (send_nil s c).symm
  | cons entry rest ih =>
    rw [deliverLoop, if_neg Bool.false_ne_true]
    cases hparse : entry.parse with
    | none =>
      rw [List.filterMap_cons_none hparse]
      exact ih (i + 1) s
    | some msg =>
      rw [List.filterMap_cons_some hparse, List.map_cons]
      dsimp only
      by_cases hclosed : (s.chans c).closed = true
      · rw [if_pos hclosed, send_of_closed hclosed]
      · rw [if_neg hclosed, ih, send_send, List.singleton_append]

/-- The hand-over that nothing interrupts. -/
theorem deliverUnder_quiet (env : Env) (s : AppState) (id : String) (c : ℕ) :
    deliverUnder (fun _ => false) env s id c = deliverQueuedMessages env s id c := by
  rw [deliverUnder, deliverQueuedMessages, deliverLoop_quiet]

/-! ### What the channel accepts -/

/-- How many of `n` messages the channel accepts, from the message number `i` on. -/
def acceptedCount (drops : ℕ → Bool) (closed : Bool) (i : ℕ) : ℕ → ℕ
  | 0 => 0
  | n + 1 => if closed || drops i then 0 else acceptedCount drops false (i + 1) n + 1

section Count

variable (drops : ℕ → Bool) (closed : Bool) (i n : ℕ)

lemma acceptedCount_le : acceptedCount drops closed i n ≤ n := by
  induction n generalizing closed i with
  | zero => exact le_refl 0
  | succ n ih =>
    rw [acceptedCount]
    split_ifs
    · exact Nat.zero_le _
    · exact Nat.succ_le_succ (ih false (i + 1))

lemma acceptedCount_eq_zero_iff :
    acceptedCount drops closed i (n + 1) = 0 ↔ closed = true ∨ drops i = true := by
  rw [acceptedCount, ← Bool.or_eq_true]
  by_cases h : (closed || drops i) = true
  · rw [if_pos h]
    exact iff_of_true rfl h
  · rw [if_neg h]
    exact iff_of_false (Nat.succ_ne_zero _) h

lemma acceptedCount_eq_iff :
    acceptedCount drops closed i (n + 1) = n + 1 ↔
      closed = false ∧ ∀ j < n + 1, drops (i + j) = false := by
  induction n generalizing closed i with
  | zero =>
    rw [acceptedCount, acceptedCount]
    cases closed <;> cases h : drops i <;> simp [h]
  | succ n ih =>
    rw [acceptedCount]
    cases hclosed : closed || drops i with
    | true =>
      rw [if_pos rfl]
      refine iff_of_false (by omega) ?_
      rintro ⟨rfl, hdrops⟩
      rw [Bool.false_or] at hclosed
      rw [← Nat.add_zero i, hdrops 0 (by omega)] at hclosed
      cases hclosed
    | false =>
      obtain ⟨rfl, hfirst⟩ := Bool.or_eq_false_iff.mp hclosed
      rw [if_neg Bool.false_ne_true, Nat.add_right_cancel_iff, ih, and_iff_right rfl,
        and_iff_right rfl]
      constructor
      · intro h j hj
        cases j with
        | zero => exact hfirst
        | succ j =>
          rw [show i + (j + 1) = i + 1 + j by omega]
          exact h j (by omega)
      · intro h j hj
        rw [show i + 1 + j = i + (j + 1) by omega]
        exact h (j + 1) (by omega)

end Count

/-- The loop sends the first messages of the queue, as many as the channel accepts,
and does not touch Redis. -/
lemma deliverLoop_spec (drops : ℕ → Bool) (c : ℕ) (msgs : List Message) (s : AppState) (i : ℕ) :
    (deliverLoop drops c s i (msgs.map .message)).redis = s.redis ∧
      ((deliverLoop drops c s i (msgs.map .message)).chans c).queue = (s.chans c).queue ++
        (msgs.take (acceptedCount drops (s.chans c).closed i msgs.length)).map .relay := by
  induction msgs generalizing s i with
  | nil => exact ⟨rfl, (List.append_nil _).symm⟩
  | cons msg rest ih =>
    rw [List.map_cons, List.length_cons, deliverLoop, acceptedCount]
    dsimp only [QueueEntry.parse]
    cases hdrop : drops i with
    | true =>
      have hclosed : ((s.closeChannel c).chans c).closed = true := by simp [closeChannel]
      have hqueue : ((s.closeChannel c).chans c).queue = (s.chans c).queue := by
        simp [closeChannel]
      rw [if_pos rfl, if_pos hclosed, Bool.or_true, if_pos rfl]
      exact ⟨rfl, hqueue.trans (List.append_nil _).symm⟩
    | false =>
      rw [if_neg Bool.false_ne_true, Bool.or_false]
      by_cases hclosed : (s.chans c).closed = true
      · rw [if_pos hclosed, if_pos hclosed]
        exact ⟨rfl, (List.append_nil _).symm⟩
      · have hopen : (s.chans c).closed = false := Bool.eq_false_of_not_eq_true hclosed
        have hsent : (s.send c [.relay msg]).chans c =
            { s.chans c with queue := (s.chans c).queue ++ [.relay msg] } := by
          simp [AppState.send, hopen]
        obtain ⟨hredis, hqueue⟩ := ih (s.send c [.relay msg]) (i + 1)
        rw [if_neg hclosed, if_neg hclosed]
        refine ⟨hredis, hqueue.trans ?_⟩
        rw [hsent, List.take_succ_cons, List.map_cons]
        dsimp only
        rw [hopen, List.append_assoc, List.singleton_append]

/-! ### The hand-over -/

/-- The queue of a client in Redis, with the messages given. -/
def HoldsQueue (s : AppState) (id : String) (msgs : List Message) : Prop :=
  (s.redis.queue.lookup id).getD [] = msgs.map .message

/-- A prefix of the queue is put on the channel, in order, and the rest is still in
the queue. -/
def HandsOver (drops : ℕ → Bool) (env : Env) (s : AppState) (id : String) (c : ℕ)
    (msgs : List Message) : Prop :=
  ∃ k ≤ msgs.length,
    ((deliverUnder drops env s id c).chans c).queue =
      (s.chans c).queue ++ (msgs.take k).map .relay ∧
    HoldsQueue (deliverUnder drops env s id c) id (msgs.drop k)

section Handover

variable {drops : ℕ → Bool} {env : Env} {s : AppState} {id : String} {c : ℕ} {msgs : List Message}

/-- A hand-over that reads nothing does nothing. -/
lemma handsOver_of_nothing_read (hqueue : HoldsQueue s id msgs) (h : s.redisQueue env id = []) :
    HandsOver drops env s id c msgs := by
  have hread : deliverUnder drops env s id c = s.redisTouchQueue env id := by
    rw [deliverUnder, if_pos h]
  have htouch : (s.redisTouchQueue env id).redis.queue = s.redis.queue := by
    rw [redisTouchQueue]
    dsimp only
    split_ifs <;> rfl
  refine ⟨0, Nat.zero_le _, ?_, ?_⟩
  · rw [hread, List.take_zero, List.map_nil, List.append_nil]
    rfl
  · rw [hread, List.drop_zero, HoldsQueue, htouch]
    exact hqueue

variable (drops c) in
/-- The channel and the queue after a hand-over that reads the queue. -/
lemma deliverUnder_spec (hqueue : HoldsQueue s id msgs) (hne : msgs ≠ [])
    (hread : env.redisOk .readAllMessages id = true) :
    ((deliverUnder drops env s id c).chans c).queue = (s.chans c).queue ++
        (msgs.take (acceptedCount drops (s.chans c).closed 0 msgs.length)).map .relay ∧
      HoldsQueue (deliverUnder drops env s id c) id
        (if env.redisOk .clearMessageQueue id = true then [] else msgs) := by
  have hmessages : s.redisQueue env id = msgs.map .message := by
    rw [redisQueue, if_pos hread]
    exact hqueue
  have hsome : ¬s.redisQueue env id = [] := by
    rw [hmessages]
    simpa using hne
  obtain ⟨hredis, hchan⟩ := deliverLoop_spec drops c msgs (s.redisTouchQueue env id) 0
  have hbefore : (deliverLoop drops c (s.redisTouchQueue env id) 0
      (msgs.map .message)).redis.queue = s.redis.queue := by
    rw [hredis, redisTouchQueue]
    dsimp only
    rw [if_pos hread]
  rw [deliverUnder, if_neg hsome, hmessages]
  refine ⟨hchan, ?_⟩
  rw [HoldsQueue, redisClearMessageQueue]
  dsimp only
  by_cases hclear : env.redisOk .clearMessageQueue id = true
  · rw [if_pos hclear, if_pos hclear]
    dsimp only
    rw [hbefore, Finmap.lookup_erase]
    rfl
  · rw [if_neg hclear, if_neg hclear, hbefore]
    exact hqueue

/-- The rest of the queue is kept just when the channel has accepted all of it and
it is cleared, or nothing of it and it is not. -/
lemma handsOver_iff_count (hqueue : HoldsQueue s id msgs) (hne : msgs ≠ [])
    (hread : env.redisOk .readAllMessages id = true) :
    HandsOver drops env s id c msgs ↔
      acceptedCount drops (s.chans c).closed 0 msgs.length =
        if env.redisOk .clearMessageQueue id = true then msgs.length else 0 := by
  obtain ⟨hchan, hrest⟩ := deliverUnder_spec drops c hqueue hne hread
  have hle := acceptedCount_le drops (s.chans c).closed 0 msgs.length
  set K := acceptedCount drops (s.chans c).closed 0 msgs.length with hK
  have hinj : ∀ l l' : List Message, l.map QueueEntry.message = l'.map .message → l = l' :=
    fun l l' h => List.map_injective_iff.mpr (fun _ _ => QueueEntry.message.inj) h
  constructor
  · rintro ⟨k, hk, hput, hleft⟩
    have hsame : K = k := by
      have hlengths := congrArg List.length (List.append_cancel_left (hchan.symm.trans hput))
      simp only [List.length_map, List.length_take] at hlengths
      omega
    have hdrop := congrArg List.length (hinj _ _ (hrest.symm.trans hleft))
    rw [List.length_drop] at hdrop
    by_cases hclear : env.redisOk .clearMessageQueue id = true
    · rw [if_pos hclear, List.length_nil] at hdrop
      rw [if_pos hclear]
      omega
    · rw [if_neg hclear] at hdrop ⊢
      have hpos := List.length_pos_of_ne_nil hne
      omega
  · intro hcount
    refine ⟨K, hle, hchan, ?_⟩
    rw [hcount]
    by_cases hclear : env.redisOk .clearMessageQueue id = true
    · rw [if_pos hclear] at hrest ⊢
      rw [List.drop_length]
      exact hrest
    · rw [if_neg hclear] at hrest ⊢
      rw [List.drop_zero]
      exact hrest

end Handover

/-- For every content of the queue and every way in which the receiver is dropped:
a prefix is handed over and the queue keeps the rest just when there is nothing to
read, or the queue is cleared and the channel stays open throughout, or it is not
cleared and the channel accepts nothing. -/
theorem handover_iff (drops : ℕ → Bool) (env : Env) (s : AppState) (id : String) (c : ℕ)
    (msgs : List Message) (hqueue : HoldsQueue s id msgs) :
    HandsOver drops env s id c msgs ↔
      msgs = [] ∨ env.redisOk .readAllMessages id = false ∨
        (env.redisOk .clearMessageQueue id = true ∧ (s.chans c).closed = false ∧
          ∀ j < msgs.length, drops j = false) ∨
        (env.redisOk .clearMessageQueue id = false ∧
          ((s.chans c).closed = true ∨ drops 0 = true)) := by
  by_cases hread : env.redisOk .readAllMessages id = true
  · cases msgs with
    | nil =>
      refine iff_of_true (handsOver_of_nothing_read hqueue ?_) (Or.inl rfl)
      rw [redisQueue, if_pos hread]
      exact hqueue
    | cons msg rest =>
      have hopen := acceptedCount_eq_iff drops (s.chans c).closed 0 rest.length
      have hnone := acceptedCount_eq_zero_iff drops (s.chans c).closed 0 rest.length
      simp only [Nat.zero_add] at hopen
      rw [handsOver_iff_count hqueue (List.cons_ne_nil msg rest) hread, List.length_cons]
      by_cases hclear : env.redisOk .clearMessageQueue id = true
      · rw [if_pos hclear, hopen]
        simp [hread, hclear]
      · rw [if_neg hclear, hnone]
        simp [hread, hclear]
  · refine iff_of_true (handsOver_of_nothing_read hqueue ?_)
      (Or.inr (Or.inl (Bool.eq_false_of_not_eq_true hread)))
    rw [redisQueue, if_neg hread]

/-- A message of `alice` that is queued for `bob`. -/
def queuedOffer (payload : String) : Message :=
  { type_ := .OFFER, src := some "alice", dst := some "bob", payload := some payload }

/-- `alice` sends two messages to `bob`, who is not there. -/
def aliceQueues : List Label :=
  [.connect (Params.plain "alice" "tok").ws, .say 0 (queuedOffer "1"),
    .say 0 (queuedOffer "2")].map quietly

/-- What is on a new channel, and what is in the queue, after it is handed over. -/
def handedOver (drops : ℕ → Bool) (s : AppState) (id : String) : List Frame × List QueueEntry :=
  let t := deliverUnder drops (Env.quiet 0) s.newChannel id s.nextChan
  ((t.chans s.nextChan).queue, (t.redis.queue.lookup id).getD [])

theorem handover_bob :
    ∃ w, run (step {}) (World.init {} Redis.empty) aliceQueues = some w ∧
      HandsOver (fun _ => false) (Env.quiet 0) w.app.newChannel "bob" w.app.nextChan
        [queuedOffer "1", queuedOffer "2"] := by
  have heval : (run (step {}) (World.init {} Redis.empty) aliceQueues).map
      (fun w => (w.app.redis.queue.lookup "bob").getD []) =
      some ([queuedOffer "1", queuedOffer "2"].map .message) := by decide +kernel
  obtain ⟨w, hw, hqueue⟩ := Option.map_eq_some_iff.mp heval
  have hopen : (w.app.newChannel.chans w.app.nextChan).closed = false := by
    simp [AppState.newChannel]
  refine ⟨w, hw, (handover_iff (fun _ => false) (Env.quiet 0) w.app.newChannel "bob"
    w.app.nextChan _ hqueue).mpr ?_⟩
  exact Or.inr (Or.inr (Or.inl ⟨rfl, hopen, fun _ _ => rfl⟩))

/-- The receiver is dropped after the first message: the second one is not accepted,
and not in the queue any more. -/
theorem handover_loses_message :
    ∃ w, run (step {}) (World.init {} Redis.empty) aliceQueues = some w ∧
      HoldsQueue w.app.newChannel "bob" [queuedOffer "1", queuedOffer "2"] ∧
      handedOver (· = 1) w.app "bob" = ([.relay (queuedOffer "1")], []) ∧
      ¬HandsOver (· = 1) (Env.quiet 0) w.app.newChannel "bob" w.app.nextChan
        [queuedOffer "1", queuedOffer "2"] := by
  have heval : (run (step {}) (World.init {} Redis.empty) aliceQueues).map
      (fun w => ((w.app.redis.queue.lookup "bob").getD [], handedOver (· = 1) w.app "bob")) =
      some ([queuedOffer "1", queuedOffer "2"].map .message,
        [.relay (queuedOffer "1")], []) := by decide +kernel
  obtain ⟨w, hw, hfacts⟩ := Option.map_eq_some_iff.mp heval
  obtain ⟨hqueue, hover⟩ := Prod.mk.inj hfacts
  refine ⟨w, hw, hqueue, hover, ?_⟩
  rintro ⟨k, hk, hchan, hrest⟩
  obtain ⟨hput, hleft⟩ := Prod.mk.inj hover
  have hdrop : ([queuedOffer "1", queuedOffer "2"].drop k).length = 0 := by
    have hempty := congrArg List.length (hleft.symm.trans hrest)
    rw [List.length_map] at hempty
    exact hempty.symm
  have htake : ([queuedOffer "1", queuedOffer "2"].take k).length = 1 := by
    have hone := congrArg List.length (hput.symm.trans hchan)
    simpa [AppState.newChannel] using hone.symm
  rw [List.length_drop] at hdrop
  rw [List.length_take] at htake
  simp only [List.length_cons, List.length_nil] at hdrop htake hk
  omega

end Dendri
