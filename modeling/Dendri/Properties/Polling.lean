import Dendri.Properties.Admission
import Dendri.Properties.Appends
import Dendri.Properties.Replay

/-!
What a client that only polls gets of the `DATA` messages. A message for it
takes two routes, its channel and its replay buffer, and a poll puts what it
replays on the channel as well.

* `pollStep`: a step of the server, with the frames the responses to the client
  `p` consist of so far;
* `PollsOnly`: the client connects by polls only, with the largest sequence
  number it has got;
* `ReplaysUnqueued`: no message that an admitted poll replays is still on a
  channel of the client that has its receiver;
* `Once`: the invariant. The sequence numbers in the responses and on the
  client's channels are scattered, and those in its buffer are increasing;
* `polled_at_most_once`: under the condition no sequence number is got twice;
* `polled_twice`: without it one is.
-/

namespace Dendri

open AppState Places Transition

/-! ### Polling clients -/

/-- The sequence number of a `DATA` message. -/
def Frame.dataSeq : Frame → Option ℕ
  | .relay msg => if msg.type_ = .DATA then msg.seq else none
  | _ => none

/-- The sequence numbers of the `DATA` messages among the frames. -/
def dataSeqs (frames : List Frame) : List ℕ := frames.filterMap Frame.dataSeq

/-- The channel `c` is that of a connection of `p`, and its receiver is there. -/
def Serves (p : String) (w : World) (c : ℕ) : Prop :=
  (w.app.chans c).closed = false ∧ ∃ K ∈ w.conns, K.id = p ∧ K.chan = c

instance (p : String) (w : World) (c : ℕ) : Decidable (Serves p w c) :=
  inferInstanceAs (Decidable (_ ∧ ∃ K ∈ w.conns, K.id = p ∧ K.chan = c))

/-- The frames a step adds to the responses to `p`: those that are taken off a
channel of `p`. A receiver that was dropped takes nothing. -/
def answered (p : String) (w : World) : Event → List Frame
  | .deliver c n => if Serves p w c then (w.app.chans c).queue.take n else []
  | _ => []

/-- A step, with the concatenation of all responses to `p`. -/
def pollStep (cfg : Config) (p : String) (x : World × List Frame) (l : Label) :
    Option (World × List Frame) :=
  (step cfg x.1 l).map fun w' => (w', x.2 ++ answered p x.1 l.event)

/-- The largest sequence number of a `DATA` message that was received, `0`
before the first. -/
def lastSeen (got : List Frame) : ℕ := (dataSeqs got).foldr max 0

/-- The connect request for `p` that an event is, if it is one. -/
def requestFor (p : String) : Event → Option Request
  | .connect r => if r.id = some p then some r else none
  | _ => none

/-- The sequence number that a poll passes. -/
def Request.pollSeq : Request → Option ℕ
  | .poll q => q.lastSeq
  | _ => none

/-- The client `p` connects by polls only, and passes the largest sequence
number it has received. -/
def PollsOnly (cfg : Config) (p : String) (x : World × List Frame) (l : Label)
    (_ : World × List Frame) : Prop :=
  ∀ r ∈ requestFor p l.event, (connect l.env cfg x.1.app r).isAdmitted = true →
    r.pollSeq = some (lastSeen x.2)

/-- No `DATA` message that an admitted poll of `p` replays is on a channel of `p`
that has its receiver. -/
def ReplaysUnqueued (cfg : Config) (p : String) (x : World × List Frame) (l : Label)
    (_ : World × List Frame) : Prop :=
  ∀ r ∈ requestFor p l.event, (connect l.env cfg x.1.app r).isAdmitted = true →
    ∀ K ∈ x.1.conns, K.id = p → (x.1.app.chans K.chan).closed = false →
      ∀ n ∈ dataSeqs (replayFrames l.env x.1.app p r.pollSeq),
        n ∉ dataSeqs (x.1.app.chans K.chan).queue

instance (cfg : Config) (p : String) (x : World × List Frame) (l : Label)
    (x' : World × List Frame) : Decidable (PollsOnly cfg p x l x') :=
  inferInstanceAs (Decidable (∀ r ∈ requestFor p l.event, _ → _))

instance (cfg : Config) (p : String) (x : World × List Frame) (l : Label)
    (x' : World × List Frame) : Decidable (ReplaysUnqueued cfg p x l x') :=
  inferInstanceAs (Decidable (∀ r ∈ requestFor p l.event, _ → ∀ K ∈ x.1.conns, _ → _))

/-- The Redis queue of `p` holds no `DATA` message. -/
def NoDataQueued (p : String) (redis : Redis) : Prop :=
  ∀ entries msg, redis.queue.lookup p = some entries → .message msg ∈ entries → msg.type_ ≠ .DATA

/-- No other process queues a `DATA` message for `p`. -/
def RedisQueuesNoData (p : String) (_ : World × List Frame) (l : Label)
    (_ : World × List Frame) : Prop :=
  ∀ redis, l.event = .redisChange redis → NoDataQueued p redis

/-! ### The invariant -/

/-- The sequence numbers got so far, and those on each channel of `p`. -/
def seqsAt (p : String) (x : World × List Frame) : Option ℕ → List ℕ
  | none => dataSeqs x.2
  | some c => if Serves p x.1 c then dataSeqs (x.1.app.chans c).queue else []

/-- What is stored for `p`: an increasing buffer of `DATA` messages that are
numbered by the counter, and a queue without any. -/
structure Stock (p : String) (s : AppState) : Prop where
  increasing : (s.replayBuffer.held p).Pairwise fun m m' => m.seq < m'.seq
  numbered : ∀ m ∈ s.replayBuffer.held p, m.seq ≤ s.seqCounter ∧ m.data.dataSeq = some m.seq
  queue : NoDataQueued p s.redis

/-- No sequence number of a `DATA` message can be got twice. -/
structure Once (p : String) (x : World × List Frame) : Prop where
  wired : Wired x.1
  owned : Owned x.1
  scattered : Scattered (seqsAt p x)
  bounded : ∀ i, ∀ n ∈ seqsAt p x i, n ≤ x.1.app.seqCounter
  stock : Stock p x.1.app

lemma le_lastSeen {got : List Frame} {n : ℕ} (h : n ∈ dataSeqs got) : n ≤ lastSeen got :=
  List.le_max_of_le h (le_refl n)

lemma dataSeqs_append (l m : List Frame) : dataSeqs (l ++ m) = dataSeqs l ++ dataSeqs m :=
  List.filterMap_append

lemma dataSeq_of_type_ne {msg : Message} (h : msg.type_ ≠ .DATA) :
    (Frame.relay msg).dataSeq = none := by
  rw [Frame.dataSeq, if_neg h]

/-- A statement that adds no message for `p`. -/
lemma Stock.of_supplies {p : String} {s t : AppState} {o : Origin} (h : Stock p s)
    (hs : Supplies o s t) (hbuffered : ∀ m, ¬o.buffered p m)
    (hentry : ∀ msg, o.entry p (.message msg) → msg.type_ ≠ .DATA) : Stock p t := by
  have hsub := (hs.buffer p).sublist hbuffered
  refine ⟨h.increasing.sublist hsub, fun m hm => ?_, fun entries msg hentries hmem => ?_⟩
  · obtain ⟨hle, hdata⟩ := h.numbered m (hsub.subset hm)
    exact ⟨hle.trans hs.counter, hdata⟩
  · rcases hs.queue p (.message msg) ⟨entries, hentries, hmem⟩ with ⟨entries', hold, hmem'⟩ | ho
    · exact h.queue entries' msg hold hmem'
    · exact hentry msg ho

lemma Stock.of_stores {p : String} {s t : AppState} (h : Stock p s)
    (ht : t.stores.2 = s.stores.2) : Stock p t := by
  have hqueue : t.redis.queue = s.redis.queue := congrArg Prod.fst ht
  have hbuffer : t.replayBuffer = s.replayBuffer := congrArg (fun p => p.2.1) ht
  have hcounter : t.seqCounter = s.seqCounter := congrArg (fun p => p.2.2.2) ht
  refine ⟨?_, ?_, ?_⟩
  · rw [hbuffer]
    exact h.increasing
  · rw [hbuffer, hcounter]
    exact h.numbered
  · intro entries msg hentries
    rw [hqueue] at hentries
    exact h.queue entries msg hentries

/-- What a replay puts on the channel of `p`. -/
lemma dataSeqs_replayFrames {p : String} {s : AppState} (h : Stock p s) (env : Env) (n : ℕ) :
    dataSeqs (replayFrames env s p (some n)) =
      ((s.replayBuffer.held p).filter fun m =>
        decide (n < m.seq) && decide (env.now - m.createdAt < s.replayBuffer.ttlMs)).map
          BufferedMessage.seq := by
  rw [replayFrames, ReplayBuffer.replaySince_eq, dataSeqs, List.filterMap_map]
  refine List.filterMap_eq_map_iff_forall_eq_some.mpr fun m hm => ?_
  exact (h.numbered m (List.mem_of_mem_filter hm)).2

lemma dataSeqs_gapFrames (s : AppState) (id : String) (lastSeq : Option ℕ) :
    dataSeqs (gapFrames s id lastSeq) = [] := by
  rw [gapFrames.eq_def]
  split
  · split_ifs <;> rfl
  · rfl

/-! ### Steps that add no `DATA` message for the client -/

/-- No `DATA` message goes to a channel, the buffer or the queue of `p`. -/
def silent (p : String) (w : World) : Origin where
  frame c f := Serves p w c → f.dataSeq = none
  entry id entry := id = p → ∀ msg, entry = .message msg → msg.type_ ≠ .DATA
  buffered key _ := key ≠ p
  presence _ _ _ := True

lemma plain_silent (p : String) (w : World) : (silent p w).Plain where
  open_ _ _ := dataSeq_of_type_ne (by simp)
  error _ _ _ := rfl
  replayGap _ _ _ _ := rfl
  roomJoinDenied _ _ _ _ := rfl
  roomPeers _ _ _ _ := rfl

lemma ofMessage_silent {p : String} {w : World} {env : Env} {id : String} {msg : Message}
    (h : msg.type_ ≠ .DATA) : (silent p w).OfMessage env w.app id msg := by
  refine ⟨fun _ _ _ => dataSeq_of_type_ne h, fun _ dst _ _ msg' hmsg' => ?_,
    fun _ dst c _ _ _ c' _ => dataSeq_of_type_ne (by simp), fun htype => absurd htype h,
    fun htype => absurd htype h, fun _ key peer payload _ c room _ => rfl,
    fun _ _ _ _ _ => trivial, fun _ c _ => dataSeq_of_type_ne h⟩
  rw [← QueueEntry.message.inj hmsg']
  exact h

/-- The channel of a connect of another id is not one of `p`. -/
lemma not_serves_of_connect {p id : String} {w : World} {c : ℕ} (hw : Wired w) (ho : Owned w)
    (hid : id ≠ p) (hc : c = w.app.nextChan ∨ w.app.wsSenders.lookup id = some c) :
    ¬Serves p w c := by
  rintro ⟨-, K, hK, hp, rfl⟩
  rcases hc with hc | hc
  · have := hw.chans K hK
    omega
  · exact hid ((ho.sender K hK id hc).trans hp)

/-- Every step is silent, except for a message with data and a connect of `p`. -/
lemma ofStep_silent {cfg : Config} {p : String} {w : World} {l : Label} (hw : Wired w)
    (ho : Owned w)
    (hmessage : ∀ id msg, incoming cfg w l.event = some (id, msg) →
      allowed l.env id msg.type_ = true → msg.type_ ≠ .DATA)
    (hconnect : ∀ r K s', l.event = .connect r → connect l.env cfg w.app r = .admitted K s' →
      K.id ≠ p)
    (hredis : ∀ redis, l.event = .redisChange redis → NoDataQueued p redis) :
    (silent p w).OfStep cfg w l where
  message id msg hin hallowed := ofMessage_silent (hmessage id msg hin hallowed)
  connect r K s' hev hout c hc := by
    have hnot := not_serves_of_connect hw ho (hconnect r K s' hev hout) hc
    exact ⟨fun _ _ _ _ hserves => absurd hserves hnot, fun _ _ hserves => absurd hserves hnot⟩
  expiry _ _ _ _ _ _ _ _ _ := rfl
  redis redis id entries entry hev hentries hmem := by
    refine Or.inr fun hid msg hmsg => ?_
    rw [hid] at hentries
    rw [hmsg] at hmem
    exact hredis redis hev entries msg hentries hmem

/-- A step that admits no connection of `p` adds no channel of `p`. -/
lemma serves_of_step {cfg : Config} {p : String} {w w' : World} {l : Label} (hw : Wired w)
    (hstep : step cfg w l = some w')
    (hconnect : ∀ r K s', l.event = .connect r → connect l.env cfg w.app r = .admitted K s' →
      K.id ≠ p) {c : ℕ} (hc : Serves p w' c) : Serves p w c := by
  obtain ⟨hopen, K', hK', hid, hchan⟩ := hc
  have hold : ∃ K ∈ w.conns, K.id = p ∧ K.chan = c := by
    rcases shrinks_of_step hw hstep with hs | ⟨r, K, hev, hout, hconns⟩
    · obtain ⟨K, hK, hlater⟩ := hs.conns.mem_back hK'
      exact ⟨K, hK, hlater.id.symm.trans hid, hlater.chan.symm.trans hchan⟩
    · rw [hconns] at hK'
      rcases mem_append_conn hK' with hmem | rfl
      · exact ⟨K', hmem, hid, hchan⟩
      · exact absurd hid (hconnect r K' _ hev hout)
  refine ⟨?_, hold⟩
  obtain ⟨K, hK, -, rfl⟩ := hold
  rw [← Bool.not_eq_true] at hopen ⊢
  exact fun hclosed => hopen ((carries_of_step hstep).stays K.chan (hw.chans K hK) hclosed)

/-- A channel of `p` that was one before shows only less when its queue does. -/
lemma seqsAt_some_sublist {p : String} {w w' : World} {got : List Frame} {c : ℕ}
    (hserves : Serves p w' c → Serves p w c)
    (hseqs : Serves p w' c →
      (dataSeqs (w'.app.chans c).queue).Sublist (dataSeqs (w.app.chans c).queue)) :
    (seqsAt p (w', got) (some c)).Sublist (seqsAt p (w, got) (some c)) := by
  simp only [seqsAt]
  by_cases hc : Serves p w' c
  · rw [if_pos hc, if_pos (hserves hc)]
    exact hseqs hc
  · rw [if_neg hc]
    exact List.nil_sublist _

/-- The channels of `p` show only less after a silent step. -/
lemma seqsAt_sublist {p : String} {w w' : World} {got : List Frame}
    (hs : Supplies (silent p w) w.app w'.app) (hserves : ∀ c, Serves p w' c → Serves p w c)
    (i : Option ℕ) : (seqsAt p (w', got) i).Sublist (seqsAt p (w, got) i) := by
  cases i with
  | none => exact List.Sublist.refl _
  | some c =>
      exact seqsAt_some_sublist (hserves c) fun hc =>
        (hs.chans c).filterMap_sublist fun f hf => hf (hserves c hc)

lemma Stock.of_silent {p : String} {w : World} {t : AppState} (h : Stock p w.app)
    (hs : Supplies (silent p w) w.app t) : Stock p t :=
  h.of_supplies hs (fun _ hne => hne rfl) fun msg hentry => hentry rfl msg rfl

/-- A silent step. -/
lemma Once.of_silent {p : String} {w w' : World} {got : List Frame} (h : Once p (w, got))
    (hs : Supplies (silent p w) w.app w'.app) (hserves : ∀ c, Serves p w' c → Serves p w c)
    (hw : Wired w') (ho : Owned w') : Once p (w', got) where
  wired := hw
  owned := ho
  scattered := h.scattered.of_sublist (seqsAt_sublist hs hserves)
  bounded i n hn := (h.bounded i n ((seqsAt_sublist hs hserves i).subset hn)).trans hs.counter
  stock := h.stock.of_silent hs

lemma queue_deliver (s : AppState) (c n i : ℕ) :
    ((s.deliver c n).chans i).queue =
      if i = c then (s.chans c).queue.drop n else (s.chans i).queue := by
  simp only [AppState.deliver]
  split_ifs <;> rfl

/-- Frames of a channel of `p` go into a response. -/
lemma Once.of_deliver {p : String} {w : World} {got : List Frame} {c n : ℕ} (h : Once p (w, got))
    (hc : Serves p w c) (hw : Wired { w with app := w.app.deliver c n })
    (ho : Owned { w with app := w.app.deliver c n }) :
    Once p ({ w with app := w.app.deliver c n }, got ++ (w.app.chans c).queue.take n) := by
  have hserves : ∀ i, Serves p { w with app := w.app.deliver c n } i ↔ Serves p w i := fun i => by
    rw [Serves, Serves, closed_deliver]
  have hsplit : dataSeqs (w.app.chans c).queue = dataSeqs ((w.app.chans c).queue.take n) ++
      dataSeqs ((w.app.chans c).queue.drop n) := by
    rw [← dataSeqs_append, List.take_append_drop]
  have hgot : seqsAt p ({ w with app := w.app.deliver c n },
      got ++ (w.app.chans c).queue.take n) none =
      seqsAt p (w, got) none ++ dataSeqs ((w.app.chans c).queue.take n) :=
    dataSeqs_append _ _
  have hchan : seqsAt p ({ w with app := w.app.deliver c n },
      got ++ (w.app.chans c).queue.take n) (some c) =
      dataSeqs ((w.app.chans c).queue.drop n) := by
    simp only [seqsAt, hserves, if_pos hc, queue_deliver, if_true]
  have hrest : ∀ i, i ≠ none → i ≠ some c → seqsAt p ({ w with app := w.app.deliver c n },
      got ++ (w.app.chans c).queue.take n) i = seqsAt p (w, got) i := by
    intro i hnone hsome
    cases i with
    | none => exact absurd rfl hnone
    | some j =>
        have hj : j ≠ c := fun hj => hsome (by rw [hj])
        simp only [seqsAt, hserves, queue_deliver, if_neg hj]
  have hold : seqsAt p (w, got) (some c) = dataSeqs (w.app.chans c).queue := if_pos hc
  refine ⟨hw, ho, h.scattered.move (by simp) (hold.trans hsplit) hgot hchan hrest,
    fun i m hm => ?_, h.stock.of_silent (supplies_deliver w.app c n)⟩
  -- every number was somewhere before
  have hbound : ∀ m ∈ dataSeqs (w.app.chans c).queue, m ≤ w.app.seqCounter := fun m hm =>
    h.bounded (some c) m (by rw [hold]; exact hm)
  rw [hsplit] at hbound
  cases i with
  | none =>
      rw [hgot] at hm
      rcases List.mem_append.mp hm with hm | hm
      · exact h.bounded none m hm
      · exact hbound m (List.mem_append_left _ hm)
  | some j =>
      by_cases hj : j = c
      · rw [hj, hchan] at hm
        exact hbound m (List.mem_append_right _ hm)
      · rw [hrest (some j) (by simp) (by simpa using hj)] at hm
        exact h.bounded (some j) m hm

/-! ### Data -/

/-- What `handle_data` does to a channel: nothing, a frame without sequence
number, or the stamped message, which goes to stored senders only. -/
lemma queue_handleData (env : Env) (cfg : Config) (s : AppState) (id : String) (msg : Message)
    (c : ℕ) :
    let t := handleData env cfg s id { msg with src := some id }
    (t.chans c).queue = (s.chans c).queue ∨
      (∃ f, (t.chans c).queue = (s.chans c).queue ++ [f] ∧ f.dataSeq = none) ∨
      ((t.chans c).queue = (s.chans c).queue ++ [.relay (stamped env s id msg)] ∧
        t.seqCounter = s.seqCounter + 1 ∧ ∃ m, s.wsSenders.lookup m = some c) := by
  have hsendTo : ∀ (t : AppState) (dst : String) (f : Frame),
      ((t.sendTo dst [f]).chans c).queue = (t.chans c).queue ∨
        (((t.sendTo dst [f]).chans c).queue = (t.chans c).queue ++ [f] ∧
          t.wsSenders.lookup dst = some c) := by
    intro t dst f
    rw [AppState.sendTo]
    cases hdst : t.wsSenders.lookup dst with
    | none => exact Or.inl rfl
    | some i =>
        by_cases hi : c = i ∧ (t.chans i).closed = false
        · obtain ⟨rfl, hopen⟩ := hi
          refine Or.inr ⟨?_, rfl⟩
          simp only [AppState.send, hopen, and_self, if_true]
        · refine Or.inl ?_
          simp only [AppState.send, if_neg hi]
  refine handleData_induction (P := fun t => (t.chans c).queue = (s.chans c).queue ∨
    (∃ f, (t.chans c).queue = (s.chans c).queue ++ [f] ∧ f.dataSeq = none) ∨
    ((t.chans c).queue = (s.chans c).queue ++ [.relay (stamped env s id msg)] ∧
      t.seqCounter = s.seqCounter + 1 ∧ ∃ m, s.wsSenders.lookup m = some c)) ?_ ?_ ?_ ?_ ?_
  · rcases hsendTo s id (.error "Relay not enabled on this server") with hq | ⟨hq, -⟩
    · exact Or.inl hq
    · exact Or.inr (Or.inl ⟨_, hq, rfl⟩)
  · exact Or.inl rfl
  · intro room _ _
    simp only [bufferRelay, roomFanOut, AppState.fanOut]
    split_ifs with hm
    · obtain ⟨⟨m, -, hm⟩, -⟩ := hm
      exact Or.inr (Or.inr ⟨rfl, trivial, m, hm⟩)
    · exact Or.inl rfl
  · intro dst _ _ _
    rcases hsendTo { s with seqCounter := s.seqCounter + 1 } dst
      (.relay (stamped env s id msg)) with hq | ⟨hq, hsender⟩
    · exact Or.inl hq
    · exact Or.inr (Or.inr ⟨hq, rfl, dst, hsender⟩)
  · exact Or.inl rfl

/-- What `handle_data` does to a buffer: nothing, or the stamped message is
appended and old ones may be dropped. -/
lemma held_handleData (env : Env) (cfg : Config) (s : AppState) (id : String) (msg : Message)
    (key : String) :
    let t := handleData env cfg s id { msg with src := some id }
    t.replayBuffer.held key = s.replayBuffer.held key ∨
      ∃ kept, kept.Sublist (s.replayBuffer.held key) ∧ t.seqCounter = s.seqCounter + 1 ∧
        t.replayBuffer.held key =
          kept ++ [⟨s.seqCounter + 1, .relay (stamped env s id msg), env.now⟩] := by
  have hbuffer : ∀ (t : AppState) (key' : String), t.replayBuffer = s.replayBuffer →
      t.seqCounter = s.seqCounter + 1 →
      let u := bufferRelay env t key' (s.seqCounter + 1) (stamped env s id msg)
      u.replayBuffer.held key = s.replayBuffer.held key ∨
        ∃ kept, kept.Sublist (s.replayBuffer.held key) ∧ u.seqCounter = s.seqCounter + 1 ∧
          u.replayBuffer.held key =
            kept ++ [⟨s.seqCounter + 1, .relay (stamped env s id msg), env.now⟩] := by
    intro t key' ht hcount
    rw [bufferRelay]
    dsimp only
    rw [ht]
    split_ifs
    · exact Or.inl rfl
    · rw [ReplayBuffer.held_push]
      split_ifs with hkey hfull
      · rw [hkey]
        exact Or.inr ⟨_, (List.tail_sublist _).trans (List.dropWhile_sublist _), hcount, rfl⟩
      · rw [hkey]
        exact Or.inr ⟨_, List.dropWhile_sublist _, hcount, rfl⟩
      · exact Or.inl rfl
  refine handleData_induction (P := fun t => t.replayBuffer.held key = s.replayBuffer.held key ∨
    ∃ kept, kept.Sublist (s.replayBuffer.held key) ∧ t.seqCounter = s.seqCounter + 1 ∧
      t.replayBuffer.held key =
        kept ++ [⟨s.seqCounter + 1, .relay (stamped env s id msg), env.now⟩]) ?_ ?_ ?_ ?_ ?_
  · exact Or.inl rfl
  · exact Or.inl rfl
  · exact fun _ _ _ => hbuffer _ _ rfl rfl
  · exact fun _ _ _ _ => hbuffer _ _ rfl rfl
  · exact Or.inl rfl

lemma counter_handleData (env : Env) (cfg : Config) (s : AppState) (id : String) (msg : Message) :
    s.seqCounter ≤ (handleData env cfg s id { msg with src := some id }).seqCounter ∧
      (handleData env cfg s id { msg with src := some id }).redis = s.redis := by
  refine handleData_induction (P := fun t => s.seqCounter ≤ t.seqCounter ∧ t.redis = s.redis)
    ?_ ?_ ?_ ?_ ?_
  · exact ⟨le_refl _, rfl⟩
  · exact ⟨le_refl _, rfl⟩
  · exact fun _ _ _ => ⟨Nat.le_succ _, rfl⟩
  · exact fun _ _ _ _ => ⟨Nat.le_succ _, rfl⟩
  · exact ⟨Nat.le_succ _, rfl⟩

lemma dataSeq_stamped {env : Env} {s : AppState} {id : String} {msg : Message}
    (h : msg.type_ = .DATA) :
    (Frame.relay (stamped env s id msg)).dataSeq = some (s.seqCounter + 1) :=
  if_pos h

/-- The stock of `p` after a message with data: a message that is buffered has
the next number. -/
lemma Stock.of_data {p : String} {env : Env} {cfg : Config} {s : AppState} {id : String}
    {msg : Message} (h : Stock p s) (htype : msg.type_ = .DATA)
    (hcounter : s.seqCounter ≤
      (handleData env cfg s id { msg with src := some id }).seqCounter)
    (hredis : (handleData env cfg s id { msg with src := some id }).redis = s.redis) :
    Stock p (handleData env cfg s id { msg with src := some id }) := by
  have hqueue := h.queue
  rw [← hredis] at hqueue
  rcases held_handleData env cfg s id msg p with hheld | ⟨kept, hkept, hnext, hheld⟩
  · refine ⟨?_, fun m hm => ?_, hqueue⟩
    · rw [hheld]
      exact h.increasing
    · rw [hheld] at hm
      exact ⟨(h.numbered m hm).1.trans hcounter, (h.numbered m hm).2⟩
  · have hbelow : ∀ m ∈ kept, m.seq < s.seqCounter + 1 := fun m hm =>
      Nat.lt_succ_of_le (h.numbered m (hkept.subset hm)).1
    refine ⟨?_, fun m hm => ?_, hqueue⟩
    · rw [hheld, List.pairwise_append]
      refine ⟨h.increasing.sublist hkept, List.pairwise_singleton _ _, fun m hm m' hm' => ?_⟩
      rw [List.mem_singleton.mp hm']
      exact hbelow m hm
    · rw [hheld] at hm
      rcases List.mem_append.mp hm with hm | hm
      · exact ⟨(h.numbered m (hkept.subset hm)).1.trans hcounter,
          (h.numbered m (hkept.subset hm)).2⟩
      · rw [List.mem_singleton.mp hm]
        exact ⟨hnext.ge, dataSeq_stamped htype⟩

/-- A step with an allowed `DATA` message is a call of `handle_data`, in a state
that differs in client records and buckets only. -/
lemma data_of_incoming {cfg : Config} {w w' : World} {l : Label} {id : String} {msg : Message}
    (hstep : step cfg w l = some w') (hin : incoming cfg w l.event = some (id, msg))
    (hallowed : allowed l.env id msg.type_ = true) (htype : msg.type_ = .DATA) :
    ∃ clients rateLimiter, w' = ⟨handleData l.env cfg
      { w.app with clients := clients, rateLimiter := rateLimiter } id
        { msg with src := some id }, w.conns⟩ := by
  obtain ⟨clients, rateLimiter, rfl⟩ := handled_of_incoming hstep hin hallowed
  obtain ⟨type_, src, dst, payload, seq, room, timestamp, topicClass⟩ := msg
  cases htype
  exact ⟨_, rateLimiter, rfl⟩

/-- A channel of `p` that gets the message is the stored sender of `p`. -/
lemma seqs_handleData (env : Env) (cfg : Config) {p : String} {w : World} {s : AppState}
    (id : String) {msg : Message} {c : ℕ} (ho : Owned w)
    (hsenders : s.wsSenders = w.app.wsSenders) (htype : msg.type_ = .DATA) (hc : Serves p w c) :
    let t := handleData env cfg s id { msg with src := some id }
    dataSeqs (t.chans c).queue = dataSeqs (s.chans c).queue ∨
      (dataSeqs (t.chans c).queue = dataSeqs (s.chans c).queue ++ [s.seqCounter + 1] ∧
        t.seqCounter = s.seqCounter + 1 ∧ w.app.wsSenders.lookup p = some c) := by
  intro t
  obtain ⟨-, K, hK, hp, rfl⟩ := hc
  rcases queue_handleData env cfg s id msg K.chan with hq | ⟨f, hq, hf⟩ | ⟨hq, hnext, m, hm⟩
  · rw [hq]
    exact Or.inl rfl
  · rw [hq, dataSeqs_append, dataSeqs, dataSeqs, List.filterMap_cons_none hf]
    exact Or.inl (List.append_nil _)
  · rw [hq, dataSeqs_append]
    refine Or.inr ⟨?_, hnext, ?_⟩
    · rw [dataSeqs, dataSeqs, List.filterMap_cons_some (dataSeq_stamped htype)]
      rfl
    · rw [hsenders] at hm
      rw [← hp, ← ho.sender K hK m hm]
      exact hm

/-- A message with data reaches at most one channel of `p`, with a new number. -/
lemma Once.of_data {p : String} {w w' : World} {got : List Frame} {l : Label} {cfg : Config}
    {id : String} {msg : Message} (h : Once p (w, got)) (hstep : step cfg w l = some w')
    (hin : incoming cfg w l.event = some (id, msg))
    (hallowed : allowed l.env id msg.type_ = true) (htype : msg.type_ = .DATA) :
    Once p (w', got) := by
  have hw := wired_of_step h.wired hstep
  have ho := owned_of_step h.owned h.wired hstep
  have hserves : ∀ c, Serves p w' c → Serves p w c := fun c =>
    serves_of_step h.wired hstep fun r K s' hev => absurd hin (by simp [hev, incoming])
  obtain ⟨clients, rateLimiter, rfl⟩ := data_of_incoming hstep hin hallowed htype
  have hcounter := counter_handleData l.env cfg
    { w.app with clients := clients, rateLimiter := rateLimiter } id msg
  have hbefore : Stock p { w.app with clients := clients, rateLimiter := rateLimiter } :=
    h.stock.of_stores rfl
  have hstock := hbefore.of_data htype hcounter.1 hcounter.2
  have hcases := fun c (hc : Serves p w c) => seqs_handleData l.env cfg
    (s := { w.app with clients := clients, rateLimiter := rateLimiter }) id h.owned rfl htype hc
  generalize handleData l.env cfg { w.app with clients := clients, rateLimiter := rateLimiter } id
    { msg with src := some id } = t at *
  by_cases hnone : ∀ c, Serves p ⟨t, w.conns⟩ c →
      dataSeqs (t.chans c).queue = dataSeqs (w.app.chans c).queue
  · have hsub : ∀ i, (seqsAt p (⟨t, w.conns⟩, got) i).Sublist (seqsAt p (w, got) i) := by
      intro i
      cases i with
      | none => exact List.Sublist.refl _
      | some c => exact seqsAt_some_sublist (hserves c) fun hc => by rw [hnone c hc]
    exact ⟨hw, ho, h.scattered.of_sublist hsub,
      fun i n hn => (h.bounded i n ((hsub i).subset hn)).trans hcounter.1, hstock⟩
  · push Not at hnone
    obtain ⟨c, hc, hne⟩ := hnone
    obtain ⟨hqc, hcount, hsender⟩ := (hcases c (hserves c hc)).resolve_left hne
    have hnext : t.seqCounter = w.app.seqCounter + 1 := hcount
    have hat : seqsAt p (⟨t, w.conns⟩, got) (some c) =
        seqsAt p (w, got) (some c) ++ [w.app.seqCounter + 1] := by
      simp only [seqsAt, if_pos hc, if_pos (hserves c hc)]
      exact hqc
    have hrest : ∀ i, i ≠ some c →
        (seqsAt p (⟨t, w.conns⟩, got) i).Sublist (seqsAt p (w, got) i) := by
      intro i hi
      cases i with
      | none => exact List.Sublist.refl _
      | some j =>
          refine seqsAt_some_sublist (hserves j) fun hj => ?_
          have hsame := (hcases j (hserves j hj)).resolve_right fun hr =>
            hi (congrArg some (Option.some.inj (hr.2.2.symm.trans hsender)))
          rw [hsame]
    refine ⟨hw, ho, h.scattered.add (i := some c) (List.nodup_singleton _) (fun j n hn hold => ?_)
      (by rw [hat]) hrest, fun i n hn => ?_, hstock⟩
    · -- the number is above all that were used
      rw [List.mem_singleton.mp hn] at hold
      have hle : w.app.seqCounter + 1 ≤ w.app.seqCounter := h.bounded j _ hold
      omega
    · dsimp only
      rw [hnext]
      by_cases hi : i = some c
      · rw [hi, hat] at hn
        rcases List.mem_append.mp hn with hn | hn
        · have hle : n ≤ w.app.seqCounter := h.bounded (some c) n hn
          omega
        · rw [List.mem_singleton.mp hn]
      · have hle : n ≤ w.app.seqCounter := h.bounded i n ((hrest i hi).subset hn)
        omega

/-! ### Polls -/

/-- No `DATA` message goes anywhere. -/
def mute : Origin where
  frame _ f := f.dataSeq = none
  entry _ _ := False
  buffered _ _ := False
  presence _ _ _ := False

lemma plain_mute : mute.Plain where
  open_ _ := dataSeq_of_type_ne (by simp)
  error _ _ := rfl
  replayGap _ _ _ := rfl
  roomJoinDenied _ _ _ := rfl
  roomPeers _ _ _ := rfl

lemma Stock.ofQueue_mute {p : String} {s : AppState} (h : Stock p s) (c : ℕ) :
    mute.OfQueue s p c := by
  rintro entry msg ⟨entries, hentries, hmem⟩ hparse
  cases entry with
  | malformed text => exact absurd hparse (by simp [QueueEntry.parse])
  | message msg' =>
      rw [← Option.some.inj hparse]
      exact dataSeq_of_type_ne (h.queue entries msg' hentries hmem)

lemma queue_send (s : AppState) (c : ℕ) (frames : List Frame) (i : ℕ) :
    ((s.send c frames).chans i).queue = (s.chans i).queue ∨
      i = c ∧ ((s.send c frames).chans i).queue = (s.chans i).queue ++ frames := by
  by_cases hi : i = c ∧ (s.chans c).closed = false
  · obtain ⟨rfl, hopen⟩ := hi
    refine Or.inr ⟨rfl, ?_⟩
    simp only [AppState.send, hopen, and_self, if_true]
  · refine Or.inl ?_
    simp only [AppState.send, if_neg hi]

/-- What a channel of `p` shows when frames were sent on the channel `tx`. -/
lemma seqsAt_send {p : String} {t : AppState} {conns : List Conn} {got : List Frame} {tx c : ℕ}
    {frames : List Frame} {seqs : List ℕ}
    (hat : Serves p ⟨t.send tx frames, conns⟩ c → (dataSeqs (t.chans c).queue).Sublist seqs) :
    (seqsAt p (⟨t.send tx frames, conns⟩, got) (some c)).Sublist
      (seqs ++ if c = tx then dataSeqs frames else []) := by
  rw [seqsAt]
  split_ifs with hc htx htx
  · dsimp only
    rcases queue_send t tx frames c with hqueue | ⟨-, hqueue⟩
    · rw [hqueue]
      exact (hat hc).trans (List.sublist_append_left _ _)
    · rw [hqueue, dataSeqs_append]
      exact (hat hc).append (List.Sublist.refl _)
  · dsimp only
    rcases queue_send t tx frames c with hqueue | ⟨hctx, -⟩
    · rw [hqueue, List.append_nil]
      exact hat hc
    · exact absurd hctx htx
  · exact List.nil_sublist _
  · exact List.nil_sublist _

/-- The replayed numbers are different, above the requested one and not above
the counter. -/
lemma Stock.replayed {p : String} {s : AppState} (h : Stock p s) (env : Env) (n : ℕ) :
    (dataSeqs (replayFrames env s p (some n))).Nodup ∧
      (∀ m ∈ dataSeqs (replayFrames env s p (some n)), n < m) ∧
      ∀ m ∈ dataSeqs (replayFrames env s p (some n)), m ≤ s.seqCounter := by
  rw [dataSeqs_replayFrames h]
  refine ⟨?_, fun m hm => ?_, fun m hm => ?_⟩
  · have hlt : (((s.replayBuffer.held p).filter fun m => decide (n < m.seq) &&
        decide (env.now - m.createdAt < s.replayBuffer.ttlMs)).map
          BufferedMessage.seq).Pairwise (· < ·) :=
      List.pairwise_map.mpr (h.increasing.sublist List.filter_sublist)
    exact hlt.imp Nat.ne_of_lt
  · obtain ⟨b, hb, rfl⟩ := List.mem_map.mp hm
    have hfilter := (List.mem_filter.mp hb).2
    rw [Bool.and_eq_true, decide_eq_true_eq] at hfilter
    exact hfilter.1
  · obtain ⟨b, hb, rfl⟩ := List.mem_map.mp hm
    exact (h.numbered b (List.mem_of_mem_filter hb)).1

/-- What the channels of `p` show when a poll has its pair. -/
lemma seqs_pollPair {p : String} {w : World} {got : List Frame} {K : Conn} {tx : ℕ}
    {chans : ℕ → Channel} {s' : AppState} (h : Once p (w, got)) (hs' : Appends w.app s')
    (hpair : PollPair w.app p tx K.chan chans) (c : ℕ) (hc : Serves p ⟨s', w.conns ++ [K]⟩ c) :
    (dataSeqs (chans c).queue).Sublist (seqsAt p (w, got) (some c)) := by
  obtain ⟨hopen, K', hK', hid, hchan⟩ := hc
  have hserves : (∃ K' ∈ w.conns, K'.id = p ∧ K'.chan = c) → Serves p w c := by
    rintro ⟨K', hK', hid, rfl⟩
    exact ⟨(hs'.closed K'.chan (h.wired.chans K' hK')).symm.trans hopen, K', hK', hid, rfl⟩
  have hcases : Serves p w c ∨ c = K.chan := by
    rcases mem_append_conn hK' with hold | rfl
    · exact Or.inl (hserves ⟨K', hold, hid, hchan⟩)
    · exact Or.inr hchan.symm
  cases hpair with
  | stored hrx htx hchans =>
      have hold : Serves p w c := by
        rcases hcases with hold | rfl
        · exact hold
        · exact hserves (h.owned.receiver p K.chan hrx)
      rw [hchans, seqsAt, if_pos hold]
  | fresh hrx htx hchans =>
      rw [hchans, AppState.newChannel]
      dsimp only
      split_ifs with hnew
      · exact List.nil_sublist _
      · have hold : Serves p w c := by
          rcases hcases with hold | rfl
          · exact hold
          · exact absurd hrx hnew
        rw [seqsAt, if_pos hold]

/-- A poll of `p`: what it replays is above everything that was got, and on no
channel of `p` by the condition. -/
lemma Once.of_poll {p : String} {w : World} {got : List Frame} {env : Env} {cfg : Config}
    {q : HttpQuery} {K : Conn} {s' : AppState} (h : Once p (w, got)) (hq : q.id = p)
    (hlast : q.lastSeq = some (lastSeen got))
    (hout : pollHandler env cfg w.app q = .admitted K s')
    (hcond : ∀ c, Serves p w c → (dataSeqs (replayFrames env w.app p q.lastSeq)).Disjoint
      (dataSeqs (w.app.chans c).queue))
    (hw : Wired ⟨s', w.conns ++ [K]⟩) (ho : Owned ⟨s', w.conns ++ [K]⟩) :
    Once p (⟨s', w.conns ++ [K]⟩, got) := by
  subst hq
  obtain ⟨v, t, tx, hs', hbuffer, hcounter, hpair, hv, ht⟩ := pollHandler_admitted hout
  have happends : Appends w.app s' := appends_connect (r := .poll q) hout
  have hsupplies := ht mute plain_mute (h.stock.ofQueue_mute tx)
  have hframes : dataSeqs (gapFrames t q.id q.lastSeq ++ replayFrames env t q.id q.lastSeq) =
      dataSeqs (replayFrames env w.app q.id q.lastSeq) := by
    rw [dataSeqs_append, dataSeqs_gapFrames, List.nil_append, replayFrames.eq_def, hbuffer]
    rfl
  generalize gapFrames t q.id q.lastSeq ++ replayFrames env t q.id q.lastSeq = frames
    at hs' hframes
  have hstock : Stock q.id t := (h.stock.of_stores hv).of_supplies hsupplies (fun _ hb => hb)
    fun _ he => False.elim he
  obtain ⟨hnodup, habove, hbelow⟩ := h.stock.replayed env (lastSeen got)
  rw [← hlast] at hnodup habove hbelow
  have hat : ∀ c, Serves q.id ⟨s', w.conns ++ [K]⟩ c →
      (dataSeqs (t.chans c).queue).Sublist (seqsAt q.id (w, got) (some c)) := fun c hc =>
    ((hsupplies.chans c).filterMap_sublist fun f hf => hf).trans
      (seqs_pollPair h happends hpair c hc)
  -- what a place shows afterwards
  have hsome : ∀ c, (seqsAt q.id (⟨s', w.conns ++ [K]⟩, got) (some c)).Sublist
      (seqsAt q.id (w, got) (some c) ++
        if c = tx then dataSeqs (replayFrames env w.app q.id q.lastSeq) else []) := by
    intro c
    rw [← hframes]
    subst hs'
    exact seqsAt_send (hat c)
  refine ⟨hw, ho, h.scattered.add (i := some tx) hnodup (fun j n hn hold => ?_) ?_ fun j hj => ?_,
    fun i n hn => ?_, ?_⟩
  · cases j with
    | none =>
        have hle : n ≤ lastSeen got := le_lastSeen hold
        have hlt := habove n hn
        omega
    | some c =>
        rw [seqsAt] at hold
        split_ifs at hold with hc
        · exact hcond c hc hn hold
        · exact absurd hold (by simp)
  · have := hsome tx
    rwa [if_pos rfl] at this
  · cases j with
    | none => exact List.Sublist.refl _
    | some c =>
        have hc : c ≠ tx := fun hc => hj (by rw [hc])
        have := hsome c
        rwa [if_neg hc, List.append_nil] at this
  · have hcount : s'.seqCounter = w.app.seqCounter := by
      rw [hs']
      exact hcounter
    dsimp only
    rw [hcount]
    cases i with
    | none => exact h.bounded none n hn
    | some c =>
        rcases List.mem_append.mp ((hsome c).subset hn) with hn | hn
        · exact h.bounded (some c) n hn
        · split_ifs at hn
          · exact hbelow n hn
          · exact absurd hn (by simp)
  · rw [hs']
    exact ⟨hstock.increasing, hstock.numbered, hstock.queue⟩

/-! ### Runs -/

/-- A step of the server keeps the sequence numbers apart. -/
lemma once_of_step {cfg : Config} {p : String} {x x' : World × List Frame} {l : Label}
    (h : Once p x) (hstep : pollStep cfg p x l = some x') (hpolls : PollsOnly cfg p x l x')
    (hcond : ReplaysUnqueued cfg p x l x') (hredis : RedisQueuesNoData p x l x') : Once p x' := by
  obtain ⟨w, got⟩ := x
  obtain ⟨w', hw', rfl⟩ := Option.map_eq_some_iff.mp hstep
  dsimp only at hw' ⊢
  have hwired := wired_of_step h.wired hw'
  have howned := owned_of_step h.owned h.wired hw'
  by_cases hconnect : ∀ r K s', l.event = .connect r →
      connect l.env cfg w.app r = .admitted K s' → K.id ≠ p
  · by_cases hdata : ∀ id msg, incoming cfg w l.event = some (id, msg) →
        allowed l.env id msg.type_ = true → msg.type_ ≠ .DATA
    · have hsupplies := supplies_step (plain_silent p w)
        (ofStep_silent h.wired h.owned hdata hconnect hredis) hw'
      have hserves : ∀ c, Serves p w' c → Serves p w c := fun c =>
        serves_of_step h.wired hw' hconnect
      have hsilent : Once p (w', got) := h.of_silent hsupplies hserves hwired howned
      obtain ⟨env, ev⟩ := l
      cases ev with
      | deliver c n =>
          rw [answered]
          split_ifs with hc
          · rw [← Option.some.inj hw'] at hwired howned ⊢
            exact h.of_deliver hc hwired howned
          · rw [List.append_nil]
            exact hsilent
      | _ => simpa [answered] using hsilent
    · push Not at hdata
      obtain ⟨id, msg, hin, hallowed, htype⟩ := hdata
      have hno : answered p w l.event = [] := by
        cases hev : l.event with
        | deliver c n => exact absurd hin (by simp [hev, incoming])
        | _ => rfl
      rw [hno, List.append_nil]
      exact h.of_data hw' hin hallowed htype
  · -- the connect of `p` is a poll with the last number it has seen
    push Not at hconnect
    obtain ⟨r, K, s', hev, hout, hK⟩ := hconnect
    have hid := (connect_admitted hout).admittedFor.id
    rw [hK] at hid
    have hrequest : r ∈ requestFor p l.event := by
      rw [hev, requestFor, if_pos hid]
      rfl
    have hadmitted : (connect l.env cfg w.app r).isAdmitted = true := by
      rw [hout]
      rfl
    have hlast := hpolls r hrequest hadmitted
    have hreplays := hcond r hrequest hadmitted
    obtain ⟨q, rfl⟩ : ∃ q, r = .poll q := by
      cases r with
      | poll q => exact ⟨q, rfl⟩
      | ws q => exact absurd hlast (by simp [Request.pollSeq])
      | sse q => exact absurd hlast (by simp [Request.pollSeq])
    have hw'eq : w' = ⟨s', w.conns ++ [K]⟩ := by
      rw [step, hev] at hw'
      dsimp only at hw'
      rw [hout, Option.some.injEq] at hw'
      exact hw'.symm
    have hno : answered p w l.event = [] := by rw [hev]; rfl
    rw [hno, List.append_nil]
    rw [hw'eq] at hwired howned ⊢
    refine h.of_poll (Option.some.inj hid) hlast hout ?_ hwired howned
    rintro c ⟨hopen, K', hK', hp, rfl⟩ n hn
    exact hreplays K' hK' hp hopen n hn

lemma seqsAt_init (cfg : Config) (p : String) (redis : Redis) (i : Option ℕ) :
    seqsAt p (World.init cfg redis, []) i = [] := by
  cases i with
  | none => rfl
  | some c =>
      have hno : ¬Serves p (World.init cfg redis) c := by
        rintro ⟨-, K, hK, -⟩
        exact absurd hK (by simp [World.init])
      rw [seqsAt, if_neg hno]

lemma once_init (cfg : Config) {p : String} {redis : Redis} (hredis : NoDataQueued p redis) :
    Once p (World.init cfg redis, []) where
  wired := wired_init cfg redis
  owned := owned_init cfg redis
  scattered := by
    refine ⟨fun i => ?_, fun i j _ => ?_⟩
    · rw [seqsAt_init]
      exact List.nodup_nil
    · rw [seqsAt_init]
      exact List.disjoint_nil_left _
  bounded i n hn := by
    rw [seqsAt_init] at hn
    exact absurd hn (by simp)
  stock := by
    have hheld : (World.init cfg redis).app.replayBuffer.held p = [] := rfl
    refine ⟨?_, fun m hm => ?_, hredis⟩
    · rw [hheld]
      exact List.Pairwise.nil
    · rw [hheld] at hm
      exact absurd hm (by simp)

/-- A client that only polls, with the largest sequence number it has got, gets
no `DATA` message twice as long as none of the messages its polls replay is
still on one of its channels that has its receiver. -/
theorem polled_at_most_once {cfg : Config} {p : String} {redis : Redis} {ls : List Label}
    {w : World} {got : List Frame} (hredis : NoDataQueued p redis)
    (hqueues : AllSteps (pollStep cfg p) (RedisQueuesNoData p) (World.init cfg redis, []) ls)
    (hpolls : AllSteps (pollStep cfg p) (PollsOnly cfg p) (World.init cfg redis, []) ls)
    (hcond : AllSteps (pollStep cfg p) (ReplaysUnqueued cfg p) (World.init cfg redis, []) ls)
    (hrun : run (pollStep cfg p) (World.init cfg redis, []) ls = some (w, got)) :
    (dataSeqs got).Nodup := by
  have honce : Once p (w, got) := by
    refine run_invariant (I := Once p) (fun x l x' hx hstep hP => ?_) (once_init cfg hredis)
      (hqueues.and (hpolls.and hcond)) hrun
    exact once_of_step hx hstep hP.2.1 hP.2.2 hP.1
  exact honce.scattered.nodup none

/-- A `DATA` message for `pat`. -/
def dataForPat : Event := .say 0 { type_ := .DATA, dst := some "pat" }

/-- A poll of `pat` that passes the number `n`. -/
def patPolls (n : ℕ) : Event :=
  .connect (.poll { id := "pat", token := "tok", key := some "dendri", lastSeq := some n })

/-- `pat` polls, gets a message of `alice`, and polls with its number before the
next message is sent. -/
def patKeepsUp : List Label :=
  [.connect (Params.plain "alice" "tok").ws, patPolls 0, dataForPat, .deliver 1 9, patPolls 1,
    dataForPat, .deliver 1 9].map quietly

lemma noDataQueued_empty (p : String) : NoDataQueued p Redis.empty := fun entries msg hentries =>
  absurd hentries (by simp [Redis.empty])

theorem polled_at_most_once_pat :
    ∃ w got, run (pollStep relayConfig "pat") (World.init relayConfig Redis.empty, []) patKeepsUp =
        some (w, got) ∧ dataSeqs got = [1, 2] ∧ (dataSeqs got).Nodup := by
  have heval : (run (pollStep relayConfig "pat") (World.init relayConfig Redis.empty, [])
      patKeepsUp).map (fun x => dataSeqs x.2) = some [1, 2] := by decide +kernel
  obtain ⟨⟨w, got⟩, hrun, hgot⟩ := Option.map_eq_some_iff.mp heval
  refine ⟨w, got, hrun, hgot, polled_at_most_once (noDataQueued_empty "pat")
    (AllSteps.of_mem _ ?_) (by decide +kernel) (by decide +kernel) hrun⟩
  intro l hl x x' _ redis hev
  fin_cases hl <;> exact absurd hev (by simp [quietly, dataForPat, patPolls, Event.say])

/-- `pat` polls again before it has got a message that was sent. -/
def patFallsBehind : List Label :=
  [.connect (Params.plain "alice" "tok").ws, patPolls 0, dataForPat, patPolls 0,
    .deliver 1 9].map quietly

/-- A message that is sent between two polls is on the channel and in the
buffer, and the second poll returns it twice. -/
theorem polled_twice :
    ¬∀ (cfg : Config) (p : String) (redis : Redis) (ls : List Label) (w : World)
      (got : List Frame), NoDataQueued p redis →
      AllSteps (pollStep cfg p) (RedisQueuesNoData p) (World.init cfg redis, []) ls →
      AllSteps (pollStep cfg p) (PollsOnly cfg p) (World.init cfg redis, []) ls →
      run (pollStep cfg p) (World.init cfg redis, []) ls = some (w, got) →
      (dataSeqs got).Nodup := by
  intro hall
  have heval : (run (pollStep relayConfig "pat") (World.init relayConfig Redis.empty, [])
      patFallsBehind).map (fun x => dataSeqs x.2) = some [1, 1] := by decide +kernel
  obtain ⟨⟨w, got⟩, hrun, hgot⟩ := Option.map_eq_some_iff.mp heval
  have hnodup := hall relayConfig "pat" Redis.empty patFallsBehind w got (noDataQueued_empty "pat")
    (AllSteps.of_mem _ ?_) (by decide +kernel) hrun
  · dsimp only at hgot
    rw [hgot] at hnodup
    exact absurd hnodup (by decide)
  · intro l hl x x' _ redis hev
    fin_cases hl <;> exact absurd hev (by simp [quietly, dataForPat, patPolls, Event.say])

end Dendri
