import Dendri.Properties.ReplayWindow
import Dendri.Handlers.Admits

/-!
Gaps in the replay. A client that connects over an event stream or a poll with
the last sequence number it has seen gets the newer messages that are still
buffered, and a `REPLAY_GAP` error if the number is smaller than the one at the
front of the buffer. The test looks at the front only: an empty buffer never
reports a gap, and a front that is old enough hides that newer messages have
expired behind it.

* `pushedEver`: all messages a history pushed for an id, removed or not;
* `resumes_of_admitted`: what both handlers send at their end;
* `GapReported`: a gap error is sent, or nothing newer is missing;
* `GapVisible`, `gap_reported_iff`: this is so just when nothing newer was
  pushed, or the buffer is not empty and its front is newer, or nothing newer
  has expired.
-/

namespace Dendri

open AppState

/-! ### What was ever pushed -/

namespace ReplayBuffer

variable {δ : Type}

/-- The message a call pushes to `key`, if any. -/
def pushOf (key : String) : ℕ × BufferCall δ → Option (BufferedMessage δ)
  | (now, .push key' seq data) => if key' = key then some ⟨seq, data, now⟩ else none
  | _ => none

/-- All messages a history pushed to `key`. -/
def pushedEver (key : String) (calls : List (ℕ × BufferCall δ)) : List (BufferedMessage δ) :=
  calls.filterMap (pushOf key)

/-- The sequence number of a push. -/
def seqOf : ℕ × BufferCall δ → Option ℕ
  | (_, .push _ seq _) => some seq
  | _ => none

/-- The pushes of a history have strictly increasing sequence numbers. -/
def IncreasingSeqs (calls : List (ℕ × BufferCall δ)) : Prop :=
  (calls.filterMap seqOf).Pairwise (· < ·)

lemma pushedAfter_eq (key : String) (msgs : List (BufferedMessage δ)) (c : ℕ × BufferCall δ) :
    pushedAfter key msgs c = msgs ++ (pushOf key c).toList ∨ pushedAfter key msgs c = [] := by
  obtain ⟨now, call⟩ := c
  cases call with
  | push key' seq data =>
      refine Or.inl ?_
      simp only [pushedAfter, pushOf]
      split_ifs
      · rfl
      · exact (List.append_nil msgs).symm
  | replaySince key' sinceSeq => exact Or.inl (List.append_nil msgs).symm
  | evictExpired order => exact Or.inl (List.append_nil msgs).symm
  | removeClient key' =>
      simp only [pushedAfter]
      split_ifs
      · exact Or.inr rfl
      · exact Or.inl (List.append_nil msgs).symm

/-- What was pushed since the last removal is an end part of what was ever
pushed. -/
lemma pushedSince_suffix (key : String) (calls : List (ℕ × BufferCall δ)) :
    pushedSince key calls <:+ pushedEver key calls := by
  have hgeneral : ∀ (calls : List (ℕ × BufferCall δ)) (before msgs : List (BufferedMessage δ)),
      msgs <:+ before → calls.foldl (pushedAfter key) msgs <:+ before ++ pushedEver key calls := by
    intro calls
    induction calls with
    | nil =>
        intro before msgs hmsgs
        rw [pushedEver, List.filterMap_nil, List.append_nil]
        exact hmsgs
    | cons c calls ih =>
        intro before msgs hmsgs
        have hcons : before ++ pushedEver key (c :: calls) =
            (before ++ (pushOf key c).toList) ++ pushedEver key calls := by
          rw [pushedEver, List.filterMap_cons, List.append_assoc]
          cases pushOf key c with
          | none => rfl
          | some m => rfl
        rw [hcons, List.foldl_cons]
        refine ih _ _ ?_
        rcases pushedAfter_eq key msgs c with heq | heq
        · rw [heq]
          exact List.suffix_append_self_iff.mpr hmsgs
        · rw [heq]
          exact List.nil_suffix
  exact hgeneral calls [] [] List.nil_suffix

lemma seq_of_pushOf {key : String} {c : ℕ × BufferCall δ} {m : BufferedMessage δ}
    (h : pushOf key c = some m) : seqOf c = some m.seq := by
  obtain ⟨now, call⟩ := c
  cases call with
  | push key' seq data =>
      simp only [pushOf] at h
      split_ifs at h
      rw [← Option.some.inj h]
      rfl
  | _ => exact absurd h (by simp [pushOf])

/-- The messages of one key have increasing sequence numbers too. -/
lemma pairwise_pushedEver {calls : List (ℕ × BufferCall δ)} (h : IncreasingSeqs calls)
    (key : String) : (pushedEver key calls).Pairwise fun m m' => m.seq < m'.seq := by
  have hsub : ((pushedEver key calls).map BufferedMessage.seq).Sublist
      (calls.filterMap seqOf) := by
    clear h
    induction calls with
    | nil => exact List.Sublist.refl _
    | cons c calls ih =>
        rw [pushedEver, List.filterMap_cons, List.filterMap_cons]
        cases hpush : pushOf key c with
        | none =>
            cases seqOf c with
            | none => exact ih
            | some seq => exact ih.cons seq
        | some m =>
            rw [seq_of_pushOf hpush]
            exact ih.cons_cons m.seq
  exact List.pairwise_map.mp (h.sublist hsub)

/-- The number at the front of a buffer, in terms of what it holds. -/
lemma oldestSeq_eq (b : ReplayBuffer δ) (key : String) :
    b.oldestSeq key = (b.held key).head?.map BufferedMessage.seq := by
  rw [oldestSeq, held]
  cases b.buffers.lookup key with
  | none => rfl
  | some msgs => rfl

/-- Everything newer than `sinceSeq` is replayed, for a buffer that holds an
end part of what was pushed: either nothing newer was pushed, or the buffer is
not empty, and what it holds and what went before it have nothing newer that
is missing or expired. -/
lemma replaySince_eq_all_iff {b : ReplayBuffer δ} {now sinceSeq : ℕ} {key : String}
    {gone : List (BufferedMessage δ)} :
    b.replaySince now key sinceSeq =
        ((gone ++ b.held key).filter fun m => decide (sinceSeq < m.seq)).map
          BufferedMessage.data ↔
      (∀ m ∈ gone, m.seq ≤ sinceSeq) ∧
        ∀ m ∈ b.held key, sinceSeq < m.seq → now - m.createdAt < b.ttlMs := by
  have hsplit : (b.held key).filter (fun m => decide (sinceSeq < m.seq) &&
      decide (now - m.createdAt < b.ttlMs)) = ((b.held key).filter fun m =>
        decide (sinceSeq < m.seq)).filter fun m => decide (now - m.createdAt < b.ttlMs) := by
    rw [List.filter_filter]
    exact List.filter_congr fun m _ => Bool.and_comm _ _
  rw [replaySince_eq, hsplit, List.filter_append]
  constructor
  · intro heq
    have hlen := congrArg List.length heq
    rw [List.length_map, List.length_map, List.length_append] at hlen
    have hle := List.length_filter_le (fun m : BufferedMessage δ =>
      decide (now - m.createdAt < b.ttlMs)) ((b.held key).filter fun m => decide (sinceSeq < m.seq))
    constructor
    · intro m hm
      by_contra hnewer
      have hmem : m ∈ gone.filter fun m => decide (sinceSeq < m.seq) :=
        List.mem_filter.mpr ⟨hm, decide_eq_true (by omega)⟩
      have hpos := List.length_pos_of_mem hmem
      omega
    · intro m hm hnewer
      have hfull := List.length_filter_eq_length_iff.mp (show
        (((b.held key).filter fun m => decide (sinceSeq < m.seq)).filter fun m =>
          decide (now - m.createdAt < b.ttlMs)).length = _ by omega)
      exact of_decide_eq_true (hfull m (List.mem_filter.mpr ⟨hm, decide_eq_true hnewer⟩))
  · rintro ⟨hgone, hfresh⟩
    have hnone : gone.filter (fun m => decide (sinceSeq < m.seq)) = [] := by
      refine List.filter_eq_nil_iff.mpr fun m hm hnewer => ?_
      have := hgone m hm
      have := of_decide_eq_true hnewer
      omega
    have hall : ((b.held key).filter fun m => decide (sinceSeq < m.seq)).filter
        (fun m => decide (now - m.createdAt < b.ttlMs)) =
        (b.held key).filter fun m => decide (sinceSeq < m.seq) := by
      refine List.filter_eq_self.mpr fun m hm => ?_
      obtain ⟨hm, hnewer⟩ := List.mem_filter.mp hm
      exact decide_eq_true (hfresh m hm (of_decide_eq_true hnewer))
    rw [hnone, hall, List.nil_append]

end ReplayBuffer

/-! ### What a connect request is told -/

/-- The sender stored for an id after it was registered for polling is the one
of its pair. -/
lemma lookup_registerPoll (env : Env) (s : AppState) (isNewClient : Bool) (q : HttpQuery)
    (auth : Auth) :
    (registerPoll env (pollingPair s q.id).1 isNewClient (pollingPair s q.id).2.1 q
      auth).wsSenders.lookup q.id = some (pollingPair s q.id).2.1 := by
  have hsenders : (registerPoll env (pollingPair s q.id).1 isNewClient (pollingPair s q.id).2.1 q
      auth).wsSenders = (pollingPair s q.id).1.wsSenders := by
    have hreg := congrArg Registry.senders (registerPoll_frame env (pollingPair s q.id).1
      isNewClient (pollingPair s q.id).2.1 q auth).1
    cases isNewClient with
    | true => exact hreg
    | false => exact hreg
  rw [hsenders, pollingPair]
  cases hrx : s.pollingReceivers.lookup q.id with
  | none => exact Finmap.lookup_insert _
  | some rx =>
      cases htx : s.wsSenders.lookup q.id with
      | none => exact Finmap.lookup_insert _
      | some tx => exact htx

/-- At its end an admitted event stream or poll sends, on the sender stored for
its id, the gap error if there is one and the messages that are replayed. -/
lemma resumes_of_admitted {env : Env} {cfg : Config} {s s' : AppState} {r : Request}
    {q : HttpQuery} {K : Conn} (hr : r = .sse q ∨ r = .poll q)
    (hout : connect env cfg s r = .admitted K s') :
    ∃ (t : AppState) (c : ℕ), s'.wsSenders.lookup q.id = some c ∧
      s' = t.send c (gapFrames s q.id q.lastSeq ++ replayFrames env s q.id q.lastSeq) := by
  have hreplay := (connect_admitted hout).replayBuffer
  have hframes : gapFrames s' q.id q.lastSeq ++ replayFrames env s' q.id q.lastSeq =
      gapFrames s q.id q.lastSeq ++ replayFrames env s q.id q.lastSeq := by
    simp only [gapFrames, replayFrames, hreplay]
  rw [← hframes]
  rcases hr with rfl | rfl
  · rcases sseHandler_cases env cfg s q with ⟨_, heq⟩ | ⟨auth, t, -, -, heq⟩
    · exact absurd (heq.symm.trans hout) (by simp)
    have hopen : openStream env t q auth = .admitted K s' := heq.symm.trans hout
    rw [openStream] at hopen
    obtain ⟨-, rfl⟩ := Outcome.admitted.inj hopen
    refine ⟨_, _, ?_, rfl⟩
    have hsenders := congrArg Registry.senders (deliverQueuedMessages_frame env
      ((((((t.redisRegisterClient env q.id q.token).newChannel).insertClient env.now q.id q.token
        .Sse).setSender q.id t.nextChan).insertTenant q.id auth.tenantId).send t.nextChan
          [openFrame]) q.id t.nextChan).1
    exact (congrArg (Finmap.lookup q.id) hsenders).trans (Finmap.lookup_insert _)
  · rcases pollHandler_cases env cfg s q with ⟨_, heq⟩ | ⟨auth, t, _, -, -, rfl, heq⟩
    · exact absurd (heq.symm.trans hout) (by simp)
    obtain ⟨-, rfl⟩ := Outcome.admitted.inj (heq.symm.trans hout)
    exact ⟨_, _, lookup_registerPoll env t _ q auth, rfl⟩

/-- A gap error is sent, or everything newer than `n` that was ever pushed for
the id is replayed, in order. -/
def GapReported (env : Env) (s : AppState) (id : String) (n : ℕ)
    (pushed : List (BufferedMessage Frame)) : Prop :=
  (∃ oldest, .replayGap oldest n ∈ gapFrames s id (some n)) ∨
    replayFrames env s id (some n) =
      (pushed.filter fun m => decide (n < m.seq)).map BufferedMessage.data

/-- Nothing newer than `n` was pushed; or the buffer of the id is not empty,
and its front is newer than `n` or nothing newer has reached the TTL. -/
def GapVisible (now : ℕ) (b : ReplayBuffer Frame) (id : String) (n : ℕ)
    (pushed : List (BufferedMessage Frame)) : Prop :=
  (∀ m ∈ pushed, m.seq ≤ n) ∨
    ∃ oldest, b.oldestSeq id = some oldest ∧
      (n < oldest ∨ ∀ m ∈ pushed, n < m.seq → now - m.createdAt < b.ttlMs)

/-- The gap error is sent just when the front of the buffer is newer. -/
lemma replayGap_mem_iff {s : AppState} {id : String} {n : ℕ} :
    (∃ oldest, .replayGap oldest n ∈ gapFrames s id (some n)) ↔
      ∃ oldest, s.replayBuffer.oldestSeq id = some oldest ∧ n < oldest := by
  rw [gapFrames.eq_def]
  cases s.replayBuffer.oldestSeq id with
  | none => simp
  | some oldest =>
      dsimp only
      by_cases hn : n < oldest
      · simp [hn]
      · simp [hn]

/-- The two agree for a buffer that holds an end part of what was pushed with
increasing sequence numbers. -/
lemma gapReported_iff {env : Env} {s : AppState} {id : String} {n : ℕ}
    {pushed : List (BufferedMessage Frame)} (hheld : s.replayBuffer.held id <:+ pushed)
    (hseq : pushed.Pairwise fun m m' => m.seq < m'.seq) :
    GapReported env s id n pushed ↔ GapVisible env.now s.replayBuffer id n pushed := by
  obtain ⟨gone, rfl⟩ := hheld
  have hreplayed : replayFrames env s id (some n) = ((gone ++ s.replayBuffer.held id).filter
        fun m => decide (n < m.seq)).map BufferedMessage.data ↔
      (∀ m ∈ gone, m.seq ≤ n) ∧ ∀ m ∈ s.replayBuffer.held id, n < m.seq →
        env.now - m.createdAt < s.replayBuffer.ttlMs := ReplayBuffer.replaySince_eq_all_iff
  rw [GapReported, GapVisible, replayGap_mem_iff, hreplayed]
  constructor
  · rintro (⟨oldest, hfront, hn⟩ | ⟨hgone, hfresh⟩)
    · exact Or.inr ⟨oldest, hfront, Or.inl hn⟩
    · have hnewer : ∀ m ∈ gone ++ s.replayBuffer.held id, n < m.seq →
          m ∈ s.replayBuffer.held id := by
        intro m hm hmn
        rcases List.mem_append.mp hm with hm | hm
        · have := hgone m hm
          omega
        · exact hm
      rw [ReplayBuffer.oldestSeq_eq]
      cases hheld : s.replayBuffer.held id with
      | nil =>
          refine Or.inl fun m hm => ?_
          by_contra hmn
          rw [← hheld] at hm
          have hmem := hnewer m hm (by omega)
          rw [hheld] at hmem
          exact absurd hmem (by simp)
      | cons front rest =>
          refine Or.inr ⟨front.seq, rfl, Or.inr fun m hm hmn => ?_⟩
          rw [← hheld] at hm
          exact hfresh m (hnewer m hm hmn) hmn
  · rintro (hnone | ⟨oldest, hfront, hn | hfresh⟩)
    · refine Or.inr ⟨fun m hm => hnone m (List.mem_append_left _ hm), fun m hm hmn => ?_⟩
      have := hnone m (List.mem_append_right _ hm)
      omega
    · exact Or.inl ⟨oldest, hfront, hn⟩
    · by_cases hn : n < oldest
      · exact Or.inl ⟨oldest, hfront, hn⟩
      · refine Or.inr ⟨fun m hm => ?_, fun m hm => hfresh m (List.mem_append_right _ hm)⟩
        -- what went before the front has smaller numbers than the front
        rw [ReplayBuffer.oldestSeq_eq] at hfront
        obtain ⟨front, hhead, rfl⟩ := Option.map_eq_some_iff.mp hfront
        have hlt := (List.pairwise_append.mp hseq).2.2 m hm front (List.mem_of_head? hhead)
        omega

/-- For every history of the replay buffer with increasing sequence numbers and
a non-decreasing clock, and every event stream or poll that is admitted with a
last sequence number: the handler sends, on the sender stored for its id, a gap
error or everything newer that was ever pushed for the id, just when the gap is
visible. -/
theorem gap_reported_iff {calls : List (ℕ × BufferCall Frame)} {maxSize ttlMs n : ℕ} {env : Env}
    {cfg : Config} {s s' : AppState} {r : Request} {q : HttpQuery} {K : Conn}
    (hseq : ReplayBuffer.IncreasingSeqs calls)
    (hclock : (calls.map Prod.fst ++ [env.now]).Pairwise (· ≤ ·))
    (hbuffer : s.replayBuffer = (ReplayBuffer.new maxSize ttlMs).performAll calls)
    (hr : r = .sse q ∨ r = .poll q) (hlast : q.lastSeq = some n)
    (hout : connect env cfg s r = .admitted K s') :
    ∃ (t : AppState) (c : ℕ), s'.wsSenders.lookup q.id = some c ∧
      s' = t.send c (gapFrames s q.id (some n) ++ replayFrames env s q.id (some n)) ∧
      (GapReported env s q.id n (ReplayBuffer.pushedEver q.id calls) ↔
        GapVisible env.now s.replayBuffer q.id n (ReplayBuffer.pushedEver q.id calls)) := by
  obtain ⟨t, c, hc, hs'⟩ := resumes_of_admitted hr hout
  rw [hlast] at hs'
  refine ⟨t, c, hc, hs', gapReported_iff ?_ (ReplayBuffer.pairwise_pushedEver hseq q.id)⟩
  rw [hbuffer]
  exact (ReplayBuffer.shows_performAll hclock q.id).suffix.trans
    (ReplayBuffer.pushedSince_suffix q.id calls)

/-- The server after a history of its replay buffer, with no client. -/
def afterHistory (calls : List (ℕ × BufferCall Frame)) : AppState :=
  { AppState.new {} ⟨∅, ∅, ∅, ∅⟩ with
    replayBuffer := (ReplayBuffer.new 1000 300000).performAll calls }

/-- `bob` connects again and has seen everything up to `n`. -/
def bobSince (n : ℕ) : HttpQuery :=
  { id := "bob", token := "tok", key := some "dendri", lastSeq := some n }

/-- Two messages for `bob`, and his disconnect. -/
def bobRemoved : List (ℕ × BufferCall Frame) :=
  [(0, .push "bob" 1 (.relay { type_ := .DATA, seq := some 1 })),
    (1, .push "bob" 2 (.relay { type_ := .DATA, seq := some 2 })), (2, .removeClient "bob")]

lemma increasingSeqs_bobRemoved : ReplayBuffer.IncreasingSeqs bobRemoved := by
  rw [ReplayBuffer.IncreasingSeqs]
  decide

lemma Outcome.exists_of_isAdmitted {o : Outcome} (h : o.isAdmitted = true) :
    ∃ K s', o = .admitted K s' := by
  cases o with
  | rejected why s => exact absurd h (by simp [Outcome.isAdmitted])
  | admitted K s => exact ⟨K, s, rfl⟩

/-- `bob` has seen the second message before he disconnected: there is nothing
to report. -/
theorem gap_reported_bob :
    GapReported (Env.quiet 3) (afterHistory bobRemoved) "bob" 2
      (ReplayBuffer.pushedEver "bob" bobRemoved) := by
  have hadmitted : (connect (Env.quiet 3) {} (afterHistory bobRemoved)
      (.sse (bobSince 2))).isAdmitted = true := by decide +kernel
  obtain ⟨K, s', hout⟩ := Outcome.exists_of_isAdmitted hadmitted
  obtain ⟨t, c, -, -, hiff⟩ := gap_reported_iff increasingSeqs_bobRemoved (by decide) rfl
    (Or.inl rfl) rfl hout
  exact hiff.mpr (Or.inl (by decide))

/-- Gaps are not always reported: after a disconnect the buffer is gone, and
`bob`, who has seen nothing, gets neither a message nor an error. -/
theorem removed_buffer_hides_gap :
    ¬∀ (calls : List (ℕ × BufferCall Frame)) (maxSize ttlMs n : ℕ) (env : Env) (cfg : Config)
        (s s' : AppState) (r : Request) (q : HttpQuery) (K : Conn),
      ReplayBuffer.IncreasingSeqs calls →
      (calls.map Prod.fst ++ [env.now]).Pairwise (· ≤ ·) →
      s.replayBuffer = (ReplayBuffer.new maxSize ttlMs).performAll calls →
      r = .sse q ∨ r = .poll q → q.lastSeq = some n → connect env cfg s r = .admitted K s' →
      GapReported env s q.id n (ReplayBuffer.pushedEver q.id calls) := by
  intro hall
  have hadmitted : (connect (Env.quiet 3) {} (afterHistory bobRemoved)
      (.sse (bobSince 0))).isAdmitted = true := by decide +kernel
  obtain ⟨K, s', hout⟩ := Outcome.exists_of_isAdmitted hadmitted
  have hreported := hall bobRemoved 1000 300000 0 _ _ _ _ _ _ K increasingSeqs_bobRemoved
    (by decide) rfl (Or.inl rfl) rfl hout
  rcases hreported with hgap | heq
  · obtain ⟨oldest, hfront, -⟩ := replayGap_mem_iff.mp hgap
    have hempty : (afterHistory bobRemoved).replayBuffer.oldestSeq "bob" = none := by
      decide +kernel
    exact absurd (hempty.symm.trans hfront) (by simp)
  · have hlen := congrArg List.length heq
    exact absurd hlen (by decide +kernel)

end Dendri
