import Dendri.Lib.Transition
import Dendri.Lib.Interleave
import Dendri.Properties.ReplayWindow

/-!
The background eviction of the replay buffer, one access after the other.
`evict_expired` drops the expired messages of a key in one access, and removes
the key in a second one if nothing was left; a push to the key can come in
between.

* `SweepPhase`, `evictAccess`: the accesses of `evict_expired`; alone they are
  `evictExpired` (`alone_evict`);
* `Sweep`, `sweepStep`: the buffer while the pass goes on and other calls come
  in, with what was pushed and the latest time that a call has read;
* `AllReturned`: every message that is younger than the TTL and among the last
  `max_size` pushes to its key is returned by `replay_since`;
* `live_messages_returned_iff`: all states of a run are so just when the pass
  removes no key that got such a message since it was found empty.
-/

namespace Dendri

open Transition Interleave ReplayBuffer

variable {δ : Type}

/-! ### The accesses of an eviction pass -/

/-- How far an eviction pass has come; `now` is the time it has read at its
start. -/
inductive SweepPhase where
  | idle
  | sweeping (now : ℕ) (rest : List String)
  /-- The buffer of `key` was found empty. -/
  | emptied (now : ℕ) (key : String) (rest : List String)

/-- One access of `evict_expired` to the map. -/
def evictAccess (now : ℕ) (order : SetOrder String) (b : ReplayBuffer δ) :
    SweepPhase → ReplayBuffer δ × SweepPhase
  | .idle => (b, .sweeping now (order.toList b.buffers.keys))
  | .sweeping _ [] => (b, .idle)
  | .sweeping start (key :: rest) =>
      match b.buffers.lookup key with
      | none => (b, .sweeping start rest)
      | some msgs =>
          let msgs := dropExpired b.ttlMs start msgs
          ({ b with buffers := b.buffers.insert key msgs },
            if msgs.isEmpty then .emptied start key rest else .sweeping start rest)
  | .emptied start key rest => ({ b with buffers := b.buffers.erase key }, .sweeping start rest)

/-- The keys that are left, without interruption. -/
lemma alone_sweeping (now start : ℕ) (order : SetOrder String) (keys : List String)
    (b : ReplayBuffer δ) :
    Alone (fun b p => some (evictAccess now order b p)) (b, .sweeping start keys)
      (keys.foldl (evictKey start) b, .idle) := by
  induction keys generalizing b with
  | nil => exact .head rfl (.refl _)
  | cons key keys ih =>
      rw [List.foldl_cons]
      refine Alone.trans ?_ (ih (evictKey start b key))
      rw [evictKey]
      cases hb : b.buffers.lookup key with
      | none =>
          have hskip : evictAccess now order b (.sweeping start (key :: keys)) =
              (b, .sweeping start keys) := by simp only [evictAccess, hb]
          exact .head (congrArg some hskip) (.refl _)
      | some msgs =>
          dsimp only
          by_cases hempty : (dropExpired b.ttlMs start msgs).isEmpty = true
          · have hdrop : evictAccess now order b (.sweeping start (key :: keys)) =
                ({ b with buffers := b.buffers.insert key (dropExpired b.ttlMs start msgs) },
                  .emptied start key keys) := by simp only [evictAccess, hb, if_pos hempty]
            have herase : (b.buffers.insert key (dropExpired b.ttlMs start msgs)).erase key =
                b.buffers.erase key := FinMap.erase_insert _ _ _
            rw [if_pos hempty, ← herase]
            exact .head (congrArg some hdrop) (.head rfl (.refl _))
          · have hdrop : evictAccess now order b (.sweeping start (key :: keys)) =
                ({ b with buffers := b.buffers.insert key (dropExpired b.ttlMs start msgs) },
                  .sweeping start keys) := by simp only [evictAccess, hb, if_neg hempty]
            rw [if_neg hempty]
            exact .head (congrArg some hdrop) (.refl _)

/-- A pass that is not interrupted is `evictExpired`. -/
theorem alone_evict (now : ℕ) (order : SetOrder String) (b : ReplayBuffer δ) :
    Alone (fun b p => some (evictAccess now order b p)) (b, .idle)
      (b.evictExpired order now, .idle) :=
  .head rfl (alone_sweeping now now order _ b)

/-! ### A pass and other calls -/

/-- The buffer, the messages pushed to each key since its last removal by
`remove_client`, the latest time a call has read, and the eviction pass. -/
structure Sweep (δ : Type) where
  buffer : ReplayBuffer δ
  pushed : String → List (BufferedMessage δ)
  clock : ℕ
  pass : SweepPhase

/-- An empty buffer. -/
def Sweep.init (maxSize ttlMs : ℕ) : Sweep δ :=
  ⟨ReplayBuffer.new maxSize ttlMs, fun _ => [], 0, .idle⟩

/-- A call with the time it has read. A push is one access, and so are the other
calls, except for `evict_expired`, of which the event is the next access. -/
def sweepStep (w : Sweep δ) : ℕ × BufferCall δ → Option (Sweep δ)
  | (now, .evictExpired order) =>
      some
        { w with
          buffer := (evictAccess now order w.buffer w.pass).1
          pass := (evictAccess now order w.buffer w.pass).2
          clock := max w.clock now }
  | c =>
      some
        { w with
          buffer := w.buffer.perform c
          pushed := fun key => pushedAfter key (w.pushed key) c
          clock := max w.clock c.1 }

/-- From the latest time on, `replay_since` returns every message that is younger
than the TTL and among the last `max_size` pushes to its key. -/
def AllReturned (w : Sweep δ) : Prop :=
  ∀ key now, w.clock ≤ now → ∀ m ∈ (w.pushed key).rtake w.buffer.maxSize,
    now - m.createdAt < w.buffer.ttlMs →
    ∀ sinceSeq < m.seq, m.data ∈ w.buffer.replaySince now key sinceSeq

/-- A message that no `replay_since` has to return: it has expired, or no
sequence number is below its own. -/
def Irrelevant (ttlMs now : ℕ) (m : BufferedMessage δ) : Prop := Expired ttlMs now m ∨ m.seq = 0

/-- If the step removes a key that the pass has found empty, then it holds no
message that `replay_since` has to return. -/
def RemovesDead (w : Sweep δ) (e : ℕ × BufferCall δ) : Prop :=
  ∀ order start key rest, e.2 = .evictExpired order → w.pass = .emptied start key rest →
    ∀ m ∈ w.buffer.held key, Irrelevant w.buffer.ttlMs (max w.clock e.1) m

/-- The buffer of each key shows the window of the last messages pushed to it,
and the pass has not started after the latest time. -/
structure SweepShows (w : Sweep δ) : Prop where
  size : 1 ≤ w.buffer.maxSize
  window : ∀ key, Window.Shows (max w.buffer.maxSize 1) (Irrelevant w.buffer.ttlMs w.clock)
    (w.pushed key) (w.buffer.held key)
  started : ∀ start rest, w.pass = .sweeping start rest → start ≤ w.clock
  emptied : ∀ start key rest, w.pass = .emptied start key rest → start ≤ w.clock

/-! ### What the accesses do to the window -/

lemma Irrelevant.mono {ttlMs now later : ℕ} {m : BufferedMessage δ} (h : Irrelevant ttlMs now m)
    (hle : now ≤ later) : Irrelevant ttlMs later m := by
  rcases h with h | h
  · refine Or.inl ?_
    simp only [Expired] at h ⊢
    omega
  · exact Or.inr h

section Window

variable {b : ReplayBuffer δ} {key : String} {msgs : List (BufferedMessage δ)} {n clock : ℕ}

/-- Dropping what has expired at an earlier time. -/
lemma shows_drop {start : ℕ} (h : Window.Shows n (Irrelevant b.ttlMs clock) msgs (b.held key))
    (hle : start ≤ clock) :
    Window.Shows n (Irrelevant b.ttlMs clock) msgs (dropExpired b.ttlMs start (b.held key)) := by
  refine h.dropWhile fun m hm => ?_
  have hold : b.ttlMs ≤ start - m.createdAt := decide_eq_true_iff.mp hm
  exact Irrelevant.mono (Or.inl hold) hle

/-- The pass drops what has expired from the messages of one key. -/
lemma shows_insert {start : ℕ} {k : String} {kept : List (BufferedMessage δ)}
    (hk : b.buffers.lookup k = some kept)
    (h : Window.Shows n (Irrelevant b.ttlMs clock) msgs (b.held key)) (hle : start ≤ clock) :
    Window.Shows n (Irrelevant b.ttlMs clock) msgs
      (held { b with buffers := b.buffers.insert k (dropExpired b.ttlMs start kept) } key) := by
  rw [held, FinMap.lookup_insert_ite]
  by_cases hkey : key = k
  · have hkept : b.held key = kept := by rw [held, hkey, hk, Option.getD_some]
    rw [if_pos hkey, Option.getD_some, ← hkept]
    exact shows_drop h hle
  · rw [if_neg hkey]
    exact h

/-- The pass removes a key whose messages are all dead. -/
lemma shows_erase {k : String}
    (h : Window.Shows n (Irrelevant b.ttlMs clock) msgs (b.held key))
    (hdead : key = k → ∀ m ∈ b.held key, Irrelevant b.ttlMs clock m) :
    Window.Shows n (Irrelevant b.ttlMs clock) msgs
      (held { b with buffers := b.buffers.erase k } key) := by
  rw [held, FinMap.lookup_erase_ite]
  by_cases hkey : key = k
  · rw [if_pos hkey, Option.getD_none]
    exact h.clear (hdead hkey)
  · rw [if_neg hkey]
    exact h

/-- A call other than `evict_expired`. The time it has read need not be the
latest. -/
lemma shows_call {c : ℕ × BufferCall δ} (hcall : ∀ order, c.2 ≠ .evictExpired order)
    (h : Window.Shows (max b.maxSize 1) (Irrelevant b.ttlMs clock) msgs (b.held key))
    (hle : c.1 ≤ clock) :
    Window.Shows (max b.maxSize 1) (Irrelevant b.ttlMs clock) (pushedAfter key msgs c)
      ((b.perform c).held key) := by
  obtain ⟨now, call⟩ := c
  cases call with
  | push key' seq data =>
      change Window.Shows _ _ (if key' = key then _ else _) ((b.push now key' seq data).held key)
      rw [held_push]
      by_cases hk : key' = key
      · subst hk
        rw [if_pos rfl, if_pos rfl]
        exact (shows_drop h hle).push _
      · rw [if_neg hk, if_neg (Ne.symm hk)]
        exact h
  | replaySince key' sinceSeq => exact h
  | evictExpired order => exact absurd rfl (hcall order)
  | removeClient key' =>
      change Window.Shows _ _ (if key' = key then _ else _) ((b.removeClient key').held key)
      rw [held_removeClient]
      by_cases hk : key' = key
      · rw [if_pos hk, if_pos hk.symm]
        exact Window.Shows.nil _ _
      · rw [if_neg hk, if_neg (Ne.symm hk)]
        exact h

end Window

variable {w w' : Sweep δ}

/-- What shows the window returns all of it that is relevant. -/
lemma SweepShows.allReturned (h : SweepShows w) : AllReturned w := by
  intro key now hnow m hm hlive sinceSeq hseq
  have hmax : max w.buffer.maxSize 1 = w.buffer.maxSize := Nat.max_eq_left h.size
  have hwindow := h.window key
  rw [hmax] at hwindow
  have hfilter := hwindow.filter_eq (p := fun m =>
    decide (sinceSeq < m.seq) && decide (now - m.createdAt < w.buffer.ttlMs)) fun m hdead => by
      rcases hdead with hold | hzero
      · have hlate : ¬now - m.createdAt < w.buffer.ttlMs := by
          simp only [Expired] at hold
          omega
        rw [decide_eq_false hlate, Bool.and_false]
      · have hnone : ¬sinceSeq < m.seq := by omega
        rw [decide_eq_false hnone, Bool.false_and]
  rw [replaySince_eq, hfilter]
  refine List.mem_map_of_mem (List.mem_filter.mpr ⟨hm, ?_⟩)
  rw [decide_eq_true hseq, decide_eq_true hlive, Bool.and_true]

/-- The window at a later time. -/
lemma SweepShows.later (h : SweepShows w) (now : ℕ) (key : String) :
    Window.Shows (max w.buffer.maxSize 1) (Irrelevant w.buffer.ttlMs (max w.clock now))
      (w.pushed key) (w.buffer.held key) :=
  (h.window key).mono fun _ hm => hm.mono (le_max_left _ _)

/-- An access of the pass keeps the window if it removes only what is dead. -/
lemma SweepShows.evict (h : SweepShows w) {now : ℕ} {order : SetOrder String}
    (hstep : sweepStep w (now, .evictExpired order) = some w')
    (hdead : RemovesDead w (now, .evictExpired order)) : SweepShows w' := by
  obtain ⟨b, pushed, clock, pass⟩ := w
  rw [sweepStep] at hstep
  dsimp only at hstep
  have hnow : now ≤ max clock now := le_max_right _ _
  have hclock : clock ≤ max clock now := le_max_left _ _
  have hlater := h.later now
  dsimp only at hlater
  cases pass with
  | idle =>
      rw [← Option.some.inj hstep]
      refine ⟨h.size, hlater, fun start rest hp => ?_, fun start key rest hp => ?_⟩
      · rw [← (SweepPhase.sweeping.inj hp).1]
        exact hnow
      · exact absurd hp (by simp [evictAccess])
  | sweeping start keys =>
      have hstart : start ≤ max clock now := (h.started start keys rfl).trans hclock
      cases keys with
      | nil =>
          rw [← Option.some.inj hstep]
          exact ⟨h.size, hlater, by simp [evictAccess], by simp [evictAccess]⟩
      | cons key rest =>
          cases hb : b.buffers.lookup key with
          | none =>
              have hskip : evictAccess now order b (.sweeping start (key :: rest)) =
                  (b, .sweeping start rest) := by simp only [evictAccess, hb]
              rw [hskip] at hstep
              rw [← Option.some.inj hstep]
              refine ⟨h.size, hlater, fun start' rest' hp => ?_, by simp⟩
              rw [← (SweepPhase.sweeping.inj hp).1]
              exact hstart
          | some msgs =>
              have hdrop : evictAccess now order b (.sweeping start (key :: rest)) =
                  ({ b with buffers := b.buffers.insert key (dropExpired b.ttlMs start msgs) },
                    if (dropExpired b.ttlMs start msgs).isEmpty then .emptied start key rest
                    else .sweeping start rest) := by simp only [evictAccess, hb]
              rw [hdrop] at hstep
              rw [← Option.some.inj hstep]
              refine ⟨h.size, fun k => ?_, fun start' rest' hp => ?_,
                fun start' key' rest' hp => ?_⟩
              · exact shows_insert hb (hlater k) hstart
              · dsimp only at hp
                split_ifs at hp
                rw [← (SweepPhase.sweeping.inj hp).1]
                exact hstart
              · dsimp only at hp
                split_ifs at hp
                rw [← (SweepPhase.emptied.inj hp).1]
                exact hstart
  | emptied start key rest =>
      have hstart : start ≤ max clock now := (h.emptied start key rest rfl).trans hclock
      rw [← Option.some.inj hstep]
      refine ⟨h.size, fun k => ?_, fun start' rest' hp => ?_, by simp [evictAccess]⟩
      · refine shows_erase (hlater k) fun hk m hm => ?_
        rw [hk] at hm
        exact hdead order start key rest rfl rfl m hm
      · rw [← (SweepPhase.sweeping.inj hp).1]
        exact hstart

/-- Any other call keeps the window. -/
lemma SweepShows.call (h : SweepShows w) {c : ℕ × BufferCall δ}
    (hcall : ∀ order, c.2 ≠ .evictExpired order) (hstep : sweepStep w c = some w') :
    SweepShows w' := by
  have hw : w' =
      { w with
        buffer := w.buffer.perform c
        pushed := fun key => pushedAfter key (w.pushed key) c
        clock := max w.clock c.1 } := by
    obtain ⟨now, call⟩ := c
    cases call with
    | evictExpired order => exact absurd rfl (hcall order)
    | _ => exact (Option.some.inj hstep).symm
  obtain ⟨hsize, httl⟩ := limits_perform w.buffer c
  have hclock : w.clock ≤ max w.clock c.1 := le_max_left _ _
  rw [hw]
  refine ⟨?_, fun key => ?_, fun start rest hp => (h.started start rest hp).trans hclock,
    fun start key rest hp => (h.emptied start key rest hp).trans hclock⟩
  · dsimp only
    rw [hsize]
    exact h.size
  · dsimp only
    rw [hsize, httl]
    exact shows_call hcall (h.later c.1 key) (le_max_right _ _)

lemma SweepShows.step (h : SweepShows w) {e : ℕ × BufferCall δ} (hstep : sweepStep w e = some w')
    (hdead : RemovesDead w e) : SweepShows w' := by
  obtain ⟨now, call⟩ := e
  cases call with
  | evictExpired order => exact h.evict hstep hdead
  | push key seq data => exact h.call (by simp) hstep
  | replaySince key sinceSeq => exact h.call (by simp) hstep
  | removeClient key => exact h.call (by simp) hstep

/-- A removal that takes a message which should be returned is seen at once. -/
lemma SweepShows.removesDead (h : SweepShows w) {e : ℕ × BufferCall δ}
    (hstep : sweepStep w e = some w') (hreturned : AllReturned w') : RemovesDead w e := by
  obtain ⟨now, call⟩ := e
  obtain ⟨b, pushed, clock, pass⟩ := w
  intro order start key rest hcall hpass m hm
  dsimp only at hcall hpass hm ⊢
  subst hcall hpass
  rw [← Option.some.inj hstep] at hreturned
  by_contra hlive
  rw [Irrelevant, not_or] at hlive
  have hmax : max b.maxSize 1 = b.maxSize := Nat.max_eq_left h.size
  have hwindow := (h.window key).mem_window hm
  dsimp only at hwindow
  rw [hmax] at hwindow
  have hyoung : max clock now - m.createdAt < b.ttlMs := Nat.lt_of_not_le hlive.1
  have hdata := hreturned key (max clock now) le_rfl m hwindow hyoung 0 (Nat.pos_of_ne_zero hlive.2)
  rw [replaySince_eq, held] at hdata
  dsimp only [evictAccess] at hdata
  rw [Finmap.lookup_erase, Option.getD_none] at hdata
  exact absurd hdata (by simp)

lemma sweepShows_init {maxSize ttlMs : ℕ} (hsize : 1 ≤ maxSize) :
    SweepShows (Sweep.init maxSize ttlMs : Sweep δ) where
  size := hsize
  window _ := Window.Shows.nil _ _
  started := by simp [Sweep.init]
  emptied := by simp [Sweep.init]

/-- In all states of an interleaving of eviction passes with other calls
`replay_since` returns every message younger than the TTL and among the last
`max_size` pushes to its key, just when no pass removes a key that got such a
message after it was found empty. -/
theorem live_messages_returned_iff {maxSize ttlMs : ℕ} (hsize : 1 ≤ maxSize)
    (es : List (ℕ × BufferCall δ)) :
    AllSteps sweepStep (fun _ _ w' => AllReturned w') (Sweep.init maxSize ttlMs) es ↔
      AllSteps sweepStep (fun w e _ => RemovesDead w e) (Sweep.init maxSize ttlMs) es := by
  refine AllSteps.iff_of_invariant (I := SweepShows) (G := AllReturned) ?_ ?_
    (sweepShows_init hsize)
  · intro w e w' h hstep
    exact ⟨h.removesDead hstep, fun hdead => (h.step hstep hdead).allReturned⟩
  · intro w e w' h hstep hreturned
    exact h.step hstep (h.removesDead hstep hreturned)

/-- The key that the pass is about to remove. -/
def SweepPhase.emptied? : SweepPhase → Option String
  | .emptied _ key _ => some key
  | _ => none

/-- A message is buffered and expires, a pass finds the buffer empty and removes
it, and the next message is buffered. -/
def pushAfterEviction : List (ℕ × BufferCall String) :=
  [(0, .push "bob" 1 "a"), (20, .evictExpired (SetOrder.sorted String)),
    (20, .evictExpired (SetOrder.sorted String)), (20, .evictExpired (SetOrder.sorted String)),
    (21, .push "bob" 2 "b")]

theorem live_messages_returned_bob :
    AllSteps sweepStep (fun _ _ w' => AllReturned w') (Sweep.init 5 10) pushAfterEviction := by
  rw [live_messages_returned_iff (by decide)]
  have hempty : AllSteps sweepStep (fun w _ _ => ∀ key ∈ w.pass.emptied?, w.buffer.held key = [])
      (Sweep.init 5 10) pushAfterEviction := by decide +kernel
  refine AllSteps.of_invariant (I := fun _ => True) (fun w e _ _ _ hP => ⟨trivial, ?_⟩) trivial
    hempty
  intro order start key rest _ hpass m hm
  rw [hP key (by rw [hpass]; rfl)] at hm
  exact absurd hm List.not_mem_nil

/-- The next message is pushed before the buffer is removed, and lost. -/
theorem eviction_drops_live_message :
    ¬∀ (maxSize ttlMs : ℕ) (es : List (ℕ × BufferCall String)) (w : Sweep String), 1 ≤ maxSize →
      run sweepStep (Sweep.init maxSize ttlMs) es = some w → AllReturned w := by
  intro hall
  have heval : (run sweepStep (Sweep.init 5 10)
      [(0, .push "bob" 1 "a"), (20, .evictExpired (SetOrder.sorted String)),
        (20, .evictExpired (SetOrder.sorted String)), (21, .push "bob" 2 "b"),
        (21, .evictExpired (SetOrder.sorted String))]).map
      (fun w => (w.pushed "bob", w.clock, w.buffer.replaySince 21 "bob" 1, w.buffer.maxSize,
        w.buffer.ttlMs)) =
      some ([⟨1, "a", 0⟩, ⟨2, "b", 21⟩], 21, [], 5, 10) := by decide +kernel
  obtain ⟨w, hrun, hw⟩ := Option.map_eq_some_iff.mp heval
  simp only [Prod.mk.injEq] at hw
  obtain ⟨hpushed, hclock, hreplay, hsize, httl⟩ := hw
  have hreturned := hall 5 10 _ w (by decide) hrun "bob" 21 (by omega) ⟨2, "b", 21⟩
    (by rw [hpushed, hsize]; decide) (by rw [httl]; decide) 1 (by decide)
  rw [hreplay] at hreturned
  exact absurd hreturned (by simp)

end Dendri
