import Dendri.Lib.Window
import Dendri.Server.ReplayBuffer
import Mathlib.Data.String.Basic

/-!
The replay buffer as a window on what was pushed.

* `BufferCall`, `ReplayBuffer.perform`: the calls of the buffer's methods, and
  a history of them as a list of calls with their times;
* `pushedSince`: the messages pushed to a key since it was last removed;
* `shows_performAll`: after every history with a non-decreasing clock, the
  buffer of each key shows the window of the last messages pushed to it;
* `replay_since_eq_window`: hence `replay_since` reads the window, whatever was
  evicted in between.
-/

namespace Dendri

/-- A call of one of the methods of `ReplayBuffer`. -/
inductive BufferCall (δ : Type) where
  | push (key : String) (seq : ℕ) (data : δ)
  | replaySince (key : String) (sinceSeq : ℕ)
  | evictExpired (order : SetOrder String)
  | removeClient (key : String)

/-- The call is a push to `key` or its removal. -/
def BufferCall.concerns {δ : Type} (key : String) : BufferCall δ → Bool
  | .push key' _ _ | .removeClient key' => decide (key' = key)
  | _ => false

namespace ReplayBuffer

variable {δ : Type}

/-- `ReplayBuffer::new`. -/
def new (maxSize ttlMs : ℕ) : ReplayBuffer δ := ⟨∅, maxSize, ttlMs⟩

/-- The buffer after a call at a time. -/
def perform (b : ReplayBuffer δ) : ℕ × BufferCall δ → ReplayBuffer δ
  | (now, .push key seq data) => b.push now key seq data
  | (_, .replaySince _ _) => b
  | (now, .evictExpired order) => b.evictExpired order now
  | (_, .removeClient key) => b.removeClient key

/-- The buffer after a history of calls. -/
def performAll (b : ReplayBuffer δ) (calls : List (ℕ × BufferCall δ)) : ReplayBuffer δ :=
  calls.foldl perform b

/-- The messages buffered under a key. -/
def held (b : ReplayBuffer δ) (key : String) : List (BufferedMessage δ) :=
  (b.buffers.lookup key).getD []

/-! ### What was pushed -/

/-- The messages pushed to `key` since its last removal, after one more
call. -/
def pushedAfter (key : String) (msgs : List (BufferedMessage δ)) :
    ℕ × BufferCall δ → List (BufferedMessage δ)
  | (now, .push key' seq data) => if key' = key then msgs ++ [⟨seq, data, now⟩] else msgs
  | (_, .removeClient key') => if key' = key then [] else msgs
  | _ => msgs

/-- The messages a history pushed to `key` since its last removal. -/
def pushedSince (key : String) (calls : List (ℕ × BufferCall δ)) : List (BufferedMessage δ) :=
  calls.foldl (pushedAfter key) []

/-- The messages pushed to a key depend on the calls that concern it only. -/
lemma pushedSince_filter (key : String) (calls : List (ℕ × BufferCall δ)) :
    pushedSince key (calls.filter fun c => BufferCall.concerns key c.2) =
      pushedSince key calls := by
  have hother : ∀ (msgs : List (BufferedMessage δ)) (c : ℕ × BufferCall δ),
      BufferCall.concerns key c.2 = false → pushedAfter key msgs c = msgs := by
    rintro msgs ⟨now, call⟩ hc
    cases call with
    | push key' seq data => exact if_neg (of_decide_eq_false hc)
    | removeClient key' => exact if_neg (of_decide_eq_false hc)
    | replaySince key' sinceSeq => rfl
    | evictExpired order => rfl
  rw [pushedSince, pushedSince]
  generalize ([] : List (BufferedMessage δ)) = msgs
  induction calls generalizing msgs with
  | nil => rfl
  | cons c calls ih =>
      rw [List.filter_cons]
      split_ifs with hc
      · rw [List.foldl_cons, List.foldl_cons, ih]
      · rw [List.foldl_cons, hother msgs c (Bool.eq_false_of_not_eq_true hc), ih]

/-- The window `replay_since` is meant to show: of the last messages pushed
since the last removal, those with a larger sequence number that are younger
than the TTL. -/
def replayWindow (maxSize ttlMs : ℕ) (calls : List (ℕ × BufferCall δ)) (now : ℕ) (key : String)
    (sinceSeq : ℕ) : List δ :=
  (((pushedSince key calls).rtake (max maxSize 1)).filter fun m =>
    decide (sinceSeq < m.seq) && decide (now - m.createdAt < ttlMs)).map BufferedMessage.data

/-! ### The calls, key by key -/

variable (b : ReplayBuffer δ) (now : ℕ)

lemma replaySince_eq (key : String) (sinceSeq : ℕ) :
    b.replaySince now key sinceSeq = ((b.held key).filter fun m =>
      decide (sinceSeq < m.seq) && decide (now - m.createdAt < b.ttlMs)).map
        BufferedMessage.data := by
  rw [replaySince, held]
  cases b.buffers.lookup key with
  | none => rfl
  | some msgs => rfl

lemma held_push (key k : String) (seq : ℕ) (data : δ) :
    (b.push now key seq data).held k =
      if k = key then
        (if b.maxSize ≤ (dropExpired b.ttlMs now (b.held key)).length then
          (dropExpired b.ttlMs now (b.held key)).tail
        else dropExpired b.ttlMs now (b.held key)) ++ [⟨seq, data, now⟩]
      else b.held k := by
  rw [held, push, FinMap.lookup_insert_ite]
  by_cases hk : k = key
  · rw [if_pos hk, if_pos hk]
    rfl
  · rw [if_neg hk, if_neg hk]
    rfl

lemma held_removeClient (key k : String) :
    (b.removeClient key).held k = if k = key then [] else b.held k := by
  rw [held, removeClient, FinMap.lookup_erase_ite]
  split_ifs <;> rfl

lemma held_evictKey (key k : String) :
    (evictKey now b key).held k =
      if k = key then dropExpired b.ttlMs now (b.held key) else b.held k := by
  rw [evictKey]
  cases hb : b.buffers.lookup key with
  | none =>
      have hempty : b.held key = [] := by rw [held, hb, Option.getD_none]
      split_ifs with hk
      · rw [hk, hempty]
        rfl
      · rfl
  | some msgs =>
      have hmsgs : b.held key = msgs := by rw [held, hb, Option.getD_some]
      rw [hmsgs]
      dsimp only
      by_cases hempty : (dropExpired b.ttlMs now msgs).isEmpty = true
      · rw [if_pos hempty, held, FinMap.lookup_erase_ite]
        split_ifs
        · exact (List.isEmpty_iff.mp hempty).symm
        · rfl
      · rw [if_neg hempty, held, FinMap.lookup_insert_ite]
        split_ifs <;> rfl

/-- Evicting expired messages twice is evicting them once. -/
lemma dropExpired_idem (ttlMs : ℕ) (msgs : List (BufferedMessage δ)) :
    dropExpired ttlMs now (dropExpired ttlMs now msgs) = dropExpired ttlMs now msgs :=
  List.dropWhile_idempotent _ _

/-- A round of the loop of `evict_expired` evicts by the same TTL. -/
lemma evictKey_ttlMs (key : String) : (evictKey now b key).ttlMs = b.ttlMs := by
  rw [evictKey]
  split
  · rfl
  · dsimp only
    split_ifs <;> rfl

lemma evictKey_maxSize (key : String) : (evictKey now b key).maxSize = b.maxSize := by
  rw [evictKey]
  split
  · rfl
  · dsimp only
    split_ifs <;> rfl

/-- The periodic eviction of a key drops its expired messages, or leaves it
alone. -/
lemma held_evictExpired (order : SetOrder String) (k : String) :
    (b.evictExpired order now).held k = dropExpired b.ttlMs now (b.held k) ∨
      (b.evictExpired order now).held k = b.held k := by
  rw [evictExpired]
  generalize order.toList b.buffers.keys = keys
  induction keys generalizing b with
  | nil => exact Or.inr rfl
  | cons key keys ih =>
      have hround := held_evictKey b now key k
      rw [List.foldl_cons]
      have hrest := ih (evictKey now b key)
      rw [evictKey_ttlMs, hround] at hrest
      split_ifs at hrest with hk
      · rw [hk]
        rw [hk, dropExpired_idem, or_self] at hrest
        exact Or.inl hrest
      · exact hrest

/-- No call changes the limits. -/
lemma limits_perform (c : ℕ × BufferCall δ) :
    (b.perform c).maxSize = b.maxSize ∧ (b.perform c).ttlMs = b.ttlMs := by
  obtain ⟨now, call⟩ := c
  cases call with
  | push key seq data => exact ⟨rfl, rfl⟩
  | replaySince key sinceSeq => exact ⟨rfl, rfl⟩
  | removeClient key => exact ⟨rfl, rfl⟩
  | evictExpired order =>
      change ((order.toList b.buffers.keys).foldl (evictKey now) b).maxSize = _ ∧
        ((order.toList b.buffers.keys).foldl (evictKey now) b).ttlMs = _
      generalize order.toList b.buffers.keys = keys
      induction keys generalizing b with
      | nil => exact ⟨rfl, rfl⟩
      | cons key keys ih =>
          obtain ⟨hsize, httl⟩ := ih (evictKey now b key)
          exact ⟨hsize.trans (evictKey_maxSize b now key), httl.trans (evictKey_ttlMs b now key)⟩

/-! ### The window -/

/-- The message is at least as old as the TTL. -/
def Expired (ttlMs now : ℕ) (m : BufferedMessage δ) : Prop := ttlMs ≤ now - m.createdAt

variable {b now} {key : String} {msgs : List (BufferedMessage δ)}

lemma shows_dropExpired {n : ℕ} {all : List (BufferedMessage δ)}
    (h : Window.Shows n (Expired b.ttlMs now) all msgs) :
    Window.Shows n (Expired b.ttlMs now) all (dropExpired b.ttlMs now msgs) :=
  h.dropWhile fun m hm => (decide_eq_true_iff.mp hm : b.ttlMs ≤ now - m.createdAt)

/-- One call: the buffer still shows the window when the clock has not gone
back. -/
lemma shows_perform {c : ℕ × BufferCall δ} (hnow : now ≤ c.1)
    (h : Window.Shows (max b.maxSize 1) (Expired b.ttlMs now) msgs (b.held key)) :
    Window.Shows (max b.maxSize 1) (Expired b.ttlMs c.1) (pushedAfter key msgs c)
      ((b.perform c).held key) := by
  have hlater : Window.Shows (max b.maxSize 1) (Expired b.ttlMs c.1) msgs (b.held key) := by
    refine h.mono fun m hm => ?_
    simp only [Expired] at hm ⊢
    omega
  obtain ⟨t, call⟩ := c
  cases call with
  | push key' seq data =>
      change Window.Shows _ _ (if key' = key then _ else _) ((b.push t key' seq data).held key)
      rw [held_push]
      by_cases hk : key' = key
      · subst hk
        rw [if_pos rfl, if_pos rfl]
        exact (shows_dropExpired hlater).push _
      · rw [if_neg hk, if_neg (Ne.symm hk)]
        exact hlater
  | replaySince key' sinceSeq => exact hlater
  | evictExpired order =>
      change Window.Shows _ _ msgs ((b.evictExpired order t).held key)
      rcases held_evictExpired b t order key with hdrop | hsame
      · rw [hdrop]
        exact shows_dropExpired hlater
      · rw [hsame]
        exact hlater
  | removeClient key' =>
      change Window.Shows _ _ (if key' = key then _ else _) ((b.removeClient key').held key)
      rw [held_removeClient]
      by_cases hk : key' = key
      · rw [if_pos hk, if_pos hk.symm]
        exact Window.Shows.nil _ _
      · rw [if_neg hk, if_neg (Ne.symm hk)]
        exact hlater

/-- A history of calls under a non-decreasing clock. -/
lemma shows_foldl_perform {calls : List (ℕ × BufferCall δ)} {later : ℕ}
    (hclock : (now :: (calls.map Prod.fst ++ [later])).Pairwise (· ≤ ·))
    (h : Window.Shows (max b.maxSize 1) (Expired b.ttlMs now) msgs (b.held key)) :
    Window.Shows (max b.maxSize 1) (Expired b.ttlMs later) (calls.foldl (pushedAfter key) msgs)
      ((b.performAll calls).held key) := by
  induction calls generalizing b now msgs with
  | nil =>
      refine h.mono fun m hm => ?_
      have hle : now ≤ later := (List.pairwise_cons.mp hclock).1 later (by simp)
      simp only [Expired] at hm ⊢
      omega
  | cons c calls ih =>
      obtain ⟨hle, hrest⟩ := List.pairwise_cons.mp hclock
      obtain ⟨hsize, httl⟩ := limits_perform b c
      have hstep := shows_perform (hle c.1 (by simp)) h
      rw [← hsize, ← httl] at hstep ⊢
      exact ih hrest hstep

/-- After every history the buffer of a key shows the window of what was pushed
to it. -/
lemma shows_performAll {calls : List (ℕ × BufferCall δ)} {maxSize ttlMs later : ℕ}
    (hclock : (calls.map Prod.fst ++ [later]).Pairwise (· ≤ ·)) (key : String) :
    Window.Shows (max maxSize 1) (Expired ttlMs later) (pushedSince key calls)
      (((new maxSize ttlMs).performAll calls).held key) :=
  shows_foldl_perform (b := new maxSize ttlMs)
    (List.pairwise_cons.mpr ⟨fun t _ => Nat.zero_le t, hclock⟩) (Window.Shows.nil _ _)

lemma ttlMs_performAll (calls : List (ℕ × BufferCall δ)) (b : ReplayBuffer δ) :
    (b.performAll calls).ttlMs = b.ttlMs := by
  induction calls generalizing b with
  | nil => rfl
  | cons c calls ih => exact (ih (b.perform c)).trans (limits_perform b c).2

/-- What `replay_since` reads after a history is the window. -/
lemma replaySince_performAll {calls : List (ℕ × BufferCall δ)} {maxSize ttlMs now : ℕ}
    (hclock : (calls.map Prod.fst ++ [now]).Pairwise (· ≤ ·)) (key : String) (sinceSeq : ℕ) :
    ((new maxSize ttlMs).performAll calls).replaySince now key sinceSeq =
      replayWindow maxSize ttlMs calls now key sinceSeq := by
  rw [replaySince_eq, ttlMs_performAll, replayWindow]
  congr 1
  refine (shows_performAll hclock key).filter_eq fun m hm => ?_
  have hold : ¬now - m.createdAt < ttlMs := by
    simp only [Expired] at hm
    omega
  change (_ && decide (now - m.createdAt < ttlMs)) = false
  rw [decide_eq_false hold, Bool.and_false]

end ReplayBuffer

/-- After every history of calls under a non-decreasing clock, `replay_since`
returns the window of the messages pushed to the key since its last removal.
Nothing else counts: after any other history with the same pushes to the key
and removals of it, the answer is the same. -/
theorem replay_since_eq_window {δ : Type} (maxSize ttlMs : ℕ) (calls : List (ℕ × BufferCall δ))
    (now : ℕ) (key : String) (sinceSeq : ℕ)
    (hclock : (calls.map Prod.fst ++ [now]).Pairwise (· ≤ ·)) :
    ((ReplayBuffer.new maxSize ttlMs).performAll calls).replaySince now key sinceSeq =
        ReplayBuffer.replayWindow maxSize ttlMs calls now key sinceSeq ∧
      ∀ calls' : List (ℕ × BufferCall δ),
        (calls'.map Prod.fst ++ [now]).Pairwise (· ≤ ·) →
        calls'.filter (fun c => c.2.concerns key) = calls.filter (fun c => c.2.concerns key) →
        ((ReplayBuffer.new maxSize ttlMs).performAll calls').replaySince now key sinceSeq =
          ((ReplayBuffer.new maxSize ttlMs).performAll calls).replaySince now key sinceSeq := by
  have hwindow : ((ReplayBuffer.new maxSize ttlMs).performAll calls).replaySince now key sinceSeq =
      ReplayBuffer.replayWindow maxSize ttlMs calls now key sinceSeq :=
    ReplayBuffer.replaySince_performAll hclock key sinceSeq
  refine ⟨hwindow, fun calls' hclock' hsame => ?_⟩
  rw [hwindow, ReplayBuffer.replaySince_performAll hclock', ReplayBuffer.replayWindow,
    ReplayBuffer.replayWindow, ← ReplayBuffer.pushedSince_filter key calls', hsame,
    ReplayBuffer.pushedSince_filter]

/-- Three pushes to a buffer of size two, of which the first is dropped and the
second has expired when it is read. -/
theorem replay_since_two_of_three :
    ((ReplayBuffer.new 2 10).performAll
      [(0, .push "bob" 1 "a"), (1, .push "bob" 2 "b"), (8, .push "eve" 3 "x"),
        (9, .push "bob" 4 "c"), (11, .evictExpired (SetOrder.sorted String))]).replaySince
          11 "bob" 0 = ["c"] := by
  rw [(replay_since_eq_window 2 10 _ 11 "bob" 0 (by decide)).1]
  rfl

end Dendri
