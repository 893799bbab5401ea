import Mathlib.Data.List.DropRight
import Mathlib.Tactic

/-!
Sliding windows with expiry, over an arbitrary type of entries.

A buffer that forgets entries from its front, some because they are dead and
some because it is full, shows the last entries of everything that was ever
appended, except for dead ones at the front.

* `Shows n dead all buf`: the buffer `buf` is what is left of the last `n`
  entries of `all` after a front part of dead entries was dropped;
* `Shows.dropWhile`, `Shows.clear`: dropping dead entries from the front, or a
  buffer of dead entries;
* `Shows.push`: appending an entry to a buffer that drops one entry when it
  has reached its capacity;
* `Shows.suffix`: the buffer is an end part of everything appended;
* `Shows.filter_eq`: a filter that rejects dead entries does not see the
  difference between the buffer and the window.
-/

namespace Window

variable {α : Type*} {n : ℕ} {dead : α → Prop} {all buf : List α}

/-- The buffer is the window of the last `n` entries without a front part of
dead ones. -/
def Shows (n : ℕ) (dead : α → Prop) (all buf : List α) : Prop :=
  ∃ gone, all.rtake n = gone ++ buf ∧ ∀ a ∈ gone, dead a

lemma length_rtake (all : List α) (n : ℕ) : (all.rtake n).length = min n all.length := by
  rw [List.rtake, List.length_drop]
  omega

/-- The window of the last entries, shifted by one. -/
lemma rtake_pred (all : List α) (hn : 0 < n) :
    all.rtake (n - 1) =
      if (all.rtake n).length = n then (all.rtake n).tail else all.rtake n := by
  rw [length_rtake]
  split_ifs with h
  · rw [List.rtake, List.rtake, List.tail_drop]
    congr 1
    omega
  · rw [List.rtake, List.rtake]
    congr 1
    omega

namespace Shows

lemma nil (n : ℕ) (dead : α → Prop) : Shows n dead [] [] :=
  ⟨[], List.rtake_nil n, fun a ha => absurd ha (by simp)⟩

/-- Dead entries stay dead. -/
lemma mono {dead' : α → Prop} (h : Shows n dead all buf) (hdead : ∀ a, dead a → dead' a) :
    Shows n dead' all buf := by
  obtain ⟨gone, hall, hgone⟩ := h
  exact ⟨gone, hall, fun a ha => hdead a (hgone a ha)⟩

/-- Dropping dead entries from the front of the buffer. -/
lemma dropWhile {p : α → Bool} (h : Shows n dead all buf) (hp : ∀ a, p a = true → dead a) :
    Shows n dead all (buf.dropWhile p) := by
  obtain ⟨gone, hall, hgone⟩ := h
  refine ⟨gone ++ buf.takeWhile p, ?_, fun a ha => ?_⟩
  · rw [hall, List.append_assoc, List.takeWhile_append_dropWhile]
  · rcases List.mem_append.mp ha with hold | hnew
    · exact hgone a hold
    · exact hp a (List.mem_takeWhile_imp hnew)

/-- Dropping a buffer of dead entries. -/
lemma clear (h : Shows n dead all buf) (hbuf : ∀ a ∈ buf, dead a) : Shows n dead all [] := by
  obtain ⟨gone, hall, hgone⟩ := h
  refine ⟨gone ++ buf, by rw [hall, List.append_nil], fun a ha => ?_⟩
  rcases List.mem_append.mp ha with hold | hnew
  · exact hgone a hold
  · exact hbuf a hnew

/-- Appending an entry, where a buffer that has reached the capacity `cap`
first drops one: a buffer of capacity `0` still holds one entry. -/
lemma push {cap : ℕ} (h : Shows (max cap 1) dead all buf) (a : α) :
    Shows (max cap 1) dead (all ++ [a])
      ((if cap ≤ buf.length then buf.tail else buf) ++ [a]) := by
  obtain ⟨gone, hall, hgone⟩ := h
  have hlen : (gone ++ buf).length ≤ max cap 1 := by
    rw [← hall, length_rtake]
    omega
  have hwindow : (all ++ [a]).rtake (max cap 1) =
      (if (gone ++ buf).length = max cap 1 then (gone ++ buf).tail else gone ++ buf) ++ [a] := by
    have hsucc : max cap 1 = (max cap 1 - 1) + 1 := by omega
    rw [hsucc, List.rtake_concat_succ, rtake_pred all (by omega), hall, ← hsucc]
  rw [List.length_append] at hlen hwindow
  cases gone with
  | nil =>
      refine ⟨[], ?_, hgone⟩
      rw [hwindow]
      rw [List.length_nil, zero_add] at hlen ⊢
      by_cases hfull : buf.length = max cap 1
      · rw [if_pos hfull, if_pos (by omega)]
        rfl
      · rw [if_neg hfull]
        by_cases hcap : cap ≤ buf.length
        · -- only a buffer of capacity 0 is at its capacity while it is empty
          have hempty : buf = [] := List.eq_nil_of_length_eq_zero (by omega)
          rw [if_pos hcap, hempty]
          rfl
        · rw [if_neg hcap]
          rfl
  | cons g gone =>
      rw [List.length_cons] at hlen
      have hroom : (if cap ≤ buf.length then buf.tail else buf) = buf := by
        split_ifs with hcap
        · have hempty : buf = [] := List.eq_nil_of_length_eq_zero (by omega)
          rw [hempty, List.tail_nil]
        · rfl
      rw [hroom]
      by_cases hfull : (g :: gone).length + buf.length = max cap 1
      · refine ⟨gone, ?_, fun b hb => hgone b (List.mem_cons_of_mem g hb)⟩
        rw [hwindow, if_pos hfull, List.cons_append, List.tail_cons, List.append_assoc]
      · refine ⟨g :: gone, ?_, hgone⟩
        rw [hwindow, if_neg hfull, List.append_assoc]

/-- The buffer is an end part of everything appended. -/
lemma suffix (h : Shows n dead all buf) : buf <:+ all := by
  obtain ⟨gone, hall, -⟩ := h
  have hwindow : all.rtake n <:+ all := List.drop_suffix _ _
  rw [hall] at hwindow
  exact (List.suffix_append gone buf).trans hwindow

/-- What the buffer holds is in the window. -/
lemma mem_window (h : Shows n dead all buf) {a : α} (ha : a ∈ buf) : a ∈ all.rtake n := by
  obtain ⟨gone, hall, -⟩ := h
  rw [hall]
  exact List.mem_append_right gone ha

/-- A filter that lets no dead entry pass. -/
lemma filter_eq {p : α → Bool} (h : Shows n dead all buf) (hp : ∀ a, dead a → p a = false) :
    buf.filter p = (all.rtake n).filter p := by
  obtain ⟨gone, hall, hgone⟩ := h
  have hnone : gone.filter p = [] := by
    refine List.filter_eq_nil_iff.mpr fun a ha => ?_
    rw [hp a (hgone a ha)]
    exact Bool.false_ne_true
  rw [hall, List.filter_append, hnone, List.nil_append]

end Shows

end Window
