import Mathlib.Tactic

/-!
Meters, as rate limiters use them: a bucket that answers at each time whether one more cell
may pass.

* `attempts`: a bucket that is asked at some times, with its answers;
* `span`, `passed`: how long a sequence of answers is, and how many of them let a cell pass;
* `Within`: the bucket lets at most so many cells pass in every window, given its length;
* `gcra`: the generic cell rate algorithm, and `gcra_within`: in every window it lets a burst
  pass and as many cells as there are periods in the window.
-/

namespace Meter

variable {β : Type}

/-- The bucket `b` is asked at the times `ts`. -/
def attempts (check : ℕ → β → β × Bool) : β → List ℕ → β × List (ℕ × Bool)
  | b, [] => (b, [])
  | b, t :: ts =>
      let r := check t b
      let rest := attempts check r.1 ts
      (rest.1, (t, r.2) :: rest.2)

/-- The time from the first answer to the last. -/
def span (es : List (ℕ × Bool)) : ℕ :=
  (es.getLast?.map Prod.fst).getD 0 - (es.head?.map Prod.fst).getD 0

/-- How many answers let a cell pass. -/
def passed (es : List (ℕ × Bool)) : ℕ := es.countP Prod.snd

/-- Asked at increasing times, the bucket lets in every window at most as many cells pass as
`bound` says of its length. -/
def Within (check : ℕ → β → β × Bool) (b : β) (bound : ℕ → ℕ) : Prop :=
  ∀ ts before during, ts.Pairwise (· ≤ ·) → (attempts check b ts).2 = before ++ during →
    passed during ≤ bound (span during)

section Attempts

variable (check : ℕ → β → β × Bool)

lemma attempts_append (b : β) (ts ts' : List ℕ) :
    attempts check b (ts ++ ts') =
      ((attempts check (attempts check b ts).1 ts').1,
        (attempts check b ts).2 ++ (attempts check (attempts check b ts).1 ts').2) := by
  induction ts generalizing b with
  | nil => rfl
  | cons t ts ih =>
      rw [List.cons_append, attempts, ih]
      rfl

lemma map_attempts (b : β) (ts : List ℕ) : (attempts check b ts).2.map Prod.fst = ts := by
  induction ts generalizing b with
  | nil => rfl
  | cons t ts ih =>
      rw [attempts, List.map_cons]
      exact congrArg (t :: ·) (ih _)

/-- The answers of a window are those of the bucket at its start. -/
lemma attempts_split {b : β} {ts : List ℕ} {before during : List (ℕ × Bool)}
    (h : (attempts check b ts).2 = before ++ during) :
    ts = before.map Prod.fst ++ during.map Prod.fst ∧
      (attempts check (attempts check b (before.map Prod.fst)).1 (during.map Prod.fst)).2 =
        during := by
  have hts : ts = before.map Prod.fst ++ during.map Prod.fst := by
    rw [← List.map_append, ← h, map_attempts]
  refine ⟨hts, ?_⟩
  rw [hts, attempts_append] at h
  refine (List.append_inj h ?_).2
  rw [← List.length_map Prod.fst, map_attempts, List.length_map]

end Attempts

/-! ### The generic cell rate algorithm -/

/-- The time at which the next cell is due is kept. A cell may come at most `burst - 1` periods
before it, and moves it on by one period. A unit of time has `tick` ticks. -/
def gcra (tick period burst now due : ℕ) : ℕ × Bool :=
  if tick * now + period * (burst - 1) < due then (due, false)
  else (max due (tick * now) + period, true)

section Gcra

variable (tick period burst : ℕ)

/-- Each cell that passes moves the due time on. -/
lemma due_lower (due start : ℕ) {ts : List ℕ} (hstart : ∀ t ∈ ts, start ≤ t) :
    max due (tick * start) + passed (attempts (gcra tick period burst) due ts).2 * period ≤
      max (attempts (gcra tick period burst) due ts).1 (tick * start) := by
  induction ts generalizing due with
  | nil => simp [attempts, passed]
  | cons t ts ih =>
      have ht : tick * start ≤ tick * t := Nat.mul_le_mul_left tick (hstart t List.mem_cons_self)
      have hrest := fun due => ih due fun t' ht' => hstart t' (List.mem_cons_of_mem t ht')
      rw [attempts]
      by_cases hearly : tick * t + period * (burst - 1) < due
      · rw [gcra, if_pos hearly]
        exact hrest due
      · rw [gcra, if_neg hearly]
        refine le_trans ?_ (hrest _)
        dsimp only
        rw [passed, List.countP_cons_of_pos rfl, Nat.succ_mul, ← passed]
        omega

/-- If nothing passes, the due time stays. -/
lemma due_of_none_passed {due : ℕ} {ts : List ℕ}
    (h : passed (attempts (gcra tick period burst) due ts).2 = 0) :
    (attempts (gcra tick period burst) due ts).1 = due := by
  induction ts with
  | nil => rfl
  | cons t ts ih =>
      rw [attempts] at h ⊢
      by_cases hearly : tick * t + period * (burst - 1) < due
      · rw [gcra, if_pos hearly] at h ⊢
        exact ih h
      · rw [gcra, if_neg hearly, passed, List.countP_cons_of_pos rfl] at h
        exact absurd h (Nat.succ_ne_zero _)

/-- The due time is never far ahead of the last cell that passed. -/
lemma due_upper (hburst : 0 < burst) (due stop : ℕ) {ts : List ℕ} (hstop : ∀ t ∈ ts, t ≤ stop)
    (hpassed : 0 < passed (attempts (gcra tick period burst) due ts).2) :
    (attempts (gcra tick period burst) due ts).1 ≤ tick * stop + period * burst := by
  induction ts generalizing due with
  | nil => exact absurd hpassed (by simp [attempts, passed])
  | cons t ts ih =>
      have ht : tick * t ≤ tick * stop := Nat.mul_le_mul_left tick (hstop t List.mem_cons_self)
      have hrest := fun due => ih due fun t' ht' => hstop t' (List.mem_cons_of_mem t ht')
      rw [attempts] at hpassed ⊢
      by_cases hearly : tick * t + period * (burst - 1) < due
      · rw [gcra, if_pos hearly] at hpassed ⊢
        exact hrest due hpassed
      · rw [gcra, if_neg hearly]
        dsimp only
        rcases Nat.eq_zero_or_pos (passed (attempts (gcra tick period burst)
          (max due (tick * t) + period) ts).2) with hzero | hpos
        · obtain ⟨n, rfl⟩ : ∃ n, burst = n + 1 := ⟨burst - 1, by omega⟩
          rw [Nat.add_sub_cancel] at hearly
          rw [due_of_none_passed tick period _ hzero, Nat.mul_succ]
          omega
        · exact hrest _ hpos

/-- In every window a burst passes, and one cell for each period of the window. -/
theorem gcra_within (hperiod : 0 < period) (hburst : 0 < burst) (due : ℕ) :
    Within (gcra tick period burst) due fun length => burst + tick * length / period := by
  intro ts before during hsorted hsplit
  obtain ⟨hts, hduring⟩ := attempts_split _ hsplit
  set due' := (attempts (gcra tick period burst) due (before.map Prod.fst)).1
  have htimes : (during.map Prod.fst).Pairwise (· ≤ ·) := by
    rw [hts] at hsorted
    exact (List.pairwise_append.mp hsorted).2.1
  rcases during.eq_nil_or_concat with rfl | ⟨init, last, rfl⟩
  · exact Nat.zero_le _
  obtain ⟨first, hfirst⟩ : ∃ first, (init.concat last).head? = some first :=
    Option.isSome_iff_exists.mp (by cases init <;> rfl)
  rw [List.concat_eq_append] at *
  have hstart : ∀ t ∈ (init ++ [last]).map Prod.fst, first.1 ≤ t := by
    obtain ⟨rest, hrest⟩ := List.head?_eq_some_iff.mp hfirst
    rw [hrest, List.map_cons, List.pairwise_cons] at htimes
    rw [hrest, List.map_cons]
    intro t ht
    rcases List.mem_cons.mp ht with rfl | ht
    · exact le_rfl
    · exact htimes.1 t ht
  have hstop : ∀ t ∈ (init ++ [last]).map Prod.fst, t ≤ last.1 := by
    rw [List.map_append, List.map_singleton, List.pairwise_append] at htimes
    rw [List.map_append, List.map_singleton]
    intro t ht
    rcases List.mem_append.mp ht with ht | ht
    · exact htimes.2.2 t ht last.1 (List.mem_singleton_self _)
    · exact (List.mem_singleton.mp ht).le
  have hspan : span (init ++ [last]) = last.1 - first.1 := by
    rw [span, hfirst, List.getLast?_append_of_ne_nil _ (by simp)]
    rfl
  have hle : first.1 ≤ last.1 := hstart last.1 (by simp)
  show passed (init ++ [last]) ≤ burst + tick * span (init ++ [last]) / period
  rw [hspan, Nat.add_comm, ← Nat.add_mul_div_left _ _ hperiod, Nat.le_div_iff_mul_le hperiod]
  rcases Nat.eq_zero_or_pos (passed (init ++ [last])) with hzero | hpos
  · rw [hzero, Nat.zero_mul]
    exact Nat.zero_le _
  have hlower := due_lower tick period burst due' first.1 hstart
  have hupper := due_upper tick period burst hburst due' last.1 hstop (hduring.symm ▸ hpos)
  rw [hduring] at hlower
  have hticks : tick * (last.1 - first.1) = tick * last.1 - tick * first.1 := Nat.mul_sub ..
  have hmono : tick * first.1 ≤ tick * last.1 := Nat.mul_le_mul_left tick hle
  omega

end Gcra

end Meter
