import Mathlib.Tactic

/-!
Runs of a guarded step function. `step s e` is `some s'` when the event `e` is
enabled in `s`, and `none` otherwise; a run is a start state and a list of
events.

* `run`: the state a list of events leads to, `none` once one of them is
  disabled;
* `run_induction`: induction along a run, over the events so far;
* `Happened step Q s es`: some step of the run satisfies `Q`, a property of the
  state before the step and the event; `run_happened_induction` is the
  induction that goes along with it;
* `withRecord step out`: the system with a record of what its steps give out;
* `AllSteps step Q s es`: every step of the run satisfies `Q`, a property of
  the state before the step, the event and the state after it;
* `AllSteps.of_run`, `AllSteps.last`: the last state and the last step of a run;
* `AllSteps.of_invariant`: the rule by which a condition on the steps of a run
  gives a property of its steps, through an invariant of the states;
* `AllSteps.iff_of_invariant_of`, `AllSteps.iff_of_invariant`: the exact form, for
  a property of the states that each single step keeps just when it meets the
  condition, with a premise on the steps and without one.
-/

namespace Transition

variable {σ ε : Type*} (step : σ → ε → Option σ)

/-- The state reached by a list of events. -/
def run : σ → List ε → Option σ
  | s, [] => some s
  | s, e :: es => (step s e).bind fun s' => run s' es

/-- The transitions, with a record of what `out` gives at each step. -/
def withRecord {α : Type*} (out : σ → ε → List α) (s : σ × List α) (e : ε) : Option (σ × List α) :=
  (step s.1 e).map fun s' => (s', s.2 ++ out s.1 e)

/-- Some step of the run of `es` from `s` satisfies `Q`. -/
def Happened (Q : σ → ε → Prop) (s : σ) (es : List ε) : Prop :=
  ∃ before e after t, es = before ++ e :: after ∧ run step s before = some t ∧ Q t e

/-- Every step of the run of `es` from `s` satisfies `Q`. A disabled event
ends the run. -/
def AllSteps (Q : σ → ε → σ → Prop) : σ → List ε → Prop
  | _, [] => True
  | s, e :: es => ∀ s', step s e = some s' → Q s e s' ∧ AllSteps Q s' es

variable {step}

lemma run_cons {s s' : σ} {e : ε} {es : List ε} :
    run step s (e :: es) = some s' ↔ ∃ t, step s e = some t ∧ run step t es = some s' := by
  rw [run, Option.bind_eq_some_iff]

lemma run_concat {s s' : σ} {e : ε} {es : List ε} :
    run step s (es ++ [e]) = some s' ↔ ∃ t, run step s es = some t ∧ step t e = some s' := by
  induction es generalizing s with
  | nil => simp [run]
  | cons e' es ih =>
      rw [List.cons_append, run_cons]
      simp only [ih, run_cons]
      exact ⟨fun ⟨t, ht, u, hu, hs'⟩ => ⟨u, ⟨t, ht, hu⟩, hs'⟩,
        fun ⟨u, ⟨t, ht, hu⟩, hs'⟩ => ⟨t, ht, u, hu, hs'⟩⟩

/-- Induction along a run: a property of the events so far and the state they
lead to. -/
lemma run_induction {I : List ε → σ → Prop} {s : σ} (hnil : I [] s)
    (hstep : ∀ es t e u, I es t → step t e = some u → I (es ++ [e]) u) :
    ∀ {es : List ε} {t : σ}, run step s es = some t → I es t := by
  intro es
  induction es using List.reverseRecOn with
  | nil =>
      intro t hrun
      rw [run, Option.some.injEq] at hrun
      rwa [← hrun]
  | append_singleton es e ih =>
      intro u hrun
      obtain ⟨t, ht, hu⟩ := run_concat.mp hrun
      exact hstep es t e u (ih ht) hu

/-- What happened in a run has happened in every longer one. -/
lemma Happened.concat {Q : σ → ε → Prop} {s : σ} {e : ε} {es : List ε}
    (h : Happened step Q s es) : Happened step Q s (es ++ [e]) := by
  obtain ⟨before, e', after, t, rfl, hrun, hQ⟩ := h
  exact ⟨before, e', after ++ [e], t, by simp, hrun, hQ⟩

lemma Happened.last {Q : σ → ε → Prop} {s t : σ} {e : ε} {es : List ε}
    (hrun : run step s es = some t) (h : Q t e) : Happened step Q s (es ++ [e]) :=
  ⟨es, e, [], t, rfl, hrun, h⟩

/-- What happened in a run happened before its last step, or with it. -/
lemma happened_concat_iff {Q : σ → ε → Prop} {s t : σ} {e : ε} {es : List ε}
    (hrun : run step s es = some t) :
    Happened step Q s (es ++ [e]) ↔ Happened step Q s es ∨ Q t e := by
  constructor
  · rintro ⟨before, e', after, u, heq, hu, hQ⟩
    rcases after.eq_nil_or_concat with rfl | ⟨after', e'', rfl⟩
    · obtain ⟨rfl, hlast⟩ := List.append_inj' heq rfl
      rw [List.cons.injEq] at hlast
      rw [Option.some.inj (hrun.symm.trans hu), hlast.1]
      exact Or.inr hQ
    · rw [List.concat_eq_append, ← List.cons_append, ← List.append_assoc] at heq
      obtain ⟨rfl, -⟩ := List.append_inj' heq rfl
      exact Or.inl ⟨before, e', after', u, rfl, hu, hQ⟩
  · rintro (h | h)
    · exact h.concat
    · exact Happened.last hrun h

/-- Induction along a run, with whether something has happened in it. -/
lemma run_happened_induction {Q : σ → ε → Prop} {I : Prop → σ → Prop} {s : σ} (hnil : I False s)
    (hstep : ∀ happened t e u, I happened t → step t e = some u → I (happened ∨ Q t e) u)
    {es : List ε} {t : σ} (hrun : run step s es = some t) : I (Happened step Q s es) t := by
  have hall : run step s es = some t ∧ I (Happened step Q s es) t := by
    refine run_induction (I := fun es t => run step s es = some t ∧ I (Happened step Q s es) t)
      ⟨rfl, ?_⟩ (fun es t e u hI hu => ?_) hrun
    · have hnone : ¬Happened step Q s [] := by
        rintro ⟨before, e, after, t, heq, -⟩
        exact absurd heq (by simp)
      rwa [eq_false hnone]
    · refine ⟨run_concat.mpr ⟨t, hI.1, hu⟩, ?_⟩
      rw [happened_concat_iff hI.1]
      exact hstep _ t e u hI.2 hu
  exact hall.2

/-- An invariant of the single steps holds at the end of every run. -/
lemma run_invariant {I : σ → Prop} {P : σ → ε → σ → Prop}
    (hstep : ∀ s e s', I s → step s e = some s' → P s e s' → I s') :
    ∀ {es : List ε} {s s' : σ}, I s → AllSteps step P s es → run step s es = some s' →
      I s' := by
  intro es
  induction es with
  | nil =>
      intro s s' hs _ hrun
      rw [run, Option.some.injEq] at hrun
      rwa [← hrun]
  | cons e es ih =>
      intro s s' hs hall hrun
      obtain ⟨t, ht, hrest⟩ := run_cons.mp hrun
      obtain ⟨hP, hall'⟩ := hall t ht
      exact ih (hstep s e t hs ht hP) hall' hrest

namespace AllSteps

/-- A decidable property of the steps of a run can be evaluated. -/
instance decidable {Q : σ → ε → σ → Prop} [∀ s e s', Decidable (Q s e s')] :
    ∀ s es, Decidable (AllSteps step Q s es)
  | _, [] => isTrue trivial
  | s, e :: es =>
      match h : step s e with
      | none => isTrue fun s' hs' => absurd (h.symm.trans hs') (by simp)
      | some s' =>
          have : Decidable (AllSteps step Q s' es) := decidable s' es
          decidable_of_iff (Q s e s' ∧ AllSteps step Q s' es)
            ⟨fun hall t ht => Option.some.inj (h.symm.trans ht) ▸ hall, fun hall => hall s' h⟩

/-- A property of every possible step of the events of a list. -/
lemma of_mem {Q : σ → ε → σ → Prop} :
    ∀ {es : List ε} (s : σ), (∀ e ∈ es, ∀ s s', step s e = some s' → Q s e s') →
      AllSteps step Q s es := by
  intro es
  induction es with
  | nil => intro s _; trivial
  | cons e es ih =>
      intro s h s' hs'
      exact ⟨h e (by simp) s s' hs', ih s' fun e' he' => h e' (by simp [he'])⟩

/-- Properties that agree on every possible step agree on runs. -/
lemma congr {P Q : σ → ε → σ → Prop} (h : ∀ s e s', step s e = some s' → (P s e s' ↔ Q s e s')) :
    ∀ {es : List ε} {s : σ}, AllSteps step P s es ↔ AllSteps step Q s es := by
  intro es
  induction es with
  | nil => intro s; exact Iff.rfl
  | cons e es ih =>
      intro s
      exact forall₂_congr fun s' hs' => and_congr (h s e s' hs') ih

lemma and {P Q : σ → ε → σ → Prop} :
    ∀ {es : List ε} {s : σ}, AllSteps step P s es → AllSteps step Q s es →
      AllSteps step (fun s e s' => P s e s' ∧ Q s e s') s es := by
  intro es
  induction es with
  | nil => intro s _ _; trivial
  | cons e es ih =>
      intro s hP hQ s' hs'
      exact ⟨⟨(hP s' hs').1, (hQ s' hs').1⟩, ih (hP s' hs').2 (hQ s' hs').2⟩

/-- A property of all steps of a run is one of all steps of a shorter run. -/
lemma init {Q : σ → ε → σ → Prop} :
    ∀ {es : List ε} {e : ε} {s : σ}, AllSteps step Q s (es ++ [e]) → AllSteps step Q s es := by
  intro es
  induction es with
  | nil => intro e s _; trivial
  | cons e' es ih =>
      intro e s hall s' hs'
      obtain ⟨hQ, hrest⟩ := hall s' hs'
      exact ⟨hQ, ih hrest⟩

/-- A property of all steps of a run is a property of its last step. -/
lemma last {Q : σ → ε → σ → Prop} :
    ∀ {es : List ε} {e : ε} {s t u : σ}, AllSteps step Q s (es ++ [e]) →
      run step s es = some t → step t e = some u → Q t e u := by
  intro es
  induction es with
  | nil =>
      intro e s t u hall hrun hstep
      rw [run, Option.some.injEq] at hrun
      rw [← hrun] at hstep ⊢
      exact (hall u hstep).1
  | cons e' es ih =>
      intro e s t u hall hrun hstep
      obtain ⟨s', hs', hrest⟩ := run_cons.mp hrun
      exact ih (hall s' hs').2 hrest hstep

/-- A property of all states of a run is a property of its last state. -/
lemma of_run {G : σ → Prop} :
    ∀ {es : List ε} {s t : σ}, G s → AllSteps step (fun _ _ s' => G s') s es →
      run step s es = some t → G t := by
  intro es
  induction es with
  | nil =>
      intro s t hs _ hrun
      rw [run, Option.some.injEq] at hrun
      rwa [← hrun]
  | cons e es ih =>
      intro s t _ hall hrun
      obtain ⟨s', hs', hrest⟩ := run_cons.mp hrun
      obtain ⟨hG, hall'⟩ := hall s' hs'
      exact ih hG hall' hrest

/-- The invariant rule: if the invariant and the condition `P` give the
property `Q` of a step and the invariant after it, then every run whose steps
meet `P` has `Q` at every step. -/
lemma of_invariant {I : σ → Prop} {P Q : σ → ε → σ → Prop}
    (hstep : ∀ s e s', I s → step s e = some s' → P s e s' → I s' ∧ Q s e s') :
    ∀ {es : List ε} {s : σ}, I s → AllSteps step P s es → AllSteps step Q s es := by
  intro es
  induction es with
  | nil => intro s _ _; trivial
  | cons e es ih =>
      intro s hs hall s' hs'
      obtain ⟨hP, hrest⟩ := hall s' hs'
      obtain ⟨hs₂, hQ⟩ := hstep s e s' hs hs' hP
      exact ⟨hQ, ih hs₂ hrest⟩

/-- The exact rule: when a step from an invariant state that meets the premise
`A` ends in a state with the property `G` just when it meets `P`, and `G` carries
the invariant on, all states of a run whose steps meet the premise have `G` just
when all its steps meet `P`. -/
lemma iff_of_invariant_of {I G : σ → Prop} {A P : σ → ε → σ → Prop}
    (hexact : ∀ s e s', I s → step s e = some s' → A s e s' → (G s' ↔ P s e s'))
    (hkeep : ∀ s e s', I s → step s e = some s' → A s e s' → G s' → I s') :
    ∀ {es : List ε} {s : σ}, I s → AllSteps step A s es →
      (AllSteps step (fun _ _ s' => G s') s es ↔ AllSteps step P s es) := by
  intro es
  induction es with
  | nil => intro s _ _; exact Iff.rfl
  | cons e es ih =>
      intro s hs hall
      refine forall₂_congr fun s' hs' => ?_
      obtain ⟨hA, hrest'⟩ := hall s' hs'
      constructor
      · rintro ⟨hG, hrest⟩
        exact ⟨(hexact s e s' hs hs' hA).mp hG, (ih (hkeep s e s' hs hs' hA hG) hrest').mp hrest⟩
      · rintro ⟨hP, hrest⟩
        have hG : G s' := (hexact s e s' hs hs' hA).mpr hP
        exact ⟨hG, (ih (hkeep s e s' hs hs' hA hG) hrest').mpr hrest⟩

/-- The exact rule without a premise. -/
lemma iff_of_invariant {I G : σ → Prop} {P : σ → ε → σ → Prop}
    (hexact : ∀ s e s', I s → step s e = some s' → (G s' ↔ P s e s'))
    (hkeep : ∀ s e s', I s → step s e = some s' → G s' → I s') {es : List ε} {s : σ} (hs : I s) :
    AllSteps step (fun _ _ s' => G s') s es ↔ AllSteps step P s es :=
  iff_of_invariant_of (A := fun _ _ _ => True) (fun s e s' h hstep _ => hexact s e s' h hstep)
    (fun s e s' h hstep _ => hkeep s e s' h hstep) hs (of_mem s fun _ _ _ _ _ => trivial)

end AllSteps

end Transition
