import Dendri.Lib.Transition

/-!
Interleavings of sequential processes over a shared state.

A process is a local state and an action `act`: one atomic step on the shared
state, `none` once the process has finished. An event names the process that
moves and what the outside answers during its step; a schedule is a list of
events, and its run is a run of `Interleave.step`.

* `step`, `step_eq_some`: one process moves, the local states of all others
  stay;
* `forall_update`: a property of all local states after a step, by the process
  that moved and the ones that did not;
* `numberOf`: how many processes are in a local state of a kind, and what a step
  does to this number;
* `Alone`: the steps of one process without interruption.
-/

namespace Interleave

variable {σ π ι ε : Type*} [DecidableEq ι] (who : ε → ι) (act : ε → σ → π → Option (σ × π))

/-- The process of the event makes its next step. -/
def step (w : σ × (ι → π)) (e : ε) : Option (σ × (ι → π)) :=
  (act e w.1 (w.2 (who e))).map fun r => (r.1, Function.update w.2 (who e) r.2)

variable {who act}

lemma step_eq_some {w w' : σ × (ι → π)} {e : ε} (h : step who act w e = some w') :
    ∃ s' p', act e w.1 (w.2 (who e)) = some (s', p') ∧
      w' = (s', Function.update w.2 (who e) p') := by
  obtain ⟨⟨s', p'⟩, hact, hw⟩ := Option.map_eq_some_iff.mp h
  exact ⟨s', p', hact, hw.symm⟩

/-- A property of all local states, after the local state of `i` changed. -/
lemma forall_update {ps : ι → π} {i : ι} {p : π} {P : ι → π → Prop}
    (hi : P i p) (hother : ∀ j, j ≠ i → P j (ps j)) : ∀ j, P j (Function.update ps i p j) := by
  intro j
  by_cases hj : j = i
  · subst hj
    rw [Function.update_self]
    exact hi
  · rw [Function.update_of_ne hj]
    exact hother j hj

/-- The number of processes whose local state has the property. -/
noncomputable def numberOf (P : π → Prop) (ps : ι → π) : ℕ := {i | P (ps i)}.ncard

section NumberOf

variable {P : π → Prop} {ps : ι → π} {i : ι} {p : π}

lemma setOf_update_of_pos (h : P p) :
    {j | P (Function.update ps i p j)} = insert i {j | P (ps j)} := by
  ext j
  by_cases hj : j = i
  · subst hj
    simp [h]
  · simp [hj]

lemma setOf_update_of_neg (h : ¬P p) :
    {j | P (Function.update ps i p j)} = {j | P (ps j)} \ {i} := by
  ext j
  by_cases hj : j = i
  · subst hj
    simp [h]
  · simp [hj]

/-- Still finitely many processes after a step. -/
lemma finite_update (h : {j | P (ps j)}.Finite) : {j | P (Function.update ps i p j)}.Finite := by
  by_cases hp : P p
  · rw [setOf_update_of_pos hp]
    exact h.insert i
  · rw [setOf_update_of_neg hp]
    exact h.sdiff

/-- One more process. -/
lemma numberOf_enter (hfin : {j | P (ps j)}.Finite) (hold : ¬P (ps i)) (hnew : P p) :
    numberOf P (Function.update ps i p) = numberOf P ps + 1 := by
  rw [numberOf, setOf_update_of_pos hnew]
  exact Set.ncard_insert_of_notMem hold hfin

/-- One process less. -/
lemma numberOf_leave (hfin : {j | P (ps j)}.Finite) (hold : P (ps i)) (hnew : ¬P p) :
    numberOf P (Function.update ps i p) + 1 = numberOf P ps := by
  rw [numberOf, setOf_update_of_neg hnew]
  exact Set.ncard_sdiff_singleton_add_one hold hfin

lemma numberOf_stay (h : P p ↔ P (ps i)) : numberOf P (Function.update ps i p) = numberOf P ps := by
  have hset : {j | P (Function.update ps i p j)} = {j | P (ps j)} := by
    ext j
    by_cases hj : j = i
    · subst hj
      simp [h]
    · simp [hj]
  rw [numberOf, hset, numberOf]

omit [DecidableEq ι] in
lemma numberOf_eq_zero_iff (hfin : {j | P (ps j)}.Finite) :
    numberOf P ps = 0 ↔ ∀ j, ¬P (ps j) := by
  rw [numberOf, Set.ncard_eq_zero hfin]
  exact Set.eq_empty_iff_forall_notMem

omit [DecidableEq ι] in
lemma numberOf_pos (hfin : {j | P (ps j)}.Finite) (h : P (ps i)) : 0 < numberOf P ps :=
  (Set.ncard_pos hfin).mpr ⟨i, h⟩

omit [DecidableEq ι] in
/-- With finitely many processes there are at most all of them in a kind of
local state. -/
lemma numberOf_le_card [Fintype ι] (P : π → Prop) (ps : ι → π) :
    numberOf P ps ≤ Fintype.card ι := by
  rw [numberOf, ← Nat.card_eq_fintype_card]
  exact Set.ncard_le_card _

end NumberOf

/-- The process leads from one state to another when no other moves. -/
def Alone (act : σ → π → Option (σ × π)) : σ × π → σ × π → Prop :=
  Relation.ReflTransGen fun w w' => act w.1 w.2 = some w'

lemma Alone.refl {act : σ → π → Option (σ × π)} (w : σ × π) : Alone act w w :=
  Relation.ReflTransGen.refl

lemma Alone.head {act : σ → π → Option (σ × π)} {s : σ} {p : π} {w w' : σ × π}
    (h : act s p = some w) (h' : Alone act w w') : Alone act (s, p) w' :=
  Relation.ReflTransGen.head h h'

lemma Alone.trans {act : σ → π → Option (σ × π)} {w w' w'' : σ × π} (h : Alone act w w')
    (h' : Alone act w' w'') : Alone act w w'' :=
  Relation.ReflTransGen.trans h h'

end Interleave
