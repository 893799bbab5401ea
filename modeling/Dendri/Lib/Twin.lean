import Dendri.Lib.Transition

/-!
Two runs of one transition system side by side. A move of the pair is a step of
both runs, each with its own event, or of one of them alone, so that a list of
moves aligns the events of the two runs.

* `Twin`: the moves; `Twin.fst`, `Twin.snd`: the event of each run; `Twin.Each`:
  a property of the steps of both runs;
* `twinStep`: a move of the pair of states, which is again a guarded step
  function, so that `AllSteps` and the invariant rules apply to it;
* `run_twinStep`: a run of moves is a run of the events of either side.
-/

namespace Transition

variable {σ ε : Type*}

/-- A move of two runs. -/
inductive Twin (ε : Type*) where
  | both (e e' : ε)
  | first (e : ε)
  | second (e' : ε)

namespace Twin

/-- The event of the first run. -/
def fst : Twin ε → Option ε
  | both e _ => some e
  | first e => some e
  | second _ => none

/-- The event of the second run. -/
def snd : Twin ε → Option ε
  | both _ e' => some e'
  | first _ => none
  | second e' => some e'

/-- The steps of both runs in a move satisfy `P`. -/
def Each (P : σ → ε → Prop) (x : σ × σ) (e : Twin ε) : Prop :=
  (∀ a ∈ e.fst, P x.1 a) ∧ ∀ a ∈ e.snd, P x.2 a

instance {P : σ → ε → Prop} [∀ s a, Decidable (P s a)] (x : σ × σ) (e : Twin ε) :
    Decidable (e.Each P x) :=
  inferInstanceAs (Decidable ((∀ a ∈ e.fst, P x.1 a) ∧ ∀ a ∈ e.snd, P x.2 a))

end Twin

/-- One move of a pair of states. -/
def twinStep (step : σ → ε → Option σ) (x : σ × σ) : Twin ε → Option (σ × σ)
  | .both e e' => (step x.1 e).bind fun s => (step x.2 e').map fun t => (s, t)
  | .first e => (step x.1 e).map fun s => (s, x.2)
  | .second e' => (step x.2 e').map fun t => (x.1, t)

variable {step : σ → ε → Option σ}

/-- A run of moves is a run of the events of the first side and one of the
events of the second side. -/
lemma run_twinStep {es : List (Twin ε)} {s t s' t' : σ} :
    run (twinStep step) (s, t) es = some (s', t') ↔
      run step s (es.filterMap Twin.fst) = some s' ∧
        run step t (es.filterMap Twin.snd) = some t' := by
  induction es generalizing s t with
  | nil => simp [run]
  | cons e es ih =>
      cases e with
      | both e e' =>
          simp only [List.filterMap_cons, Twin.fst, Twin.snd, run_cons]
          constructor
          · rintro ⟨⟨u, v⟩, huv, hrest⟩
            obtain ⟨u', hu, huv⟩ := Option.bind_eq_some_iff.mp huv
            obtain ⟨v', hv, huv⟩ := Option.map_eq_some_iff.mp huv
            obtain ⟨rfl, rfl⟩ := Prod.mk.inj huv
            obtain ⟨hs', ht'⟩ := ih.mp hrest
            exact ⟨⟨u', hu, hs'⟩, v', hv, ht'⟩
          · rintro ⟨⟨u, hu, hs'⟩, v, hv, ht'⟩
            exact ⟨(u, v), by simp [twinStep, hu, hv], ih.mpr ⟨hs', ht'⟩⟩
      | first e =>
          simp only [List.filterMap_cons, Twin.fst, Twin.snd, run_cons]
          constructor
          · rintro ⟨⟨u, v⟩, huv, hrest⟩
            obtain ⟨u', hu, huv⟩ := Option.map_eq_some_iff.mp huv
            obtain ⟨rfl, rfl⟩ := Prod.mk.inj huv
            obtain ⟨hs', ht'⟩ := ih.mp hrest
            exact ⟨⟨u', hu, hs'⟩, ht'⟩
          · rintro ⟨⟨u, hu, hs'⟩, ht'⟩
            exact ⟨(u, t), by simp [twinStep, hu], ih.mpr ⟨hs', ht'⟩⟩
      | second e' =>
          simp only [List.filterMap_cons, Twin.fst, Twin.snd, run_cons]
          constructor
          · rintro ⟨⟨u, v⟩, huv, hrest⟩
            obtain ⟨v', hv, huv⟩ := Option.map_eq_some_iff.mp huv
            obtain ⟨rfl, rfl⟩ := Prod.mk.inj huv
            obtain ⟨hs', ht'⟩ := ih.mp hrest
            exact ⟨hs', v', hv, ht'⟩
          · rintro ⟨hs', v, hv, ht'⟩
            exact ⟨(s, v), by simp [twinStep, hv], ih.mpr ⟨hs', ht'⟩⟩

end Transition
