import Mathlib.Data.List.Induction
import Mathlib.Tactic

/-!
Leases: a value that is granted for some time, and kept longer by renewals. A
renewal that comes late finds no value, and keeps the empty place.

* `Event`, `step`, `run`: the events of a lease and the place they lead to, the value
  in it with its deadline;
* `value`: what the place shows at a time;
* `Unbroken`: a deadline that is moved by renewals, each of which comes in time;
* `value_run_iff`: a value is shown just when it was granted and all events since are
  renewals that came in time.
-/

namespace Lease

variable {V : Type*}

/-- What happens to a lease. -/
inductive Event (V : Type*) where
  | grant (v : V) (duration : ℕ)
  | renew (duration : ℕ)
  | drop

/-- A place: a value, or none, and a deadline. -/
abbrev Place (V : Type*) := Option (Option V × ℕ)

/-- The value that is shown at the time `now`. -/
def value (now : ℕ) (p : Place V) : Option V := (p.filter fun x => decide (now < x.2)).bind Prod.fst

/-- One event, and when it happens. -/
def step (p : Place V) (e : ℕ × Event V) : Place V :=
  match e.2 with
  | .grant v duration => some (some v, e.1 + duration)
  | .renew duration => some (value e.1 p, e.1 + duration)
  | .drop => none

/-- Events one after the other, from an empty place. -/
def run (es : List (ℕ × Event V)) : Place V := es.foldl step none

/-- The deadline `d` is moved by renewals only, each of which comes before the deadline
of its time, and the time `now` comes before the last one. -/
def Unbroken : ℕ → List (ℕ × Event V) → ℕ → Prop
  | d, [], now => now < d
  | d, (time, .renew duration) :: es, now => time < d ∧ Unbroken (time + duration) es now
  | _, _ :: _, _ => False

instance Unbroken.decidable : ∀ d (es : List (ℕ × Event V)) now, Decidable (Unbroken d es now)
  | d, [], now => inferInstanceAs (Decidable (now < d))
  | d, (time, .renew duration) :: es, now =>
      have : Decidable (Unbroken (time + duration) es now) := decidable _ es now
      inferInstanceAs (Decidable (time < d ∧ Unbroken (time + duration) es now))
  | _, (_, .grant _ _) :: _, _ => isFalse fun h => h
  | _, (_, .drop) :: _, _ => isFalse fun h => h

lemma run_concat (es : List (ℕ × Event V)) (e : ℕ × Event V) : run (es ++ [e]) = step (run es) e :=
  List.foldl_concat step none e es

lemma value_some {now d : ℕ} {v : Option V} : value now (some (v, d)) = if now < d then v else none := by
  rw [value, Option.filter_some]
  by_cases h : now < d <;> simp [h]

/-- The last event of an unbroken lease is a renewal. -/
lemma unbroken_concat_iff {d now : ℕ} {es : List (ℕ × Event V)} {e : ℕ × Event V} :
    Unbroken d (es ++ [e]) now ↔
      ∃ duration, e.2 = .renew duration ∧ Unbroken d es e.1 ∧ now < e.1 + duration := by
  induction es generalizing d with
  | nil =>
      obtain ⟨time, event⟩ := e
      cases event with
      | renew duration => simp [Unbroken]
      | grant v duration => simp [Unbroken]
      | drop => simp [Unbroken]
  | cons e' es ih =>
      obtain ⟨time, event⟩ := e'
      cases event with
      | renew duration =>
          rw [List.cons_append, Unbroken, ih]
          constructor
          · rintro ⟨htime, duration', hrenew, hbefore, hnow⟩
            exact ⟨duration', hrenew, ⟨htime, hbefore⟩, hnow⟩
          · rintro ⟨duration', hrenew, ⟨htime, hbefore⟩, hnow⟩
            exact ⟨htime, duration', hrenew, hbefore, hnow⟩
      | grant v duration => simp [Unbroken]
      | drop => simp [Unbroken]

/-- A value was granted, and its lease is unbroken since. -/
def Granted (es : List (ℕ × Event V)) (v : V) (now : ℕ) : Prop :=
  ∃ before time duration after, es = before ++ (time, .grant v duration) :: after ∧
    Unbroken (time + duration) after now

/-- After one more event: it is the grant, or a renewal in time. -/
lemma granted_concat_iff {es : List (ℕ × Event V)} {e : ℕ × Event V} {v : V} {now : ℕ} :
    Granted (es ++ [e]) v now ↔ ∃ duration, now < e.1 + duration ∧
      (e.2 = .grant v duration ∨ (e.2 = .renew duration ∧ Granted es v e.1)) := by
  constructor
  · rintro ⟨before, time, duration, after, heq, hunbroken⟩
    rcases after.eq_nil_or_concat with rfl | ⟨after', e', rfl⟩
    · obtain ⟨-, hlast⟩ := List.append_inj' heq rfl
      rw [List.cons.injEq] at hlast
      rw [hlast.1]
      exact ⟨duration, hunbroken, Or.inl rfl⟩
    · rw [List.concat_eq_append, ← List.cons_append, ← List.append_assoc] at heq
      rw [List.concat_eq_append] at hunbroken
      obtain ⟨hes, hlast⟩ := List.append_inj' heq rfl
      obtain ⟨duration', hrenew, hbefore, hnow⟩ := unbroken_concat_iff.mp hunbroken
      rw [List.singleton_inj] at hlast
      rw [hlast]
      exact ⟨duration', hnow, Or.inr ⟨hrenew, before, time, duration, after', hes, hbefore⟩⟩
  · rintro ⟨duration, hnow, hgrant | ⟨hrenew, before, time, duration', after, rfl, hunbroken⟩⟩
    · refine ⟨es, e.1, duration, [], ?_, hnow⟩
      rw [← hgrant]
    · refine ⟨before, time, duration', after ++ [e], by simp, ?_⟩
      exact unbroken_concat_iff.mpr ⟨duration, hrenew, hunbroken, hnow⟩

/-- A value is shown just when it was granted and its lease is unbroken. -/
theorem value_run_iff (es : List (ℕ × Event V)) (v : V) (now : ℕ) :
    value now (run es) = some v ↔ Granted es v now := by
  induction es using List.reverseRecOn generalizing now with
  | nil =>
      constructor
      · intro h
        exact absurd h (by simp [run, value])
      · rintro ⟨before, time, duration, after, heq, -⟩
        exact absurd heq (by simp)
  | append_singleton es e ih =>
      obtain ⟨time, event⟩ := e
      rw [run_concat, granted_concat_iff]
      cases event with
      | grant w duration =>
          rw [step, value_some]
          constructor
          · intro h
            split_ifs at h with hnow
            rw [Option.some.inj h]
            exact ⟨duration, hnow, Or.inl rfl⟩
          · rintro ⟨duration', hnow, hgrant | ⟨hrenew, -⟩⟩
            · obtain ⟨rfl, rfl⟩ := Event.grant.inj hgrant
              rw [if_pos hnow]
            · exact absurd hrenew (by simp)
      | renew duration =>
          rw [step, value_some]
          constructor
          · intro h
            split_ifs at h with hnow
            exact ⟨duration, hnow, Or.inr ⟨rfl, (ih time).mp h⟩⟩
          · rintro ⟨duration', hnow, hgrant | ⟨hrenew, hgranted⟩⟩
            · exact absurd hgrant (by simp)
            · rw [← Event.renew.inj hrenew] at hnow
              rw [if_pos hnow]
              exact (ih time).mpr hgranted
      | drop =>
          constructor
          · intro h
            exact absurd h (by simp [step, value])
          · rintro ⟨duration, -, hgrant | ⟨hrenew, -⟩⟩
            · exact absurd hgrant (by simp)
            · exact absurd hrenew (by simp)

end Lease
