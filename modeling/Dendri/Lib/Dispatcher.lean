import Dendri.Lib.Transition

/-!
A bounded queue and a worker that sends its elements one after the other, each a bounded
number of times until it is answered.

* `Limits`: the capacity, the number of attempts and the pause after each failure;
* `Dispatcher`: the queue, the worker and what has happened so far;
* `offer`, `work`: an element is offered; the worker takes the next one, its request is
  answered, its pause ends;
* `Settles`: the answers to one element: failures and then a success, or as many failures
  as there are attempts;
* `Offered`, `offered_foldl`: elements are offered in turn, accepted while the queue has
  places, and dropped where it is full;
* `Orderly`, `Splits`: the invariants. The answers are those of the accepted elements in
  turn, and every offered element was accepted or dropped, in the order of the offers;
* `pending`, `pending_of_work`, `exists_work`: the worker comes to an end.
-/

namespace Dispatch

variable {E : Type*}

/-- The bounds of a dispatcher. -/
structure Limits where
  capacity : ℕ
  attempts : ℕ
  pause : ℕ → ℕ
  attempts_pos : 0 < attempts

/-- What the worker does: nothing, or an element is sent for the `n`-th time, counted from
zero, or its `n`-th request has failed and the next one has to wait. -/
inductive Worker (E : Type*) where
  | idle
  | sending (e : E) (n : ℕ)
  | waiting (e : E) (n : ℕ) (wakeAt : ℕ)

namespace Worker

/-- The element in work. -/
def element : Worker E → Option E
  | idle => none
  | sending e _ | waiting e _ _ => some e

/-- The failures of the element in work. -/
def failures : Worker E → List (E × Bool)
  | idle => []
  | sending e n => List.replicate n (e, false)
  | waiting e n _ => List.replicate (n + 1) (e, false)

/-- No more requests than attempts. -/
def Within (attempts : ℕ) : Worker E → Prop
  | idle => True
  | sending _ n => n < attempts
  | waiting _ n _ => n + 1 < attempts

end Worker

/-- The queue and the worker, with the elements that were accepted and dropped and the
answers to requests, oldest first. -/
structure Dispatcher (E : Type*) where
  queue : List E := []
  worker : Worker E := .idle
  accepted : List E := []
  dropped : List E := []
  answers : List (E × Bool) := []

/-- An element is offered. -/
def offer (p : Limits) (s : Dispatcher E) (e : E) : Dispatcher E :=
  if s.queue.length < p.capacity then
    { s with queue := s.queue ++ [e], accepted := s.accepted ++ [e] }
  else { s with dropped := s.dropped ++ [e] }

/-- What can happen to the worker. -/
inductive Work where
  | take
  | answer (ok : Bool)
  | wake

/-- One action of the worker at the time `now`. -/
def work (p : Limits) (s : Dispatcher E) (now : ℕ) : Work → Option (Dispatcher E)
  | .take =>
      match s.worker, s.queue with
      | .idle, e :: queue => some { s with queue := queue, worker := .sending e 0 }
      | _, _ => none
  | .answer ok =>
      match s.worker with
      | .sending e n =>
          some { s with
            worker :=
              if ok = true ∨ n + 1 = p.attempts then .idle else .waiting e n (now + p.pause n)
            answers := s.answers ++ [(e, ok)] }
      | _ => none
  | .wake =>
      match s.worker with
      | .waiting e n wakeAt =>
          if wakeAt ≤ now then some { s with worker := .sending e (n + 1) } else none
      | _ => none

/-- What a step of the worker is. -/
inductive Works (p : Limits) (s : Dispatcher E) (now : ℕ) : Work → Dispatcher E → Prop
  | take (e : E) (queue : List E) (hw : s.worker = .idle) (hq : s.queue = e :: queue) :
      Works p s now .take { s with queue := queue, worker := .sending e 0 }
  | last (ok : Bool) (e : E) (n : ℕ) (hw : s.worker = .sending e n)
      (hlast : ok = true ∨ n + 1 = p.attempts) :
      Works p s now (.answer ok)
        { s with worker := .idle, answers := s.answers ++ [(e, ok)] }
  | failed (e : E) (n : ℕ) (hw : s.worker = .sending e n) (hmore : n + 1 ≠ p.attempts) :
      Works p s now (.answer false)
        { s with worker := .waiting e n (now + p.pause n), answers := s.answers ++ [(e, false)] }
  | wake (e : E) (n wakeAt : ℕ) (hw : s.worker = .waiting e n wakeAt) (hnow : wakeAt ≤ now) :
      Works p s now .wake { s with worker := .sending e (n + 1) }

/-- Every step of the worker is one of these. -/
lemma works_of_work {p : Limits} {s s' : Dispatcher E} {now : ℕ} {t : Work}
    (h : work p s now t = some s') : Works p s now t s' := by
  cases t with
  | take =>
      rw [work] at h
      split at h
      · next e queue hw hq =>
          rw [← Option.some.inj h]
          exact .take e queue hw hq
      · exact absurd h (by simp)
  | answer ok =>
      rw [work] at h
      split at h
      · next e n hw =>
          rw [← Option.some.inj h]
          by_cases hlast : ok = true ∨ n + 1 = p.attempts
          · rw [if_pos hlast]
            exact .last ok e n hw hlast
          · rw [if_neg hlast]
            rw [not_or, Bool.not_eq_true] at hlast
            obtain ⟨rfl, hmore⟩ := hlast
            exact .failed e n hw hmore
      · exact absurd h (by simp)
  | wake =>
      rw [work] at h
      split at h
      · next e n wakeAt hw =>
          split_ifs at h with hnow
          rw [← Option.some.inj h]
          exact .wake e n wakeAt hw hnow
      · exact absurd h (by simp)

/-! ### The order of the answers -/

/-- The answers to an element that is done with. -/
def Settles (attempts : ℕ) (e : E) (block : List (E × Bool)) : Prop :=
  (∃ k < attempts, block = List.replicate k (e, false) ++ [(e, true)]) ∨
    block = List.replicate attempts (e, false)

lemma settles_last {attempts n : ℕ} {e : E} {ok : Bool} (hn : n < attempts)
    (hlast : ok = true ∨ n + 1 = attempts) :
    Settles attempts e (List.replicate n (e, false) ++ [(e, ok)]) := by
  cases ok with
  | true => exact Or.inl ⟨n, hn, rfl⟩
  | false =>
      have hattempts : n + 1 = attempts := hlast.resolve_left (by simp)
      rw [← hattempts]
      exact Or.inr List.replicate_succ'.symm

/-- An element that is done with was sent at least once, and not more often than allowed. -/
lemma Settles.length {attempts : ℕ} {e : E} {block : List (E × Bool)} (hpos : 0 < attempts)
    (h : Settles attempts e block) :
    0 < block.length ∧ block.length ≤ attempts ∧ ∀ a ∈ block, a.1 = e := by
  rcases h with ⟨k, hk, rfl⟩ | rfl
  · rw [List.length_append, List.length_replicate, List.length_singleton]
    refine ⟨by omega, by omega, fun a ha => ?_⟩
    rcases List.mem_append.mp ha with ha | ha
    · rw [List.eq_of_mem_replicate ha]
    · rw [List.mem_singleton.mp ha]
  · rw [List.length_replicate]
    exact ⟨hpos, le_rfl, fun a ha => by rw [List.eq_of_mem_replicate ha]⟩

/-- Every accepted element is done with, in work or in the queue, in this order, and the
answers are those of the elements in turn. -/
structure Orderly (p : Limits) (s : Dispatcher E) : Prop where
  settled : ∃ (settled : List E) (blocks : List (List (E × Bool))),
    s.accepted = settled ++ (s.worker.element.toList ++ s.queue) ∧
      List.Forall₂ (Settles p.attempts) settled blocks ∧
      s.answers = blocks.flatten ++ s.worker.failures
  within : s.worker.Within p.attempts
  bounded : s.queue.length ≤ p.capacity

lemma orderly_fresh (p : Limits) : Orderly p ({} : Dispatcher E) :=
  ⟨⟨[], [], rfl, .nil, rfl⟩, trivial, Nat.zero_le _⟩

lemma Orderly.offer {p : Limits} {s : Dispatcher E} (h : Orderly p s) (e : E) :
    Orderly p (offer p s e) := by
  obtain ⟨⟨settled, blocks, haccepted, hblocks, hanswers⟩, hwithin, hbounded⟩ := h
  rw [Dispatch.offer]
  split_ifs with hroom
  · refine ⟨⟨settled, blocks, ?_, hblocks, hanswers⟩, hwithin, ?_⟩
    · simp only [haccepted, List.append_assoc]
    · rw [List.length_append, List.length_singleton]
      omega
  · exact ⟨⟨settled, blocks, haccepted, hblocks, hanswers⟩, hwithin, hbounded⟩

lemma Orderly.work {p : Limits} {s s' : Dispatcher E} {now : ℕ} {t : Work} (h : Orderly p s)
    (hs : work p s now t = some s') : Orderly p s' := by
  obtain ⟨⟨settled, blocks, haccepted, hblocks, hanswers⟩, hwithin, hbounded⟩ := h
  cases works_of_work hs with
  | take e queue hw hq =>
      rw [hw, hq] at haccepted
      rw [hw] at hanswers
      rw [hq, List.length_cons] at hbounded
      exact ⟨⟨settled, blocks, haccepted, hblocks, hanswers⟩, p.attempts_pos, by
        show queue.length ≤ p.capacity; omega⟩
  | last ok e n hw hlast =>
      rw [hw] at haccepted hwithin hanswers
      have hn : n < p.attempts := hwithin
      refine ⟨⟨settled ++ [e], blocks ++ [List.replicate n (e, false) ++ [(e, ok)]], ?_, ?_, ?_⟩,
        trivial, hbounded⟩
      · rw [haccepted]
        simp [Worker.element]
      · exact List.rel_append hblocks (.cons (settles_last hn hlast) .nil)
      · rw [hanswers]
        simp [Worker.failures]
  | failed e n hw hmore =>
      rw [hw] at haccepted hwithin hanswers
      have hn : n < p.attempts := hwithin
      refine ⟨⟨settled, blocks, haccepted, hblocks, ?_⟩, ?_, hbounded⟩
      · calc s.answers ++ [(e, false)]
            = blocks.flatten ++ (List.replicate n (e, false) ++ [(e, false)]) := by
              rw [hanswers, List.append_assoc]
              rfl
          _ = blocks.flatten ++ List.replicate (n + 1) (e, false) := by
              rw [List.replicate_succ']
      · show n + 1 < p.attempts
        omega
  | wake e n wakeAt hw hnow =>
      rw [hw] at haccepted hwithin hanswers
      exact ⟨⟨settled, blocks, haccepted, hblocks, hanswers⟩, hwithin, hbounded⟩

/-! ### What becomes of the offers -/

/-- Some elements were offered in turn, while the worker did nothing. The queue had
`p.capacity - s.queue.length` places: so many elements were accepted, and each of the others
was dropped because it found the queue full. -/
structure Offered (p : Limits) (s : Dispatcher E) (es : List E) (s' : Dispatcher E) : Prop where
  queue : s'.queue = s.queue ++ es.take (p.capacity - s.queue.length)
  accepted : s'.accepted = s.accepted ++ es.take (p.capacity - s.queue.length)
  dropped : s'.dropped = s.dropped ++ es.drop (p.capacity - s.queue.length)
  worker : s'.worker = s.worker
  answers : s'.answers = s.answers

/-- One element takes a place of the queue, or finds it full. -/
lemma offered_offer (p : Limits) (s : Dispatcher E) (e : E) : Offered p s [e] (offer p s e) := by
  rw [offer]
  split_ifs with hroom
  · have hplaces : 1 ≤ p.capacity - s.queue.length := by omega
    have htake : [e].take (p.capacity - s.queue.length) = [e] := List.take_of_length_le hplaces
    have hdrop : [e].drop (p.capacity - s.queue.length) = [] := List.drop_of_length_le hplaces
    exact ⟨by rw [htake], by rw [htake], by rw [hdrop, List.append_nil], rfl, rfl⟩
  · have hplaces : p.capacity - s.queue.length = 0 := by omega
    exact ⟨by simp [hplaces], by simp [hplaces], by simp [hplaces], rfl, rfl⟩

/-- Offers after offers use the places that are left. -/
lemma Offered.trans {p : Limits} {s u s' : Dispatcher E} {es es' : List E} (h : Offered p s es u)
    (h' : Offered p u es' s') : Offered p s (es ++ es') s' := by
  obtain ⟨hqueue, haccepted, hdropped, hworker, hanswers⟩ := h
  have hplaces : p.capacity - u.queue.length = p.capacity - s.queue.length - es.length := by
    rw [hqueue, List.length_append, List.length_take]
    omega
  have htake : (es ++ es').take (p.capacity - s.queue.length) =
      es.take (p.capacity - s.queue.length) ++ es'.take (p.capacity - u.queue.length) := by
    rw [List.take_append, hplaces]
  have hdrop : (es ++ es').drop (p.capacity - s.queue.length) =
      es.drop (p.capacity - s.queue.length) ++ es'.drop (p.capacity - u.queue.length) := by
    rw [List.drop_append, hplaces]
  refine ⟨?_, ?_, ?_, h'.worker.trans hworker, h'.answers.trans hanswers⟩
  · rw [h'.queue, hqueue, htake, List.append_assoc, hqueue]
  · rw [h'.accepted, haccepted, htake, List.append_assoc]
  · rw [h'.dropped, hdropped, hdrop, List.append_assoc]

lemma offered_foldl (p : Limits) (s : Dispatcher E) (es : List E) :
    Offered p s es (es.foldl (offer p) s) := by
  induction es generalizing s with
  | nil => exact ⟨by simp, by simp, by simp, rfl, rfl⟩
  | cons e es ih => exact (offered_offer p s e).trans (ih (offer p s e))

/-- The worker accepts and drops nothing. -/
lemma offers_of_work {p : Limits} {s s' : Dispatcher E} {now : ℕ} {t : Work}
    (h : work p s now t = some s') : s'.accepted = s.accepted ∧ s'.dropped = s.dropped := by
  cases works_of_work h <;> exact ⟨rfl, rfl⟩

/-- All the offered elements were accepted or dropped, each in the order of the offers. If
one was dropped, a whole queue was accepted before. -/
structure Splits (p : Limits) (s : Dispatcher E) (offered : List E) : Prop where
  accepted : s.accepted.Sublist offered
  dropped : s.dropped.Sublist offered
  length : s.accepted.length + s.dropped.length = offered.length
  behind : s.dropped ≠ [] → p.capacity ≤ s.accepted.length

lemma splits_fresh (p : Limits) : Splits p ({} : Dispatcher E) [] :=
  ⟨.slnil, .slnil, rfl, fun h => absurd rfl h⟩

lemma Splits.offer {p : Limits} {s : Dispatcher E} {offered : List E} (h : Splits p s offered)
    (hs : Orderly p s) (e : E) : Splits p (offer p s e) (offered ++ [e]) := by
  obtain ⟨haccepted, hdropped, hlength, hbehind⟩ := h
  have hqueue : s.queue.length ≤ s.accepted.length := by
    obtain ⟨settled, blocks, heq, -, -⟩ := hs.settled
    rw [heq, List.length_append, List.length_append]
    omega
  rw [Dispatch.offer]
  split_ifs with hroom
  · refine ⟨haccepted.append (List.Sublist.refl [e]),
      hdropped.trans (List.sublist_append_left _ _), ?_, fun hd => ?_⟩
    · simp only [List.length_append, List.length_singleton]
      omega
    · have hle := hbehind hd
      rw [List.length_append]
      omega
  · refine ⟨haccepted.trans (List.sublist_append_left _ _),
      hdropped.append (List.Sublist.refl [e]), ?_, fun _ => ?_⟩
    · simp only [List.length_append, List.length_singleton]
      omega
    · show p.capacity ≤ s.accepted.length
      omega

lemma Splits.work {p : Limits} {s s' : Dispatcher E} {offered : List E} {now : ℕ} {t : Work}
    (h : Splits p s offered) (hs : work p s now t = some s') : Splits p s' offered := by
  obtain ⟨haccepted, hdropped⟩ := offers_of_work hs
  exact ⟨haccepted ▸ h.accepted, hdropped ▸ h.dropped, haccepted ▸ hdropped ▸ h.length,
    haccepted ▸ hdropped ▸ h.behind⟩

/-- No more offers than the queue has places, and none is dropped. -/
lemma Splits.dropped_eq_nil {p : Limits} {s : Dispatcher E} {offered : List E}
    (h : Splits p s offered) (hle : offered.length ≤ p.capacity) : s.dropped = [] := by
  by_contra hne
  have hbehind := h.behind hne
  have hlength := h.length
  have hpos := List.length_pos_iff.mpr hne
  omega

/-- Where nothing was dropped, everything was accepted. -/
lemma Splits.accepted_eq {p : Limits} {s : Dispatcher E} {offered : List E}
    (h : Splits p s offered) (hnil : s.dropped = []) : s.accepted = offered := by
  have hlength := h.length
  rw [hnil, List.length_nil, Nat.add_zero] at hlength
  exact h.accepted.eq_of_length hlength

/-! ### The worker comes to an end -/

/-- How many more actions the element in work can take. -/
def Worker.pending (attempts : ℕ) : Worker E → ℕ
  | .idle => 0
  | .sending _ n => 2 * (attempts - n) - 1
  | .waiting _ n _ => 2 * (attempts - (n + 1))

/-- How many more actions of the worker there can be before it waits for an offer. -/
def pending (p : Limits) (s : Dispatcher E) : ℕ :=
  s.queue.length * (2 * p.attempts) + s.worker.pending p.attempts

lemma pending_le {p : Limits} {s : Dispatcher E} (h : Orderly p s) :
    pending p s < (p.capacity + 1) * (2 * p.attempts) := by
  have hpos := p.attempts_pos
  have hqueue := Nat.mul_le_mul_right (2 * p.attempts) h.bounded
  have hworker : s.worker.pending p.attempts < 2 * p.attempts := by
    cases s.worker with
    | idle => show 0 < _; omega
    | sending e n => show 2 * (p.attempts - n) - 1 < _; omega
    | waiting e n wakeAt => show 2 * (p.attempts - (n + 1)) < _; omega
  rw [pending, Nat.add_mul, Nat.one_mul]
  omega

/-- Each action of the worker is a step to the end. -/
lemma pending_of_work {p : Limits} {s s' : Dispatcher E} {now : ℕ} {t : Work} (h : Orderly p s)
    (hs : work p s now t = some s') : pending p s' < pending p s := by
  have hpos := p.attempts_pos
  have hwithin := h.within
  cases works_of_work hs with
  | take e queue hw hq =>
      rw [pending, pending, hw, hq]
      simp only [Worker.pending, List.length_cons, Nat.succ_mul]
      omega
  | last ok e n hw hlast =>
      rw [hw, Worker.Within] at hwithin
      rw [pending, pending, hw]
      simp only [Worker.pending]
      omega
  | failed e n hw hmore =>
      rw [hw, Worker.Within] at hwithin
      rw [pending, pending, hw]
      simp only [Worker.pending]
      omega
  | wake e n wakeAt hw hnow =>
      rw [hw, Worker.Within] at hwithin
      rw [pending, pending, hw]
      simp only [Worker.pending]
      omega

/-- While there is something to do, the worker can go on, at the latest when its pause is
over and if each request is answered. -/
lemma exists_work {p : Limits} {s : Dispatcher E}
    (htodo : s.worker.element.toList ++ s.queue ≠ []) :
    ∃ (now : ℕ) (t : Work) (s' : Dispatcher E), work p s now t = some s' := by
  cases hw : s.worker with
  | idle =>
      cases hq : s.queue with
      | nil => rw [hw, hq] at htodo; exact absurd rfl htodo
      | cons e queue => exact ⟨0, .take, _, by rw [work, hw, hq]⟩
  | sending e n => exact ⟨0, .answer true, _, by rw [work, hw]⟩
  | waiting e n wakeAt => exact ⟨wakeAt, .wake, _, by rw [work, hw]; exact if_pos le_rfl⟩

/-- A run of the worker alone is not longer than what was pending. -/
lemma length_le_pending {p : Limits} {s s' : Dispatcher E} {ts : List (ℕ × Work)}
    (h : Orderly p s) (hrun : Transition.run (fun s t => work p s t.1 t.2) s ts = some s') :
    Orderly p s' ∧ ts.length + pending p s' ≤ pending p s := by
  induction ts generalizing s with
  | nil =>
      rw [Transition.run, Option.some.injEq] at hrun
      rw [← hrun, List.length_nil, Nat.zero_add]
      exact ⟨h, le_rfl⟩
  | cons t ts ih =>
      obtain ⟨u, hu, hrest⟩ := Transition.run_cons.mp hrun
      have hless := pending_of_work h hu
      obtain ⟨hs', hle⟩ := ih (h.work hu) hrest
      rw [List.length_cons]
      exact ⟨hs', by omega⟩

/-- The worker alone can finish what there is to do. -/
lemma exists_run_done {p : Limits} {s : Dispatcher E} (h : Orderly p s) :
    ∃ (ts : List (ℕ × Work)) (s' : Dispatcher E),
      Transition.run (fun s t => work p s t.1 t.2) s ts = some s' ∧
        s'.worker.element.toList ++ s'.queue = [] := by
  induction hn : pending p s using Nat.strong_induction_on generalizing s with
  | _ n ih =>
      by_cases htodo : s.worker.element.toList ++ s.queue = []
      · exact ⟨[], s, rfl, htodo⟩
      · obtain ⟨now, t, u, hu⟩ := exists_work (p := p) htodo
        have hless := pending_of_work h hu
        obtain ⟨ts, s', hrun, hdone⟩ := ih (pending p u) (by omega) (h.work hu) rfl
        exact ⟨(now, t) :: ts, s', Transition.run_cons.mpr ⟨u, hu, hrun⟩, hdone⟩

end Dispatch
