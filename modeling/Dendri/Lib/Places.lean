import Mathlib.Data.List.Nodup
import Mathlib.Data.List.Sublists

/-!
Lists that entries are taken from and added to, and items that are told apart
over several lists.

* `Grows p old new`: some entries of `old` are left, in their order, and the
  entries added behind them satisfy `p`;
* `Scattered l`: no item is in two of the lists `l i`, or twice in one;
* `Scattered.of_sublist`, `Scattered.move`, `Scattered.add`: items are dropped,
  moved from one list to another, or come in new.
-/

namespace Places

variable {α β ι : Type*}

/-! ### Lists over time -/

/-- The list `new` is a part of `old`, followed by entries that satisfy `p`. -/
def Grows (p : α → Prop) (old new : List α) : Prop :=
  ∃ kept added, kept.Sublist old ∧ new = kept ++ added ∧ ∀ a ∈ added, p a

namespace Grows

variable {p : α → Prop} {l m n : List α}

lemma refl (p : α → Prop) (l : List α) : Grows p l l :=
  ⟨l, [], List.Sublist.refl l, (List.append_nil l).symm, by simp⟩

lemma of_sublist (h : m.Sublist l) : Grows p l m :=
  ⟨m, [], h, (List.append_nil m).symm, by simp⟩

lemma append {added : List α} (h : ∀ a ∈ added, p a) : Grows p l (l ++ added) :=
  ⟨l, added, List.Sublist.refl l, rfl, h⟩

lemma trans (h : Grows p l m) (h' : Grows p m n) : Grows p l n := by
  obtain ⟨kept, added, hkept, rfl, hadded⟩ := h
  obtain ⟨kept', added', hkept', rfl, hadded'⟩ := h'
  -- what is left of `m` is some of the old entries and some of the added ones
  obtain ⟨old, new, rfl, hold, hnew⟩ := List.sublist_append_iff.mp hkept'
  refine ⟨old, new ++ added', hold.trans hkept, List.append_assoc old new added', ?_⟩
  intro a ha
  rcases List.mem_append.mp ha with ha | ha
  · exact hadded a (hnew.subset ha)
  · exact hadded' a ha

/-- An entry was there, or satisfies the property. -/
lemma mem (h : Grows p l m) {a : α} (ha : a ∈ m) : a ∈ l ∨ p a := by
  obtain ⟨kept, added, hkept, rfl, hadded⟩ := h
  exact (List.mem_append.mp ha).imp (fun ha => hkept.subset ha) (hadded a)

/-- What no added entry shows only gets less. -/
lemma filterMap_sublist {f : α → Option β} (h : Grows p l m) (hf : ∀ a, p a → f a = none) :
    (m.filterMap f).Sublist (l.filterMap f) := by
  obtain ⟨kept, added, hkept, rfl, hadded⟩ := h
  have hnone : added.filterMap f = [] :=
    List.filterMap_eq_nil_iff.mpr fun a ha => hf a (hadded a ha)
  rw [List.filterMap_append, hnone, List.append_nil]
  exact hkept.filterMap f

/-- If nothing can be added, the list only gets shorter. -/
lemma sublist (h : Grows p l m) (hp : ∀ a, ¬p a) : m.Sublist l := by
  obtain ⟨kept, added, hkept, rfl, hadded⟩ := h
  have hnil : added = [] := List.eq_nil_iff_forall_not_mem.mpr fun a ha => hp a (hadded a ha)
  rw [hnil, List.append_nil]
  exact hkept

end Grows

/-! ### Items told apart -/

/-- The items of all the lists are pairwise different. -/
structure Scattered (l : ι → List α) : Prop where
  nodup : ∀ i, (l i).Nodup
  disjoint : ∀ i j, i ≠ j → (l i).Disjoint (l j)

namespace Scattered

variable {l l' : ι → List α}

lemma of_sublist (h : Scattered l) (hsub : ∀ i, (l' i).Sublist (l i)) : Scattered l' where
  nodup i := (h.nodup i).sublist (hsub i)
  disjoint i j hij _ ha ha' := h.disjoint i j hij ((hsub i).subset ha) ((hsub j).subset ha')

/-- New items come into one of the lists. -/
lemma add (h : Scattered l) {i : ι} {new : List α} (hnew : new.Nodup)
    (hfresh : ∀ j, new.Disjoint (l j)) (hi : (l' i).Sublist (l i ++ new))
    (hsub : ∀ j, j ≠ i → (l' j).Sublist (l j)) : Scattered l' := by
  have hmem : ∀ a ∈ l' i, a ∈ l i ∨ a ∈ new := fun a ha => List.mem_append.mp (hi.subset ha)
  refine ⟨fun j => ?_, fun j k hjk a haj hak => ?_⟩
  · by_cases hj : j = i
    · rw [hj]
      refine List.Nodup.sublist hi (List.Nodup.append (h.nodup i) hnew ?_)
      exact List.disjoint_symm (hfresh i)
    · exact (h.nodup j).sublist (hsub j hj)
  · by_cases hj : j = i
    · have hk : k ≠ i := fun hk => hjk (hj.trans hk.symm)
      have hold := (hsub k hk).subset hak
      rcases hmem a (hj ▸ haj) with ha | ha
      · exact h.disjoint i k hk.symm ha hold
      · exact hfresh k ha hold
    · have hold := (hsub j hj).subset haj
      by_cases hk : k = i
      · rcases hmem a (hk ▸ hak) with ha | ha
        · exact h.disjoint j i hj hold ha
        · exact hfresh j ha hold
      · exact h.disjoint j k hjk hold ((hsub k hk).subset hak)

/-- The front of the list `j` is moved behind the list `i`. -/
lemma move [DecidableEq ι] (h : Scattered l) {i j : ι} {front back : List α} (hij : i ≠ j)
    (hj : l j = front ++ back) (hi' : l' i = l i ++ front) (hj' : l' j = back)
    (hrest : ∀ k, k ≠ i → k ≠ j → l' k = l k) : Scattered l' := by
  have hnodup := h.nodup j
  rw [hj] at hnodup
  obtain ⟨hfront, -, hapart⟩ := List.nodup_append'.mp hnodup
  -- first the front leaves `j`, then it is new everywhere
  have hleft : Scattered fun k => if k = j then back else l k := by
    refine h.of_sublist fun k => ?_
    split_ifs with hk
    · rw [hk, hj]
      exact List.sublist_append_right front back
    · exact List.Sublist.refl (l k)
  refine hleft.add (i := i) hfront (fun k a ha hk => ?_) ?_ fun k hk => ?_
  · split_ifs at hk with hkj
    · exact hapart ha hk
    · exact h.disjoint k j hkj hk (by rw [hj]; exact List.mem_append_left back ha)
  · rw [if_neg hij, hi']
  · split_ifs with hkj
    · rw [hkj, hj']
    · rw [hrest k hk hkj]

end Scattered

end Places
