import Mathlib.Data.Finmap
import Mathlib.Data.List.Sort
import Mathlib.Tactic

/-!
Finite maps with a constant value type, on top of Mathlib's `Finmap`: the
lookup rules in `if` form, so that a chain of writes is read off by `simp`,
the in-place update of one entry, and the keys of a map after one write.

* `lookup_insert_ite`, `lookup_erase_ite`: a read after one write;
* `lookup_insert_eq_update`, `lookup_erase_eq_update`: writes and removals as
  updates of the partial function that a map is;
* `modify`: apply a function to the value at a key, if there is one;
  `lookup_modify` and `keys_modify` say what it does and that it adds no key;
* `insertOpt`: write an optional value, if there is one;
* `tabulate`: the values of a partial function on a finite set of keys; `mapVals`: a
  function applied to all values; `retain`: the entries with some keys;
* `keys_insert`: the keys after a write;
* `SetOrder`: an order in which the elements of a finite set are visited. A
  loop over a hash set or a hash map visits it in an order the program does
  not fix, so such a loop is stated over an arbitrary `SetOrder`;
  `SetOrder.sorted` is one that can be evaluated.
-/

namespace FinMap

variable {α β : Type*} [DecidableEq α]

/-- A read after an insertion. -/
lemma lookup_insert_ite (m : Finmap fun _ : α => β) (k a : α) (v : β) :
    (m.insert k v).lookup a = if a = k then some v else m.lookup a := by
  by_cases h : a = k
  · subst h
    rw [if_pos rfl, Finmap.lookup_insert]
  · rw [if_neg h, Finmap.lookup_insert_of_ne m h]

/-- A read after a removal. -/
lemma lookup_erase_ite (m : Finmap fun _ : α => β) (k a : α) :
    (m.erase k).lookup a = if a = k then none else m.lookup a := by
  by_cases h : a = k
  · subst h
    rw [if_pos rfl, Finmap.lookup_erase]
  · rw [if_neg h, Finmap.lookup_erase_ne h]

/-- Removing an absent key changes nothing. -/
lemma erase_eq_self {m : Finmap fun _ : α => β} {k : α} (h : m.lookup k = none) :
    m.erase k = m := by
  refine Finmap.ext_lookup fun a => ?_
  rw [lookup_erase_ite]
  split_ifs with hak
  · rw [hak, h]
  · rfl

/-- Removing a key that was just written. -/
lemma erase_insert (m : Finmap fun _ : α => β) (k : α) (v : β) :
    (m.insert k v).erase k = m.erase k := by
  refine Finmap.ext_lookup fun a => ?_
  rw [lookup_erase_ite, lookup_erase_ite, lookup_insert_ite]
  split_ifs <;> rfl

/-- A removal changes nothing only when the key was absent. -/
lemma erase_eq_self_iff {m : Finmap fun _ : α => β} {k : α} :
    m.erase k = m ↔ m.lookup k = none :=
  ⟨fun h => by rw [← h, Finmap.lookup_erase], erase_eq_self⟩

/-- Writing back the value that is already there changes nothing. -/
lemma insert_eq_self_iff {m : Finmap fun _ : α => β} {k : α} {v : β} :
    m.insert k v = m ↔ m.lookup k = some v := by
  constructor
  · intro h
    rw [← h, Finmap.lookup_insert]
  · intro h
    refine Finmap.ext_lookup fun a => ?_
    rw [lookup_insert_ite]
    split_ifs with hak
    · rw [hak, h]
    · rfl

/-! ### Reads as partial functions -/

/-- A write is an update of the partial function that the map is. -/
lemma lookup_insert_eq_update (m : Finmap fun _ : α => β) (k : α) (v : β) :
    (fun a => (m.insert k v).lookup a) = Function.update (fun a => m.lookup a) k (some v) := by
  funext a
  rw [lookup_insert_ite, Function.update_apply]

lemma lookup_erase_eq_update (m : Finmap fun _ : α => β) (k : α) :
    (fun a => (m.erase k).lookup a) = Function.update (fun a => m.lookup a) k none := by
  funext a
  rw [lookup_erase_ite, Function.update_apply]

lemma map_lookup_insert_eq_update {γ : Type*} (m : Finmap fun _ : α => β) (k : α) (v : β)
    (f : β → γ) : (fun a => ((m.insert k v).lookup a).map f) =
      Function.update (fun a => (m.lookup a).map f) k (some (f v)) := by
  funext a
  rw [lookup_insert_ite, Function.update_apply]
  split_ifs <;> rfl

lemma map_lookup_erase_eq_update {γ : Type*} (m : Finmap fun _ : α => β) (k : α) (f : β → γ) :
    (fun a => ((m.erase k).lookup a).map f) =
      Function.update (fun a => (m.lookup a).map f) k none := by
  funext a
  rw [lookup_erase_ite, Function.update_apply]
  split_ifs <;> rfl

/-! ### Updating one entry in place -/

/-- Apply `f` to the value at `k`; a map without `k` is returned as it is. -/
def modify (m : Finmap fun _ : α => β) (k : α) (f : β → β) : Finmap fun _ : α => β :=
  match m.lookup k with
  | some v => m.insert k (f v)
  | none => m

/-- A read after an update in place. -/
lemma lookup_modify (m : Finmap fun _ : α => β) (k a : α) (f : β → β) :
    (modify m k f).lookup a = if a = k then (m.lookup k).map f else m.lookup a := by
  rw [modify]
  cases h : m.lookup k with
  | none =>
      split_ifs with hak
      · rw [hak, h, Option.map_none]
      · rfl
  | some v => rw [lookup_insert_ite, Option.map_some]

/-- An update in place keeps the set of keys. -/
lemma mem_modify {m : Finmap fun _ : α => β} {k a : α} {f : β → β} :
    a ∈ modify m k f ↔ a ∈ m := by
  rw [← Finmap.lookup_isSome, ← Finmap.lookup_isSome, lookup_modify]
  split_ifs with hak
  · rw [hak, Option.isSome_map]
  · rfl

lemma keys_modify (m : Finmap fun _ : α => β) (k : α) (f : β → β) :
    (modify m k f).keys = m.keys := by
  ext a
  rw [Finmap.mem_keys, Finmap.mem_keys, mem_modify]

/-! ### Writing an optional value -/

/-- Write the value at `k`, if there is one. -/
def insertOpt (m : Finmap fun _ : α => β) (k : α) : Option β → Finmap fun _ : α => β
  | some v => m.insert k v
  | none => m

/-- A read after writing an optional value. -/
lemma lookup_insertOpt (m : Finmap fun _ : α => β) (k a : α) (v : Option β) :
    (insertOpt m k v).lookup a = if a = k then v.or (m.lookup k) else m.lookup a := by
  cases v with
  | none =>
      rw [insertOpt, Option.none_or]
      split_ifs with hak
      · rw [hak]
      · rfl
  | some v => rw [insertOpt, lookup_insert_ite, Option.some_or]

/-! ### The values of a function -/

instance leftCommutative_insertOpt (f : α → Option β) :
    LeftCommutative fun k m => insertOpt m k (f k) where
  left_comm k l m := by
    refine Finmap.ext_lookup fun a => ?_
    simp only [lookup_insertOpt]
    by_cases hk : a = k <;> by_cases hl : a = l
    · rw [← hk, ← hl]
    · subst hk
      simp [hl]
    · subst hl
      simp [hk]
    · simp [hk, hl]

/-- The values of `f` on the keys `ks`. -/
def tabulate (ks : Finset α) (f : α → Option β) : Finmap fun _ : α => β :=
  ks.val.foldr (fun k m => insertOpt m k (f k)) ∅

lemma lookup_tabulate (ks : Finset α) (f : α → Option β) (a : α) :
    (tabulate ks f).lookup a = if a ∈ ks then f a else none := by
  obtain ⟨s, hs⟩ := ks
  rw [tabulate]
  show Finmap.lookup a (s.foldr (fun k m => insertOpt m k (f k)) ∅) = if a ∈ s then f a else none
  clear hs
  induction s using Multiset.induction with
  | empty => rfl
  | cons k s ih =>
      rw [Multiset.foldr_cons, lookup_insertOpt]
      simp only [Multiset.mem_cons]
      by_cases hak : a = k
      · subst hak
        rw [if_pos rfl, if_pos (Or.inl rfl), ih]
        split_ifs
        · exact Option.or_self
        · exact Option.or_none
      · rw [if_neg hak, ih]
        simp only [hak, false_or]

/-- Apply `f` to all values. -/
def mapVals {γ : Type*} (f : β → γ) (m : Finmap fun _ : α => β) : Finmap fun _ : α => γ :=
  tabulate m.keys fun k => (m.lookup k).map f

section MapVals

variable {γ : Type*} (f : β → γ) (m : Finmap fun _ : α => β)

lemma lookup_mapVals (a : α) : (mapVals f m).lookup a = (m.lookup a).map f := by
  rw [mapVals, lookup_tabulate]
  split_ifs with ha
  · rfl
  · rw [Finmap.mem_keys, ← Finmap.lookup_eq_none] at ha
    rw [ha, Option.map_none]

lemma mapVals_insert (k : α) (v : β) : mapVals f (m.insert k v) = (mapVals f m).insert k (f v) := by
  refine Finmap.ext_lookup fun a => ?_
  rw [lookup_mapVals, lookup_insert_ite, lookup_insert_ite, lookup_mapVals]
  split_ifs <;> rfl

lemma mapVals_erase (k : α) : mapVals f (m.erase k) = (mapVals f m).erase k := by
  refine Finmap.ext_lookup fun a => ?_
  rw [lookup_mapVals, lookup_erase_ite, lookup_erase_ite, lookup_mapVals]
  split_ifs <;> rfl

lemma keys_mapVals : (mapVals f m).keys = m.keys := by
  ext a
  rw [Finmap.mem_keys, Finmap.mem_keys, ← Finmap.lookup_isSome, ← Finmap.lookup_isSome,
    lookup_mapVals, Option.isSome_map]

end MapVals

/-- Keep the entries whose keys satisfy `p`. -/
def retain (p : α → Bool) (m : Finmap fun _ : α => β) : Finmap fun _ : α => β :=
  tabulate (m.keys.filter fun k => p k) fun k => m.lookup k

lemma lookup_retain (p : α → Bool) (m : Finmap fun _ : α => β) (a : α) :
    (retain p m).lookup a = if p a then m.lookup a else none := by
  rw [retain, lookup_tabulate]
  simp only [Finset.mem_filter]
  by_cases ha : a ∈ m.keys
  · simp only [ha, true_and]
  · have hnone : m.lookup a = none := by
      rwa [Finmap.mem_keys, ← Finmap.lookup_eq_none] at ha
    rw [if_neg fun h => ha h.1, hnone, ite_self]

/-! ### The keys -/

lemma keys_insert (m : Finmap fun _ : α => β) (k : α) (v : β) :
    (m.insert k v).keys = insert k m.keys := by
  ext a
  rw [Finmap.mem_keys, Finmap.mem_insert, Finset.mem_insert, Finmap.mem_keys]

end FinMap

/-! ### The order of a loop over a finite set -/

/-- A way to list the elements of each finite set, each of them once. -/
structure SetOrder (α : Type*) where
  toList : Finset α → List α
  nodup_toList : ∀ s, (toList s).Nodup
  mem_toList : ∀ {s a}, a ∈ toList s ↔ a ∈ s

/-- Visit the elements in increasing order. -/
def SetOrder.sorted (α : Type*) [LinearOrder α] : SetOrder α where
  toList s := Quot.liftOn s.val (List.insertionSort (· ≤ ·)) fun l₁ l₂ h =>
    List.Perm.eq_of_pairwise (fun _ _ _ _ => le_antisymm)
      (List.pairwise_insertionSort _ l₁) (List.pairwise_insertionSort _ l₂)
      ((List.perm_insertionSort _ l₁).trans (h.trans (List.perm_insertionSort _ l₂).symm))
  nodup_toList s := by
    obtain ⟨v, hv⟩ := s
    induction v using Quot.ind with
    | mk l => exact (List.perm_insertionSort (· ≤ ·) l).nodup_iff.mpr hv
  mem_toList {s} {a} := by
    obtain ⟨v, hv⟩ := s
    induction v using Quot.ind with
    | mk l => exact (List.perm_insertionSort (· ≤ ·) l).mem_iff

/-- The order of the elements in which their images under `f` are visited; `g` finds an element
from its image. -/
def SetOrder.pullback {α β : Type*} [DecidableEq β] (order : SetOrder β) {f : α → β} {g : β → α}
    (hf : Function.Injective f) (hg : Function.LeftInverse g f) : SetOrder α where
  toList s := (order.toList (s.map ⟨f, hf⟩)).map g
  nodup_toList s := by
    refine List.Nodup.map_on (fun a ha b hb hab => ?_) (order.nodup_toList _)
    obtain ⟨a', -, rfl⟩ := Finset.mem_map.mp (order.mem_toList.mp ha)
    obtain ⟨b', -, rfl⟩ := Finset.mem_map.mp (order.mem_toList.mp hb)
    exact congrArg f ((hg a').symm.trans (hab.trans (hg b')))
  mem_toList {s a} := by
    rw [List.mem_map]
    constructor
    · rintro ⟨b, hb, rfl⟩
      obtain ⟨a', ha', rfl⟩ := Finset.mem_map.mp (order.mem_toList.mp hb)
      rwa [Function.Embedding.coeFn_mk, hg a']
    · intro ha
      exact ⟨f a, order.mem_toList.mpr (Finset.mem_map_of_mem ⟨f, hf⟩ ha), hg a⟩
