import Mathlib.Tactic

/-!
Records that are found in two ways: by a key, and by an identifier that leads to
the key. A catalog is kept as two families of entries, the records by key and
the keys by identifier; what it means is a partial map from identifiers to
records with their keys.

* `Catalogs byKey byId m`: the two families stand for the map `m`;
* `Catalogs.empty`, `Catalogs.insert`, `Catalogs.replace`, `Catalogs.rekey`,
  `Catalogs.remove`: adding a record under a new identifier and a key that is
  not in use, writing another record under the same key, moving a record to a
  key that is not in use, and removing one;
* `Catalogs.lookup_key`, `Catalogs.lookup_id`: what the two families answer.
-/

namespace Catalog

open Function

variable {ι κ ρ : Type*}

/-- The records by key and the keys by identifier stand for the map `m`. -/
structure Catalogs (byKey : κ → Option ρ) (byId : ι → Option κ) (m : ι → Option (ρ × κ)) :
    Prop where
  keys : ∀ i, byId i = (m i).map Prod.snd
  records : ∀ k r, byKey k = some r ↔ ∃ i, m i = some (r, k)
  /-- Different identifiers have different keys. -/
  apart : ∀ {i j r r' k}, m i = some (r, k) → m j = some (r', k) → i = j

namespace Catalogs

variable {byKey : κ → Option ρ} {byId : ι → Option κ} {m : ι → Option (ρ × κ)}
  {i : ι} {k k' : κ} {r r' : ρ}

lemma empty : Catalogs (fun _ : κ => (none : Option ρ)) (fun _ : ι => none) fun _ => none where
  keys _ := rfl
  records _ _ := by simp
  apart h := absurd h (by simp)

lemma lookup_key (h : Catalogs byKey byId m) (hi : m i = some (r, k)) : byKey k = some r :=
  (h.records k r).mpr ⟨i, hi⟩

lemma lookup_id (h : Catalogs byKey byId m) (hi : m i = some (r, k)) : byId i = some k := by
  rw [h.keys, hi]
  rfl

variable [DecidableEq ι] [DecidableEq κ]

/-- A record is written under a key that no other identifier uses, and the
identifier, which has no other key, is led to it. -/
lemma write (h : Catalogs byKey byId m) (hfree : ∀ j r', m j = some (r', k) → j = i)
    (hold : ∀ r' k', m i = some (r', k') → k' = k) :
    Catalogs (update byKey k (some r)) (update byId i (some k)) (update m i (some (r, k))) where
  keys j := by
    by_cases hj : j = i
    · rw [hj, update_self, update_self]
      rfl
    · rw [update_of_ne hj, update_of_ne hj, h.keys]
  records a b := by
    by_cases ha : a = k
    · rw [ha, update_self, Option.some.injEq]
      constructor
      · rintro rfl
        exact ⟨i, update_self _ _ _⟩
      · rintro ⟨j, hj⟩
        have hji : j = i := by
          by_contra hne
          rw [update_of_ne hne] at hj
          exact hne (hfree j b hj)
        rw [hji, update_self] at hj
        exact (Prod.mk.inj (Option.some.inj hj)).1
    · rw [update_of_ne ha, h.records]
      constructor
      · rintro ⟨j, hj⟩
        have hne : j ≠ i := by
          rintro rfl
          exact ha (hold b a hj)
        exact ⟨j, by rw [update_of_ne hne, hj]⟩
      · rintro ⟨j, hj⟩
        by_cases hji : j = i
        · rw [hji, update_self] at hj
          exact absurd (Prod.mk.inj (Option.some.inj hj)).2.symm ha
        · exact ⟨j, by rwa [update_of_ne hji] at hj⟩
  apart {a b q q' l} ha hb := by
    by_cases hai : a = i
    · by_cases hbi : b = i
      · rw [hai, hbi]
      · rw [hai, update_self] at ha
        rw [update_of_ne hbi, ← (Prod.mk.inj (Option.some.inj ha)).2] at hb
        exact absurd (hfree b q' hb) hbi
    · by_cases hbi : b = i
      · rw [hbi, update_self] at hb
        rw [update_of_ne hai, ← (Prod.mk.inj (Option.some.inj hb)).2] at ha
        exact absurd (hfree a q ha) hai
      · rw [update_of_ne hai] at ha
        rw [update_of_ne hbi] at hb
        exact h.apart ha hb

/-- A record with a new identifier is added under a key that is not in use. -/
lemma insert (h : Catalogs byKey byId m) (hi : m i = none) (hk : ∀ j r', m j ≠ some (r', k)) :
    Catalogs (update byKey k (some r)) (update byId i (some k)) (update m i (some (r, k))) :=
  h.write (fun j r' hj => absurd hj (hk j r')) fun r' k' hj => absurd (hi.symm.trans hj) (by simp)

/-- Another record is written under the key of an identifier. -/
lemma replace (h : Catalogs byKey byId m) (hi : m i = some (r, k)) :
    Catalogs (update byKey k (some r')) byId (update m i (some (r', k))) := by
  have hwrite := h.write (i := i) (k := k) (r := r') (fun j q hj => h.apart hj hi)
    fun q k' hj => (Prod.mk.inj (Option.some.inj (hi.symm.trans hj))).2.symm
  have hsame : update byId i (some k) = byId := update_eq_self_iff.mpr (h.lookup_id hi).symm
  rwa [hsame] at hwrite

/-- A record is removed with its identifier. -/
lemma remove (h : Catalogs byKey byId m) (hi : m i = some (r, k)) :
    Catalogs (update byKey k none) (update byId i none) (update m i none) where
  keys j := by
    by_cases hj : j = i
    · rw [hj, update_self, update_self]
      rfl
    · rw [update_of_ne hj, update_of_ne hj, h.keys]
  records a b := by
    by_cases ha : a = k
    · rw [ha, update_self]
      refine ⟨fun hnone => absurd hnone (by simp), ?_⟩
      rintro ⟨j, hj⟩
      by_cases hji : j = i
      · rw [hji, update_self] at hj
        exact absurd hj (by simp)
      · rw [update_of_ne hji] at hj
        exact absurd (h.apart hj hi) hji
    · rw [update_of_ne ha, h.records]
      refine exists_congr fun j => ?_
      by_cases hji : j = i
      · rw [hji, update_self, hi]
        refine ⟨fun hj => absurd (Prod.mk.inj (Option.some.inj hj)).2.symm ha, fun hj => ?_⟩
        exact absurd hj (by simp)
      · rw [update_of_ne hji]
  apart {a b q q' l} ha hb := by
    have hold : ∀ {j p}, update m i none j = some p → m j = some p := by
      intro j p hj
      by_cases hji : j = i
      · rw [hji, update_self] at hj
        exact absurd hj (by simp)
      · rwa [update_of_ne hji] at hj
    exact h.apart (hold ha) (hold hb)

/-- A record is moved to a key that is not in use. -/
lemma rekey (h : Catalogs byKey byId m) (hi : m i = some (r, k))
    (hk' : ∀ j r', m j ≠ some (r', k')) :
    Catalogs (update (update byKey k' (some r)) k none) (update byId i (some k'))
      (update m i (some (r, k'))) := by
  have hne : k ≠ k' := by
    rintro rfl
    exact hk' i r hi
  -- the move is a removal and an addition
  have hremoved := h.remove hi
  have hfree : ∀ j r', update m i none j ≠ some (r', k') := by
    intro j r' hj
    by_cases hji : j = i
    · rw [hji, update_self] at hj
      exact absurd hj (by simp)
    · rw [update_of_ne hji] at hj
      exact hk' j r' hj
  have hadded := hremoved.insert (i := i) (k := k') (r := r) (update_self _ _ _) hfree
  rwa [update_comm hne, update_idem, update_idem] at hadded

end Catalogs

end Catalog
