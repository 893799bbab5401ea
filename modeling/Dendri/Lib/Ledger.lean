import Mathlib.Tactic

/-!
Memberships with deferred removal, over arbitrary types of clients and groups.

A ledger keeps the membership relation three times: `member`, the groups' own
member sets; `index`, the reverse index of each client; and `pending`, the
groups a client that went away is still kept in for a grace period. The
operations are the ones of a server that defers removals: `join`, `leave`,
`removeAll` (leave every indexed group at once), `defer` (move the index to
the pending list), `restore` (take the pending list back as the index) and
`expire` (carry the pending removals out).

* `Sound`: the index never names a group the client is not a member of; every
  operation keeps it;
* `Coherent`: memberships are exactly the indexed and the pending ones. The
  lemmas `coherent_leave_iff`, `coherent_defer_iff`, `coherent_restore_iff`
  and `coherent_removeAll_iff` say exactly when an operation keeps it: `defer`
  and `restore` overwrite a list, and `leave` and `removeAll` do not look at
  the pending one;
* `Known`: a membership, or one that a restore brings back. Only `join` makes new ones.
-/

/-- The membership relation of clients `ι` in groups `ρ`, stored three times. -/
@[ext] structure Ledger (ι ρ : Type*) where
  member : ι → ρ → Prop
  index : ι → ρ → Prop
  pending : ι → ρ → Prop

namespace Ledger

variable {ι ρ : Type*}

/-- The index names only groups the client is a member of. -/
def Sound (L : Ledger ι ρ) : Prop := ∀ d s, L.index d s → L.member d s

/-- Memberships are exactly the indexed and the pending ones. -/
def Coherent (L : Ledger ι ρ) : Prop := ∀ d s, L.member d s ↔ L.index d s ∨ L.pending d s

lemma Coherent.sound {L : Ledger ι ρ} (h : L.Coherent) : L.Sound :=
  fun d s hi => (h d s).mpr (Or.inl hi)

/-! ### The operations -/

/-- `c` becomes a member of `r`. -/
def join (L : Ledger ι ρ) (c : ι) (r : ρ) : Ledger ι ρ where
  member d s := L.member d s ∨ (d = c ∧ s = r)
  index d s := L.index d s ∨ (d = c ∧ s = r)
  pending := L.pending

/-- `c` leaves `r`. -/
def leave (L : Ledger ι ρ) (c : ι) (r : ρ) : Ledger ι ρ where
  member d s := L.member d s ∧ ¬(d = c ∧ s = r)
  index d s := L.index d s ∧ ¬(d = c ∧ s = r)
  pending := L.pending

/-- `c` leaves every group of its index. -/
def removeAll (L : Ledger ι ρ) (c : ι) : Ledger ι ρ where
  member d s := L.member d s ∧ ¬(d = c ∧ L.index c s)
  index d s := L.index d s ∧ d ≠ c
  pending := L.pending

/-- The index of `c`, if it names any group, replaces the pending list. -/
def defer (L : Ledger ι ρ) (c : ι) : Ledger ι ρ where
  member := L.member
  index d s := L.index d s ∧ d ≠ c
  pending d s := (d = c ∧ L.index c s) ∨ (L.pending d s ∧ ¬(d = c ∧ ∃ r, L.index c r))

/-- The pending list of `c` replaces its index, and `c` is put back into its
groups. -/
def restore (L : Ledger ι ρ) (c : ι) : Ledger ι ρ where
  member d s := L.member d s ∨ (d = c ∧ L.pending c s)
  index d s := (d = c ∧ L.pending c s) ∨ (L.index d s ∧ d ≠ c)
  pending d s := L.pending d s ∧ d ≠ c

/-- The pending removals of `c` are carried out. -/
def expire (L : Ledger ι ρ) (c : ι) : Ledger ι ρ where
  member d s := L.member d s ∧ ¬(d = c ∧ L.pending c s)
  index d s := L.index d s ∧ ¬(d = c ∧ L.pending c s)
  pending d s := L.pending d s ∧ d ≠ c

/-- `c` leaves every group of a list, one after the other. -/
def leaveList (L : Ledger ι ρ) (c : ι) (l : List ρ) : Ledger ι ρ :=
  l.foldl (fun L r => L.leave c r) L

/-- Leaving the groups of a list takes exactly these memberships away. -/
lemma leaveList_eq (L : Ledger ι ρ) (c : ι) (l : List ρ) :
    L.leaveList c l =
      { member := fun d s => L.member d s ∧ ¬(d = c ∧ s ∈ l)
        index := fun d s => L.index d s ∧ ¬(d = c ∧ s ∈ l)
        pending := L.pending } := by
  induction l generalizing L with
  | nil => simp [leaveList]
  | cons r l ih =>
      have hfold : L.leaveList c (r :: l) = (L.leave c r).leaveList c l := rfl
      rw [hfold, ih]
      ext d s
      · simp only [leave, List.mem_cons]
        tauto
      · simp only [leave, List.mem_cons]
        tauto
      · rfl

/-! ### Soundness of the index -/

variable {L : Ledger ι ρ} {c : ι} {r : ρ}

lemma Sound.join (h : L.Sound) : (L.join c r).Sound :=
  fun d s hi => hi.imp_left (h d s)

lemma Sound.leave (h : L.Sound) : (L.leave c r).Sound :=
  fun d s hi => ⟨h d s hi.1, hi.2⟩

lemma Sound.removeAll (h : L.Sound) : (L.removeAll c).Sound :=
  fun d s hi => ⟨h d s hi.1, fun hc => hi.2 hc.1⟩

lemma Sound.defer (h : L.Sound) : (L.defer c).Sound :=
  fun d s hi => h d s hi.1

lemma Sound.restore (h : L.Sound) : (L.restore c).Sound := by
  intro d s hi
  rcases hi with hp | ⟨hi, -⟩
  · exact Or.inr hp
  · exact Or.inl (h d s hi)

lemma Sound.expire (h : L.Sound) : (L.expire c).Sound :=
  fun d s hi => ⟨h d s hi.1, hi.2⟩

/-! ### Coherence, exactly -/

lemma Coherent.join (h : L.Coherent) : (L.join c r).Coherent := by
  intro d s
  change (L.member d s ∨ _) ↔ (L.index d s ∨ _) ∨ L.pending d s
  rw [h d s]
  tauto

lemma Coherent.expire (h : L.Coherent) : (L.expire c).Coherent := by
  intro d s
  change (L.member d s ∧ _) ↔ (L.index d s ∧ _) ∨ (L.pending d s ∧ _)
  rw [h d s]
  by_cases hd : d = c
  · subst hd; tauto
  · tauto

/-- Leaving a group keeps coherence just when the group is not pending. -/
lemma coherent_leave_iff (h : L.Coherent) : (L.leave c r).Coherent ↔ ¬L.pending c r := by
  constructor
  · intro hc hp
    exact ((hc c r).mpr (Or.inr hp)).2 ⟨rfl, rfl⟩
  · intro hnp d s
    change (L.member d s ∧ _) ↔ (L.index d s ∧ _) ∨ L.pending d s
    rw [h d s]
    have hne : L.pending d s → ¬(d = c ∧ s = r) := by
      rintro hp ⟨rfl, rfl⟩
      exact hnp hp
    tauto

/-- Leaving every indexed group keeps coherence just when none of them is
pending. -/
lemma coherent_removeAll_iff (h : L.Coherent) :
    (L.removeAll c).Coherent ↔ ∀ s, L.index c s → ¬L.pending c s := by
  constructor
  · intro hc s hi hp
    exact ((hc c s).mpr (Or.inr hp)).2 ⟨rfl, hi⟩
  · intro hnp d s
    change (L.member d s ∧ _) ↔ (L.index d s ∧ _) ∨ L.pending d s
    rw [h d s]
    by_cases hd : d = c
    · subst hd
      have := hnp s
      tauto
    · tauto

/-- Deferring keeps coherence just when the list it replaces names no group
outside the index. -/
lemma coherent_defer_iff (h : L.Coherent) :
    (L.defer c).Coherent ↔ ((∃ s, L.index c s) → ∀ s, L.pending c s → L.index c s) := by
  constructor
  · intro hc hne s hp
    have hm : L.member c s := (h c s).mpr (Or.inr hp)
    rcases (hc c s).mp hm with hi | hp'
    · exact absurd rfl hi.2
    · rcases hp' with hi | hp''
      · exact hi.2
      · exact absurd ⟨rfl, hne⟩ hp''.2
  · intro hlist d s
    change L.member d s ↔ (L.index d s ∧ _) ∨ _
    rw [h d s]
    by_cases hd : d = c
    · subst hd
      by_cases hne : ∃ s, L.index d s
      · have := hlist hne s
        simp only [Ledger.defer]
        tauto
      · have hni : ¬L.index d s := fun hi => hne ⟨s, hi⟩
        simp only [Ledger.defer]
        tauto
    · simp only [Ledger.defer]
      tauto

/-- Restoring keeps coherence just when the index it replaces names no group
outside the pending list. -/
lemma coherent_restore_iff (h : L.Coherent) :
    (L.restore c).Coherent ↔ ∀ s, L.index c s → L.pending c s := by
  constructor
  · intro hc s hi
    have hm : L.member c s := (h c s).mpr (Or.inl hi)
    rcases (hc c s).mp (Or.inl hm) with hi' | hp
    · rcases hi' with hp | hn
      · exact hp.2
      · exact absurd rfl hn.2
    · exact absurd rfl hp.2
  · intro hlist d s
    change (L.member d s ∨ _) ↔ (_ ∨ (L.index d s ∧ _)) ∨ (L.pending d s ∧ _)
    rw [h d s]
    by_cases hd : d = c
    · subst hd
      have := hlist s
      tauto
    · tauto

/-! ### Where memberships come from -/

/-- `d` is a member of `s`, or a restore makes it one. -/
def Known (L : Ledger ι ρ) (d : ι) (s : ρ) : Prop := L.member d s ∨ L.pending d s

variable {d : ι} {s : ρ}

lemma known_join_iff : (L.join c r).Known d s ↔ L.Known d s ∨ (d = c ∧ s = r) := by
  simp only [Known, join]
  tauto

lemma Known.of_leave (h : (L.leave c r).Known d s) : L.Known d s :=
  h.imp_left And.left

lemma Known.of_removeAll (h : (L.removeAll c).Known d s) : L.Known d s :=
  h.imp_left And.left

/-- What is put aside was a membership, by soundness of the index. -/
lemma Known.of_defer (hL : L.Sound) (h : (L.defer c).Known d s) : L.Known d s := by
  rcases h with hmember | ⟨rfl, hindex⟩ | ⟨hpending, -⟩
  · exact Or.inl hmember
  · exact Or.inl (hL d s hindex)
  · exact Or.inr hpending

lemma Known.of_restore (h : (L.restore c).Known d s) : L.Known d s := by
  rcases h with (hmember | ⟨rfl, hpending⟩) | ⟨hpending, -⟩
  · exact Or.inl hmember
  · exact Or.inr hpending
  · exact Or.inr hpending

lemma Known.of_expire (h : (L.expire c).Known d s) : L.Known d s :=
  h.imp And.left And.left

end Ledger
