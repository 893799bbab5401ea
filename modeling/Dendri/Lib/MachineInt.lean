import Mathlib.Tactic

/-!
Signed machine integers of 64 bits as integers. `toInt` is the value; as long as the
result of an operation is in range, it is that of the operation on the values.

* `toInt_add`, `toInt_sub`, `toInt_mul`, `toInt_div`, `toInt_mod`: the operations on
  machine integers with known values;
* `toInt_toInt64`: the cast from an unsigned integer, in two's complement.
-/

namespace MachineInt

variable {a b : Int64} {m n : ℤ}

lemma toInt_add (ha : a.toInt = m) (hb : b.toInt = n) (h : -2 ^ 63 ≤ m + n)
    (h' : m + n < 2 ^ 63) : (a + b).toInt = m + n := by
  rw [Int64.toInt_add, ha, hb]
  exact Int.bmod_eq_of_le h h'

lemma toInt_sub (ha : a.toInt = m) (hb : b.toInt = n) (h : -2 ^ 63 ≤ m - n)
    (h' : m - n < 2 ^ 63) : (a - b).toInt = m - n := by
  rw [Int64.toInt_sub, ha, hb]
  exact Int.bmod_eq_of_le h h'

lemma toInt_mul (ha : a.toInt = m) (hb : b.toInt = n) (h : -2 ^ 63 ≤ m * n)
    (h' : m * n < 2 ^ 63) : (a * b).toInt = m * n := by
  rw [Int64.toInt_mul, ha, hb]
  exact Int.bmod_eq_of_le h h'

/-- Division rounds towards zero. -/
lemma toInt_tdiv (ha : a.toInt = m) (hb : b.toInt = n) (hn : 0 < n) :
    (a / b).toInt = m.tdiv n := by
  have hne : b ≠ -1 := by
    rintro rfl
    have hneg : (-1 : Int64).toInt = -1 := rfl
    omega
  rw [Int64.toInt_div_of_ne_right _ _ hne, ha, hb]

lemma toInt_div (ha : a.toInt = m) (hb : b.toInt = n) (hm : 0 ≤ m) (hn : 0 < n) :
    (a / b).toInt = m / n := by
  rw [toInt_tdiv ha hb hn, Int.tdiv_eq_ediv_of_nonneg hm]

lemma toInt_mod (ha : a.toInt = m) (hb : b.toInt = n) (hm : 0 ≤ m) :
    (a % b).toInt = m % n := by
  rw [Int64.toInt_mod, ha, hb, Int.tmod_eq_emod_of_nonneg hm]

/-- The cast in two's complement. -/
lemma toInt_toInt64 (n : UInt64) :
    n.toInt64.toInt = if n.toNat < 2 ^ 63 then (n.toNat : ℤ) else (n.toNat : ℤ) - 2 ^ 64 := by
  rw [Int64.toInt, UInt64.toBitVec_toInt64, BitVec.toInt_eq_toNat_cond]
  have h : 2 * n.toBitVec.toNat < 2 ^ 64 ↔ n.toNat < 2 ^ 63 := by
    rw [UInt64.toNat_toBitVec]
    omega
  simp only [h]
  rfl

end MachineInt
