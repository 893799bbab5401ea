import Dendri.Lib.Calendar
import Dendri.Lib.MachineInt
import Dendri.Server.Email

/-!
Timestamps of mail requests: `civil_from_days` is the Gregorian calendar.

* The conversion goes from the day number of the calendar, which is that of the date,
  back to the date: the era and the year of the era (`yearOfEra_eq`), the day of the
  year, the month and the day. `civilFromDays_eq` says so of the machine arithmetic;
* `iso8601Utc_eq`: the text is that of the timestamp;
* `timestamps_exact`: dates and timestamps are exact and ordered as the time is.
-/

namespace Dendri

open Calendar MachineInt

/-- `UNIX_EPOCH`, 1970-01-01. -/
def unixEpoch : Date := Date.newYear 1970

lemma dayNumber_unixEpoch : unixEpoch.dayNumber = 719468 := by
  decide

/-- The nanoseconds from the epoch to the end of the year 9999. -/
def endOf9999 : ℤ := ((Date.newYear 10000).dayNumber - unixEpoch.dayNumber) * 86400 * 1000000000

lemma endOf9999_eq : endOf9999 = 253402300800 * 1000000000 := by
  decide

/-! ### The arithmetic of the calendar -/

/-- The year of the era from the day of the era. -/
lemma yearOfEra_eq (x : Date) {doe : ℤ}
    (hdoe : doe = x.dayNumber - 146097 * (x.shiftedYear / 400)) :
    (doe - doe / 1460 + doe / 36524 - doe / 146096) / 365 = x.shiftedYear % 400 := by
  rw [x.dayOfEra_eq] at hdoe
  have hnonneg := x.dayOfYear_nonneg
  have hle := x.dayOfYear_le
  have hleap := x.isLeap_of_dayOfYear
  rw [IsLeap] at hleap
  generalize x.dayOfYear = doy at *
  -- the centuries, the leap cycles and the years of the era
  obtain ⟨c, q, r, hyear, hc, hq, hr⟩ : ∃ c q r : ℤ, x.shiftedYear % 400 = 100 * c + 4 * q + r ∧
      (0 ≤ c ∧ c < 4) ∧ (0 ≤ q ∧ q < 25) ∧ 0 ≤ r ∧ r < 4 :=
    ⟨x.shiftedYear % 400 / 100, x.shiftedYear % 100 / 4, x.shiftedYear % 4, by omega⟩
  have hlast : doy = 365 → r = 3 ∧ (q = 24 → c = 3) := by omega
  have hsum : doe = 36524 * c + 1461 * q + 365 * r + doy := by omega
  rw [hyear]
  clear hyear hdoe hleap
  have hcentury : doe / 36524 = c ∨ doe = 146096 := by omega
  have hera : doe / 146096 = if doe = 146096 then 1 else 0 := by
    split_ifs <;> omega
  have hcycle : doe / 1460 = 25 * c + q ∨ doe / 1460 = 25 * c + q + 1 := by omega
  rcases hcentury with hcentury | hend
  · rcases hcycle with hcycle | hcycle
    · split_ifs at hera <;> omega
    · split_ifs at hera <;> omega
  · omega

/-! ### The machine arithmetic -/

/-- The era: the subtraction makes the division round down. -/
lemma toInt_era {w : Int64} {n : ℤ} (hw : w.toInt = n) (hn : -2 ^ 63 + 146096 ≤ n) :
    ((if 0 ≤ w then w else w - 146096) / 146097).toInt = n / 146097 := by
  have hsign : 0 ≤ w ↔ 0 ≤ n := by
    rw [Int64.le_iff_toInt_le, hw]
    rfl
  by_cases h : 0 ≤ n
  · rw [if_pos (hsign.mpr h)]
    exact toInt_div hw rfl h (by omega)
  · have hlt := w.toInt_lt
    have hsub : (w - 146096).toInt = n - 146096 :=
      toInt_sub hw rfl (by omega) (by omega)
    rw [if_neg (mt hsign.mp h), toInt_tdiv (n := 146097) hsub rfl (by omega)]
    have hneg : n - 146096 = -(-n + 146096) := by ring
    rw [hneg, Int.neg_tdiv, Int.tdiv_eq_ediv_of_nonneg (by omega)]
    omega

lemma toInt_yoe {doe : Int64} {k : ℤ} (h : doe.toInt = k) (hk : 0 ≤ k) (hk' : k < 146097) :
    ((doe - doe / 1460 + doe / 36524 - doe / 146096) / 365).toInt =
      (k - k / 1460 + k / 36524 - k / 146096) / 365 := by
  have h1 : (doe - doe / 1460).toInt = k - k / 1460 :=
    toInt_sub h (toInt_div h rfl hk (by omega)) (by omega) (by omega)
  have h2 : (doe - doe / 1460 + doe / 36524).toInt = k - k / 1460 + k / 36524 :=
    toInt_add h1 (toInt_div h rfl hk (by omega)) (by omega) (by omega)
  have h3 : (doe - doe / 1460 + doe / 36524 - doe / 146096).toInt =
      k - k / 1460 + k / 36524 - k / 146096 :=
    toInt_sub h2 (toInt_div h rfl hk (by omega)) (by omega) (by omega)
  exact toInt_div h3 rfl (by omega) (by omega)

lemma toInt_dayOfYear {doe yoe : Int64} {k j : ℤ} (h : doe.toInt = k) (h' : yoe.toInt = j)
    (hk : 0 ≤ k) (hk' : k < 146097) (hj : 0 ≤ j) (hj' : j < 400) :
    (doe - (365 * yoe + yoe / 4 - yoe / 100)).toInt = k - (365 * j + j / 4 - j / 100) := by
  have hmul : (365 * yoe).toInt = 365 * j := toInt_mul rfl h' (by omega) (by omega)
  have hadd : (365 * yoe + yoe / 4).toInt = 365 * j + j / 4 :=
    toInt_add hmul (toInt_div h' rfl hj (by omega)) (by omega) (by omega)
  have hsub : (365 * yoe + yoe / 4 - yoe / 100).toInt = 365 * j + j / 4 - j / 100 :=
    toInt_sub hadd (toInt_div h' rfl hj (by omega)) (by omega) (by omega)
  exact toInt_sub h hsub (by omega) (by omega)

section

variable {x : Date} {doy mp y m : Int64}

lemma toInt_shiftedMonth (hdoy : doy.toInt = x.dayOfYear) :
    ((5 * doy + 2) / 153).toInt = x.shiftedMonth := by
  have hnonneg := x.dayOfYear_nonneg
  have hle := x.dayOfYear_le
  have hmul : (5 * doy).toInt = 5 * x.dayOfYear := toInt_mul rfl hdoy (by omega) (by omega)
  have hadd : (5 * doy + 2).toInt = 5 * x.dayOfYear + 2 :=
    toInt_add hmul rfl (by omega) (by omega)
  rw [x.shiftedMonth_eq]
  exact toInt_div hadd rfl (by omega) (by omega)

lemma toInt_day (hdoy : doy.toInt = x.dayOfYear) (hmp : mp.toInt = x.shiftedMonth) :
    (doy - (153 * mp + 2) / 5 + 1).toInt = x.day := by
  have hnonneg := x.dayOfYear_nonneg
  have hle := x.dayOfYear_le
  obtain ⟨-, hmonth, hmonth'⟩ := x.shifted_eq
  have hmul : (153 * mp).toInt = 153 * x.shiftedMonth := toInt_mul rfl hmp (by omega) (by omega)
  have hadd : (153 * mp + 2).toInt = 153 * x.shiftedMonth + 2 :=
    toInt_add hmul rfl (by omega) (by omega)
  have hdiv : ((153 * mp + 2) / 5).toInt = (153 * x.shiftedMonth + 2) / 5 :=
    toInt_div hadd rfl (by omega) (by omega)
  have hsub : (doy - (153 * mp + 2) / 5).toInt = x.dayOfYear - (153 * x.shiftedMonth + 2) / 5 :=
    toInt_sub hdoy hdiv (by omega) (by omega)
  rw [toInt_add (n := 1) hsub rfl (by omega) (by omega), Date.dayOfYear]
  ring

lemma toInt_month (hmp : mp.toInt = x.shiftedMonth) :
    (if mp < 10 then mp + 3 else mp - 9).toInt = x.month := by
  obtain ⟨-, hmonth, hmonth'⟩ := x.shifted_eq
  have hlt : mp < 10 ↔ x.shiftedMonth < 10 := by
    rw [Int64.lt_iff_toInt_lt, hmp]
    rfl
  rw [x.month_eq]
  by_cases h : x.shiftedMonth < 10
  · rw [if_pos (hlt.mpr h), if_pos h]
    exact toInt_add hmp rfl (by omega) (by omega)
  · rw [if_neg (mt hlt.mp h), if_neg h]
    exact toInt_sub hmp rfl (by omega) (by omega)

lemma toInt_year (hy : y.toInt = x.shiftedYear) (hm : m.toInt = x.month)
    (hmax : x.shiftedYear + 1 < 2 ^ 63) : (if m ≤ 2 then y + 1 else y).toInt = x.year := by
  have hle : m ≤ 2 ↔ x.month ≤ 2 := by
    rw [Int64.le_iff_toInt_le, hm]
    rfl
  have hmin := y.le_toInt
  by_cases h : x.month ≤ 2
  · rw [if_pos (hle.mpr h), toInt_add (n := 1) hy rfl (by omega) hmax, Date.shiftedYear, if_pos h]
    ring
  · rw [if_neg (mt hle.mp h), hy, Date.shiftedYear, if_neg h]

end

/-- A result of `civil_from_days` is the date. -/
def IsCivil (r : Int64 × Int64 × Int64) (x : Date) : Prop :=
  r.1.toInt = x.year ∧ r.2.1.toInt = x.month ∧ r.2.2.toInt = x.day

/-- `civil_from_days` finds the date with the number of the day. Only the addition to the
day can overflow. -/
lemma civilFromDays_eq {z : Int64} {x : Date} (hz : z.toInt + 719468 < 2 ^ 63)
    (hx : x.dayNumber = z.toInt + 719468) : IsCivil (civilFromDays z) x := by
  have hmin := z.le_toInt
  simp only [civilFromDays]
  -- the value of each `let` first, then the `let` is forgotten
  have hday : (z + 719468).toInt = x.dayNumber := by
    rw [hx]
    exact toInt_add rfl rfl (by omega) hz
  generalize z + 719468 = w at *
  have hera := toInt_era hday (by omega)
  generalize (if 0 ≤ w then w else w - 146096) / 146097 = era at *
  have hrange : -2 ^ 63 ≤ x.dayNumber ∧ x.dayNumber < 2 ^ 63 := by omega
  have hmod : 0 ≤ x.dayNumber - 146097 * (x.shiftedYear / 400) ∧
      x.dayNumber - 146097 * (x.shiftedYear / 400) < 146097 := by
    rw [← x.era_eq]
    omega
  rw [x.era_eq] at hera
  have hdoe : (w - era * 146097).toInt = x.dayNumber - 146097 * (x.shiftedYear / 400) := by
    rw [mul_comm 146097]
    exact toInt_sub hday (toInt_mul hera rfl (by omega) (by omega)) (by omega) (by omega)
  generalize w - era * 146097 = doe at *
  have hyoe := (toInt_yoe hdoe hmod.1 hmod.2).trans (yearOfEra_eq x rfl)
  generalize (doe - doe / 1460 + doe / 36524 - doe / 146096) / 365 = yoe at *
  have hy : (yoe + era * 400).toInt = x.shiftedYear := by
    have hmul : (era * 400).toInt = x.shiftedYear / 400 * 400 :=
      toInt_mul hera rfl (by omega) (by omega)
    rw [toInt_add hyoe hmul (by omega) (by omega)]
    omega
  have hdoy : (doe - (365 * yoe + yoe / 4 - yoe / 100)).toInt = x.dayOfYear := by
    rw [toInt_dayOfYear hdoe hyoe hmod.1 hmod.2 (by omega) (by omega), x.dayOfEra_eq]
    ring
  have hmp := toInt_shiftedMonth hdoy
  have hm := toInt_month hmp
  exact ⟨toInt_year hy hm (by omega), hm, toInt_day hdoy hmp⟩

/-- Every day has its date, as long as the addition does not overflow. -/
lemma exists_civil {z : Int64} (hz : z.toInt + 719468 < 2 ^ 63) :
    ∃ x : Date, IsCivil (civilFromDays z) x ∧ x.dayNumber = unixEpoch.dayNumber + z.toInt := by
  obtain ⟨x, hx⟩ := Date.exists_dayNumber_eq (z.toInt + 719468)
  refine ⟨x, civilFromDays_eq hz hx, ?_⟩
  rw [hx, dayNumber_unixEpoch]
  ring

/-- The year, the month and the day, in lexicographic order. -/
def civilKey (r : Int64 × Int64 × Int64) : Int64 ×ₗ Int64 ×ₗ Int64 := toLex (r.1, toLex r.2)

/-- The order of the results is that of the dates. -/
lemma civilKey_lt_iff {r r' : Int64 × Int64 × Int64} {x x' : Date} (h : IsCivil r x)
    (h' : IsCivil r' x') : civilKey r < civilKey r' ↔ x.key < x'.key := by
  obtain ⟨hyear, hmonth, hday⟩ := h
  obtain ⟨hyear', hmonth', hday'⟩ := h'
  rw [civilKey, civilKey, Prod.Lex.toLex_lt_toLex, Prod.Lex.toLex_lt_toLex, Date.key_lt_iff]
  simp only [Int64.lt_iff_toInt_lt, ← Int64.toInt_inj, hyear, hmonth, hday, hyear', hmonth', hday']

/-! ### The text -/

/-- A field of the text. -/
lemma zeroPadded_eq {w k : ℕ} {n : Int64} (h : n.toInt = k) (hw : 0 < w) (hk : k < 10 ^ w) :
    zeroPadded w n = digits w k := by
  have hsign : ¬n < 0 := by
    rw [Int64.lt_iff_toInt_lt, h]
    exact not_lt.mpr (Int.natCast_nonneg k)
  have habs : n.toInt.natAbs = k := by omega
  simp only [zeroPadded]
  rw [if_neg hsign, habs, replicate_append_toDigits hw hk]

/-- The text of a result of `civil_from_days` and a second of the day. -/
lemma text_ofClock {y m d rem : Int64} {x : Date} {hlow : 0 ≤ x.year} {hhigh : x.year ≤ 9999}
    {r : ℕ} {hr : r < 86400} (hx : IsCivil (y, m, d) x) (hrem : rem.toInt = r) :
    zeroPadded 4 y ++ '-' :: (zeroPadded 2 m ++ '-' :: (zeroPadded 2 d ++ 'T' ::
      (zeroPadded 2 (rem / 3600) ++ ':' :: (zeroPadded 2 (rem % 3600 / 60) ++ ':' ::
        (zeroPadded 2 (rem % 60) ++ 'Z' :: []))))) =
      (Timestamp.ofClock x hlow hhigh r hr).text := by
  obtain ⟨hyear, hmonth, hday⟩ := hx
  obtain ⟨hfour, hmonth', hday', hhour, hminute, hsecond⟩ :=
    (Timestamp.ofClock x hlow hhigh r hr).fields_lt
  have hpos := x.month_pos
  have hpos' := x.day_pos
  have hr0 : (0 : ℤ) ≤ r := Int.natCast_nonneg r
  have hh : (rem / 3600).toInt = (r / 3600 : ℕ) := toInt_div hrem rfl hr0 (by decide)
  have hmi : (rem % 3600 / 60).toInt = (r % 3600 / 60 : ℕ) :=
    toInt_div (toInt_mod hrem rfl hr0) rfl (Int.emod_nonneg _ (by decide)) (by decide)
  have hs : (rem % 60).toInt = (r % 60 : ℕ) := toInt_mod hrem rfl hr0
  rw [zeroPadded_eq (hyear.trans (Int.toNat_of_nonneg hlow).symm) (by omega) hfour,
    zeroPadded_eq (hmonth.trans (Int.toNat_of_nonneg (by omega)).symm) (by omega) hmonth',
    zeroPadded_eq (hday.trans (Int.toNat_of_nonneg (by omega)).symm) (by omega) hday',
    zeroPadded_eq hh (by omega) hhour, zeroPadded_eq hmi (by omega) hminute,
    zeroPadded_eq hs (by omega) hsecond]
  rfl

section

variable {secs : Int64} {k : ℤ}

lemma not_mod_neg (h : secs.toInt = k) (hk : 0 ≤ k) : ¬secs % 86400 < 0 := by
  rw [Int64.lt_iff_toInt_lt, toInt_mod (n := 86400) h rfl hk]
  exact not_lt.mpr (Int.emod_nonneg k (by omega))

lemma toInt_divEuclid (h : secs.toInt = k) (hk : 0 ≤ k) :
    (divEuclid secs 86400).toInt = k / 86400 := by
  rw [divEuclid, if_neg (not_mod_neg h hk)]
  exact toInt_div h rfl hk (by omega)

lemma toInt_remEuclid (h : secs.toInt = k) (hk : 0 ≤ k) :
    (remEuclid secs 86400).toInt = k % 86400 := by
  rw [remEuclid, if_neg (not_mod_neg h hk)]
  exact toInt_mod h rfl hk

end

lemma toInt_secs {t : ℤ} (ht : 0 ≤ t) (ht' : t < endOf9999) :
    (UInt64.ofNat (t.toNat / 1000000000)).toInt64.toInt = t / 1000000000 := by
  rw [endOf9999_eq] at ht'
  have hnat : (UInt64.ofNat (t.toNat / 1000000000)).toNat = t.toNat / 1000000000 :=
    UInt64.toNat_ofNat_of_lt' (lt_of_lt_of_le (b := 2 ^ 63) (by omega) (by decide))
  rw [toInt_toInt64, hnat, if_pos (by omega)]
  omega

/-- The dates from the epoch to the end of the year 9999 have years of four digits. -/
lemma year_mem {x : Date} (h : unixEpoch.dayNumber ≤ x.dayNumber)
    (h' : x.dayNumber < (Date.newYear 10000).dayNumber) : 0 ≤ x.year ∧ x.year ≤ 9999 := by
  have hmonth := x.month_pos
  have hday := x.day_pos
  rw [← not_lt, Date.dayNumber_lt_iff, Date.key_lt_iff] at h
  rw [Date.dayNumber_lt_iff, Date.key_lt_iff] at h'
  simp only [unixEpoch, Date.newYear] at h h'
  omega

/-- The text of `iso8601_utc` is that of the second. -/
lemma iso8601Utc_eq {t : ℤ} (ht : 0 ≤ t) (ht' : t < endOf9999) :
    ∃ x : Timestamp, (iso8601Utc t).toList = x.text ∧
      x.IsSecond unixEpoch (t / 1000000000) := by
  have hsecs := toInt_secs ht ht'
  have hk : 0 ≤ t / 1000000000 := Int.ediv_nonneg ht (by omega)
  have hk' : t / 1000000000 < 253402300800 := by
    rw [endOf9999_eq] at ht'
    omega
  simp only [iso8601Utc]
  generalize t / 1000000000 = k at *
  generalize (UInt64.ofNat (t.toNat / 1000000000)).toInt64 = secs at *
  have hdays := toInt_divEuclid hsecs hk
  have hrem : (remEuclid secs 86400).toInt = (k % 86400).toNat := by
    rw [toInt_remEuclid hsecs hk, Int.toNat_of_nonneg (Int.emod_nonneg k (by omega))]
  obtain ⟨x, hcivil, hx⟩ := exists_civil (z := divEuclid secs 86400) (by omega)
  have hten : (Date.newYear 10000).dayNumber = unixEpoch.dayNumber + 2932897 := by decide
  obtain ⟨hlow, hhigh⟩ := year_mem (x := x) (by omega) (by omega)
  refine ⟨Timestamp.ofClock x hlow hhigh (k % 86400).toNat (by omega), ?_, ?_, ?_⟩
  · rw [String.toList_ofList]
    exact text_ofClock hcivil hrem
  · rw [liesAfter_iff, ← hdays]
    exact hx
  · rw [Timestamp.clock_ofClock, Int.toNat_of_nonneg (Int.emod_nonneg k (by omega))]

/-! ### Dates and timestamps -/

/-- Every day has one date, the result of `civil_from_days`. -/
lemma civilFromDays_unique {z : Int64} (hz : z.toInt + 719468 < 2 ^ 63) :
    ∃ x : Date, IsCivil (civilFromDays z) x ∧
      ∀ y : Date, LiesAfter z.toInt unixEpoch y ↔ y = x := by
  obtain ⟨x, hcivil, hx⟩ := exists_civil hz
  refine ⟨x, hcivil, fun y => ?_⟩
  rw [liesAfter_iff, ← hx]
  exact Date.dayNumber_injective.eq_iff

/-- Later days have later dates. -/
lemma civilFromDays_lt {z z' : Int64} (hlt : z < z') (hz : z'.toInt + 719468 < 2 ^ 63) :
    civilKey (civilFromDays z) < civilKey (civilFromDays z') := by
  rw [Int64.lt_iff_toInt_lt] at hlt
  obtain ⟨x, hcivil, hx⟩ := exists_civil (z := z) (by omega)
  obtain ⟨x', hcivil', hx'⟩ := exists_civil hz
  rw [civilKey_lt_iff hcivil hcivil', ← Date.dayNumber_lt_iff]
  omega

/-- Later seconds have later texts. -/
lemma iso8601Utc_lt_iff {t t' : ℤ} (ht : 0 ≤ t ∧ t < endOf9999) (ht' : 0 ≤ t' ∧ t' < endOf9999) :
    iso8601Utc t < iso8601Utc t' ↔ t / 1000000000 < t' / 1000000000 := by
  obtain ⟨x, htext, hsecond⟩ := iso8601Utc_eq ht.1 ht.2
  obtain ⟨x', htext', hsecond'⟩ := iso8601Utc_eq ht'.1 ht'.2
  rw [String.lt_iff, htext, htext']
  exact Timestamp.text_lt_iff_of_isSecond hsecond hsecond'

/-- The conversion to the calendar is exact: the result for a day is the one date that
lies as many days after the epoch, as long as the first addition does not overflow, and
dates grow with the days. A text of `iso8601_utc` has 20 characters, is the text of the
second and of no other, and the texts are ordered as the seconds are. -/
theorem timestamps_exact :
    (∀ z : Int64, z.toInt + 719468 < 2 ^ 63 →
      ∃ x : Date, IsCivil (civilFromDays z) x ∧
        ∀ y : Date, LiesAfter z.toInt unixEpoch y ↔ y = x) ∧
    (∀ z z' : Int64, z < z' → z'.toInt + 719468 < 2 ^ 63 →
      civilKey (civilFromDays z) < civilKey (civilFromDays z')) ∧
    (∀ t : ℤ, 0 ≤ t ∧ t < endOf9999 →
      (iso8601Utc t).length = 20 ∧
      (∃ x : Timestamp, (iso8601Utc t).toList = x.text) ∧
      ∀ x : Timestamp, (iso8601Utc t).toList = x.text ↔
        x.IsSecond unixEpoch (t / 1000000000)) ∧
    ∀ t t' : ℤ, 0 ≤ t ∧ t < endOf9999 → 0 ≤ t' ∧ t' < endOf9999 →
      (iso8601Utc t < iso8601Utc t' ↔ t / 1000000000 < t' / 1000000000) := by
  refine ⟨fun z hz => civilFromDays_unique hz, fun z z' hlt hz => civilFromDays_lt hlt hz,
    fun t ht => ?_, fun t t' ht ht' => iso8601Utc_lt_iff ht ht'⟩
  obtain ⟨x, htext, hsecond⟩ := iso8601Utc_eq ht.1 ht.2
  refine ⟨?_, ⟨x, htext⟩, fun y => ?_⟩
  · rw [← String.length_toList, htext]
    exact x.length_text
  · rw [htext]
    exact Timestamp.text_eq_iff_isSecond hsecond

/-- The day before the epoch, the leap day of the year 2000 and the first two seconds. -/
theorem timestamps_exact_epoch :
    (civilFromDays (-1) = (1969, 12, 31) ∧
      ∃ x : Date, IsCivil (1969, 12, 31) x ∧ LiesAfter (-1) unixEpoch x) ∧
    civilKey (civilFromDays 11016) < civilKey (civilFromDays 11017) ∧
    (iso8601Utc 0).length = 20 ∧ iso8601Utc 0 < iso8601Utc 1000000000 := by
  obtain ⟨hdate, hlt, htext, horder⟩ := timestamps_exact
  have hbefore : civilFromDays (-1) = (1969, 12, 31) := by decide
  obtain ⟨x, hcivil, hx⟩ := hdate (-1) (by decide)
  rw [hbefore] at hcivil
  exact ⟨⟨hbefore, x, hcivil, (hx x).mpr rfl⟩, hlt 11016 11017 (by decide) (by decide),
    (htext 0 (by decide)).1, (horder 0 1000000000 (by decide) (by decide)).mpr (by decide)⟩

end Dendri
