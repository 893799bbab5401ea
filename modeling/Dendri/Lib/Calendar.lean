import Mathlib.Data.Prod.Lex
import Mathlib.Tactic

/-!
The proleptic Gregorian calendar, and timestamps of fixed width.

* `Date`: a year, a month and a day that the month has; `Date.tomorrow`: the next
  day;
* `LiesAfter z x y`: the date `y` lies `z` days after `x`, counted with `tomorrow`,
  backwards if `z` is negative;
* `Date.dayNumber`: the days since the first of March of the year 0. Years are
  counted from March on, so that a leap day is the last day of its year
  (`shiftedYear`, `dayOfYear`); it grows by one from day to day
  (`dayNumber_tomorrow`) and with the date (`dayNumber_lt_iff`), so it determines
  the date and measures the distance of two dates (`liesAfter_iff`). Every number
  is that of a date (`exists_dayNumber_eq`), and the eras of 400 years have the same
  length (`era_eq`);
* `digits`: the numeral of a number with a fixed width, ordered as the number is
  (`digits_append_lt_iff`);
* `Timestamp`: a second of the years 0 to 9999, with its text; texts are ordered as
  the seconds are (`text_lt_iff_of_isSecond`), and each is that of one second
  (`text_eq_iff_isSecond`).
-/

namespace Calendar

/-! ### Dates -/

/-- A leap year: every fourth year, of the hundreds every fourth one. -/
def IsLeap (y : ℤ) : Prop := 4 ∣ y ∧ (100 ∣ y → 400 ∣ y)

instance : DecidablePred IsLeap := fun y =>
  inferInstanceAs (Decidable (4 ∣ y ∧ (100 ∣ y → 400 ∣ y)))

/-- The number of days of the month `m` of the year `y`. -/
def monthLength (y m : ℤ) : ℤ :=
  if m = 2 then if IsLeap y then 29 else 28
  else if m = 4 ∨ m = 6 ∨ m = 9 ∨ m = 11 then 30
  else 31

/-- A date of the proleptic Gregorian calendar. -/
@[ext]
structure Date where
  year : ℤ
  month : ℤ
  day : ℤ
  month_pos : 1 ≤ month
  month_le : month ≤ 12
  day_pos : 1 ≤ day
  day_le : day ≤ monthLength year month

lemma monthLength_pos (y m : ℤ) : 1 ≤ monthLength y m := by
  rw [monthLength]
  split_ifs <;> omega

namespace Date

/-- The first of January of the year `y`. -/
def newYear (y : ℤ) : Date where
  year := y
  month := 1
  day := 1
  month_pos := le_refl 1
  month_le := by decide
  day_pos := le_refl 1
  day_le := monthLength_pos _ _

/-- The next day. -/
def tomorrow (x : Date) : Date :=
  if hday : x.day < monthLength x.year x.month then
    { x with
      day := x.day + 1
      day_pos := by have := x.day_pos; omega
      day_le := hday }
  else if hmonth : x.month < 12 then
    { year := x.year
      month := x.month + 1
      day := 1
      month_pos := by have := x.month_pos; omega
      month_le := hmonth
      day_pos := le_refl 1
      day_le := monthLength_pos _ _ }
  else newYear (x.year + 1)

/-- The year, the month and the day, in lexicographic order. -/
def key (x : Date) : ℤ ×ₗ ℤ ×ₗ ℤ := toLex (x.year, toLex (x.month, x.day))

lemma key_injective : Function.Injective key := by
  intro x y h
  obtain ⟨hyear, hrest⟩ := Prod.mk.inj (toLex.injective h)
  obtain ⟨hmonth, hday⟩ := Prod.mk.inj (toLex.injective hrest)
  exact Date.ext hyear hmonth hday

lemma key_lt_iff {x y : Date} :
    x.key < y.key ↔ x.year < y.year ∨ x.year = y.year ∧
      (x.month < y.month ∨ x.month = y.month ∧ x.day < y.day) := by
  rw [key, key, Prod.Lex.toLex_lt_toLex, Prod.Lex.toLex_lt_toLex]

end Date

/-- The date `y` lies `z` days after the date `x`. -/
def LiesAfter (z : ℤ) (x y : Date) : Prop :=
  Date.tomorrow^[z.toNat] x = Date.tomorrow^[(-z).toNat] y

/-! ### Day numbers -/

/-- The days from the first of March of the year 0 to that of the year `y`. -/
def yearStart (y : ℤ) : ℤ := 365 * y + y / 4 - y / 100 + y / 400

/-- A year, counted from March on, has 366 days if its February has a leap day. -/
lemma yearStart_succ (y : ℤ) :
    yearStart (y + 1) = yearStart y + if IsLeap (y + 1) then 366 else 365 := by
  simp only [yearStart, IsLeap]
  split_ifs <;> omega

lemma yearStart_mono {y y' : ℤ} (h : y ≤ y') : yearStart y ≤ yearStart y' := by
  simp only [yearStart]
  omega

namespace Date

variable (x y : Date)

/-- The year, counted from March on. -/
def shiftedYear : ℤ := if x.month ≤ 2 then x.year - 1 else x.year

/-- The months since March. -/
def shiftedMonth : ℤ := if x.month ≤ 2 then x.month + 9 else x.month - 3

/-- The days since the first of March. -/
def dayOfYear : ℤ := (153 * x.shiftedMonth + 2) / 5 + x.day - 1

/-- The days since the first of March of the year 0. -/
def dayNumber : ℤ := yearStart x.shiftedYear + x.dayOfYear

/-- Both ways to count the months of all years differ by three. -/
lemma shifted_eq : 12 * x.shiftedYear + x.shiftedMonth + 3 = 12 * x.year + x.month ∧
    0 ≤ x.shiftedMonth ∧ x.shiftedMonth ≤ 11 := by
  have hpos := x.month_pos
  have hle := x.month_le
  rw [shiftedYear, shiftedMonth]
  split_ifs <;> omega

lemma month_eq :
    x.month = if x.shiftedMonth < 10 then x.shiftedMonth + 3 else x.shiftedMonth - 9 := by
  have hpos := x.month_pos
  have hle := x.month_le
  rw [shiftedMonth]
  split_ifs <;> omega

/-- What the length of the months says about a day. -/
lemma day_bounds : x.day ≤ 31 ∧
    (x.month = 4 ∨ x.month = 6 ∨ x.month = 9 ∨ x.month = 11 → x.day ≤ 30) ∧
    (x.month = 2 → x.day ≤ 29 ∧ (x.day = 29 → IsLeap x.year)) := by
  have hday := x.day_le
  rw [monthLength] at hday
  split_ifs at hday with hfeb hleap hshort
  · exact ⟨by omega, fun _ => by omega, fun _ => ⟨hday, fun _ => hleap⟩⟩
  · exact ⟨by omega, fun _ => by omega, fun _ => ⟨by omega, fun _ => by omega⟩⟩
  · exact ⟨by omega, fun _ => hday, fun h => absurd h hfeb⟩
  · exact ⟨hday, fun h => absurd h hshort, fun h => absurd h hfeb⟩

/-- The day of the year: it determines the month, and only a leap day is the last of
366 days. -/
lemma dayOfYear_spec : x.shiftedMonth = (5 * x.dayOfYear + 2) / 153 ∧
    0 ≤ x.dayOfYear ∧ x.dayOfYear ≤ 365 ∧
    (x.dayOfYear = 365 → x.month = 2 ∧ x.day = 29) := by
  have hpos := x.month_pos
  have hle := x.month_le
  have hday := x.day_pos
  obtain ⟨hlong, hshort, hfeb⟩ := x.day_bounds
  rw [dayOfYear, shiftedMonth]
  generalize x.month = m at *
  interval_cases m <;> norm_num at hshort hfeb ⊢ <;> omega

lemma shiftedMonth_eq : x.shiftedMonth = (5 * x.dayOfYear + 2) / 153 := x.dayOfYear_spec.1

lemma dayOfYear_nonneg : 0 ≤ x.dayOfYear := x.dayOfYear_spec.2.1

lemma dayOfYear_le : x.dayOfYear ≤ 365 := x.dayOfYear_spec.2.2.1

/-- Only the year before a leap day has a day 365. -/
lemma isLeap_of_dayOfYear (h : x.dayOfYear = 365) : IsLeap (x.shiftedYear + 1) := by
  obtain ⟨hmonth, hday⟩ := x.dayOfYear_spec.2.2.2 h
  rw [shiftedYear, if_pos (by omega), Int.sub_add_cancel]
  exact (x.day_bounds.2.2 hmonth).2 hday

/-- The next year, counted from March on, starts later. -/
lemma dayNumber_lt : x.dayNumber < yearStart (x.shiftedYear + 1) := by
  have hle := x.dayOfYear_le
  rw [dayNumber, yearStart_succ]
  by_cases hleap : IsLeap (x.shiftedYear + 1)
  · rw [if_pos hleap]
    omega
  · have hne : x.dayOfYear ≠ 365 := mt x.isLeap_of_dayOfYear hleap
    rw [if_neg hleap]
    omega

/-- Tomorrow has the next number. -/
lemma dayNumber_tomorrow : x.tomorrow.dayNumber = x.dayNumber + 1 := by
  have hpos := x.month_pos
  have hle := x.month_le
  have hday := x.day_pos
  have hlen := x.day_le
  rw [tomorrow]
  split_ifs with hd hm
  · simp only [dayNumber, dayOfYear, shiftedYear, shiftedMonth]
    omega
  · have hend : x.day = monthLength x.year x.month := le_antisymm hlen (not_lt.mp hd)
    simp only [dayNumber, dayOfYear, shiftedYear, shiftedMonth, hend, monthLength]
    by_cases hfeb : x.month = 2
    · have hyear := yearStart_succ (x.year - 1)
      rw [Int.sub_add_cancel] at hyear
      simp only [hfeb]
      norm_num
      rw [hyear]
      split_ifs <;> omega
    · generalize x.month = m at *
      interval_cases m <;> norm_num <;> omega
  · have hend : x.day = monthLength x.year x.month := le_antisymm hlen (not_lt.mp hd)
    have hdec : x.month = 12 := by omega
    simp only [newYear, dayNumber, dayOfYear, shiftedYear, shiftedMonth, hend, monthLength, hdec]
    norm_num
    omega

lemma dayNumber_lt_of_key_lt {x y : Date} (h : x.key < y.key) : x.dayNumber < y.dayNumber := by
  have hmonths : 12 * x.year + x.month < 12 * y.year + y.month ∨
      12 * x.year + x.month = 12 * y.year + y.month ∧ x.day < y.day := by
    have hpos := y.month_pos
    have hle := x.month_le
    rw [key_lt_iff] at h
    omega
  have hx := x.shifted_eq
  have hy := y.shifted_eq
  by_cases hyear : x.shiftedYear < y.shiftedYear
  · have hnext : yearStart (x.shiftedYear + 1) ≤ yearStart y.shiftedYear := yearStart_mono hyear
    calc x.dayNumber < yearStart (x.shiftedYear + 1) := x.dayNumber_lt
      _ ≤ yearStart y.shiftedYear := hnext
      _ ≤ y.dayNumber := le_add_of_nonneg_right y.dayOfYear_nonneg
  · have hsame : x.shiftedYear = y.shiftedYear := by omega
    have hday : x.dayOfYear < y.dayOfYear := by
      by_cases hmonth : x.shiftedMonth < y.shiftedMonth
      · rw [x.shiftedMonth_eq, y.shiftedMonth_eq] at hmonth
        omega
      · have hsame' : x.shiftedMonth = y.shiftedMonth := by omega
        rw [dayOfYear, dayOfYear, hsame']
        omega
    rw [dayNumber, dayNumber, hsame]
    exact Int.add_lt_add_left hday _

/-- Day numbers are ordered as the dates are. -/
lemma dayNumber_lt_iff {x y : Date} : x.dayNumber < y.dayNumber ↔ x.key < y.key := by
  refine ⟨fun h => ?_, dayNumber_lt_of_key_lt⟩
  rcases lt_trichotomy x.key y.key with hlt | heq | hgt
  · exact hlt
  · rw [key_injective heq] at h
    exact absurd h (lt_irrefl _)
  · exact absurd h (lt_asymm (dayNumber_lt_of_key_lt hgt))

lemma dayNumber_injective : Function.Injective dayNumber := by
  intro x y h
  refine key_injective (le_antisymm (not_lt.mp fun hlt => ?_) (not_lt.mp fun hlt => ?_))
  · exact absurd (dayNumber_lt_of_key_lt hlt) (by omega)
  · exact absurd (dayNumber_lt_of_key_lt hlt) (by omega)

lemma dayNumber_iterate (n : ℕ) : (tomorrow^[n] x).dayNumber = x.dayNumber + n := by
  induction n with
  | zero => simp
  | succ n ih =>
    rw [Function.iterate_succ_apply', dayNumber_tomorrow, ih]
    push_cast
    ring

/-- Every number is that of a date. -/
lemma exists_dayNumber_eq (n : ℤ) : ∃ x : Date, x.dayNumber = n := by
  -- count from the first of March that begins the era of 400 years
  let start : Date :=
    { year := 400 * (n / 146097)
      month := 3
      day := 1
      month_pos := by decide
      month_le := by decide
      day_pos := le_refl 1
      day_le := monthLength_pos _ _ }
  have hstart : start.dayNumber = 146097 * (n / 146097) := by
    have hyear : start.dayNumber = yearStart (400 * (n / 146097)) := by
      simp [start, dayNumber, dayOfYear, shiftedYear, shiftedMonth]
    rw [hyear, yearStart]
    omega
  refine ⟨tomorrow^[(n % 146097).toNat] start, ?_⟩
  rw [dayNumber_iterate, hstart]
  omega

/-! ### Eras of 400 years -/

/-- The days since the beginning of the era, by the year of the era. -/
lemma dayOfEra_eq : x.dayNumber - 146097 * (x.shiftedYear / 400) =
    365 * (x.shiftedYear % 400) + x.shiftedYear % 400 / 4 - x.shiftedYear % 400 / 100
      + x.dayOfYear := by
  rw [dayNumber, yearStart]
  omega

/-- An era has 146097 days. -/
lemma era_eq : x.dayNumber / 146097 = x.shiftedYear / 400 := by
  have hera := x.dayOfEra_eq
  have hnonneg := x.dayOfYear_nonneg
  have hle := x.dayOfYear_le
  have hleap := x.isLeap_of_dayOfYear
  rw [IsLeap] at hleap
  omega

end Date

/-- The distance of two dates is the difference of their day numbers. -/
theorem liesAfter_iff {z : ℤ} {x y : Date} :
    LiesAfter z x y ↔ y.dayNumber = x.dayNumber + z := by
  have hcount : (Date.tomorrow^[z.toNat] x).dayNumber = (Date.tomorrow^[(-z).toNat] y).dayNumber ↔
      y.dayNumber = x.dayNumber + z := by
    rw [Date.dayNumber_iterate, Date.dayNumber_iterate]
    omega
  rw [← hcount, LiesAfter]
  exact Date.dayNumber_injective.eq_iff.symm

/-! ### Numerals of fixed width -/

/-- The last `w` decimal digits of a number. -/
def digits : ℕ → ℕ → List Char
  | 0, _ => []
  | w + 1, n => digits w (n / 10) ++ [Nat.digitChar (n % 10)]

lemma length_digits (w n : ℕ) : (digits w n).length = w := by
  induction w generalizing n with
  | zero => rfl
  | succ w ih => rw [digits, List.length_append, ih, List.length_singleton]

lemma digitChar_lt_iff {a b : ℕ} (ha : a < 10) (hb : b < 10) :
    Nat.digitChar a < Nat.digitChar b ↔ a < b := by
  interval_cases a <;> interval_cases b <;> decide

lemma digitChar_inj {a b : ℕ} (ha : a < 10) (hb : b < 10) :
    Nat.digitChar a = Nat.digitChar b ↔ a = b := by
  interval_cases a <;> interval_cases b <;> decide

/-- Numerals of the same width are ordered as the numbers are. -/
lemma digits_append_lt_iff {w n n' : ℕ} (hn : n < 10 ^ w) (hn' : n' < 10 ^ w)
    (rest rest' : List Char) :
    digits w n ++ rest < digits w n' ++ rest' ↔ n < n' ∨ n = n' ∧ rest < rest' := by
  induction w generalizing n n' rest rest' with
  | zero =>
    have h : n = n' := by omega
    simp [digits, h]
  | succ w ih =>
    have hlt : n / 10 < 10 ^ w := by omega
    have hlt' : n' / 10 < 10 ^ w := by omega
    rw [digits, digits, List.append_assoc, List.append_assoc, ih hlt hlt', List.singleton_append,
      List.singleton_append, List.cons_lt_cons_iff,
      digitChar_lt_iff (Nat.mod_lt _ (by omega)) (Nat.mod_lt _ (by omega)),
      digitChar_inj (Nat.mod_lt _ (by omega)) (Nat.mod_lt _ (by omega))]
    by_cases hrest : rest < rest'
    · simp only [hrest, and_true]
      omega
    · simp only [hrest, and_false, or_false]
      omega

/-- A field of a text, up to the separator behind it. -/
lemma field_lt_iff {w n n' : ℕ} (hn : n < 10 ^ w) (hn' : n' < 10 ^ w) (sep : Char)
    (rest rest' : List Char) :
    digits w n ++ sep :: rest < digits w n' ++ sep :: rest' ↔
      n < n' ∨ n = n' ∧ rest < rest' := by
  rw [digits_append_lt_iff hn hn', List.cons_lt_cons_iff]
  simp

lemma digits_zero (w : ℕ) : digits w 0 = List.replicate w '0' := by
  induction w with
  | zero => rfl
  | succ w ih =>
    rw [digits, List.replicate_succ', Nat.zero_div, ih]
    rfl

/-- Padding with zeros gives the numeral of the width. -/
lemma replicate_append_toDigits {w n : ℕ} (hw : 0 < w) (hn : n < 10 ^ w) :
    List.replicate (w - (Nat.toDigits 10 n).length) '0' ++ Nat.toDigits 10 n = digits w n := by
  induction w generalizing n with
  | zero => exact absurd hw (lt_irrefl 0)
  | succ w ih =>
    by_cases hsmall : n < 10
    · rw [Nat.toDigits_of_lt_base hsmall, digits, Nat.div_eq_of_lt hsmall, digits_zero,
        Nat.mod_eq_of_lt hsmall]
      rfl
    · have hpos : 0 < w := by
        by_contra hzero
        have hw0 : w = 0 := by omega
        subst hw0
        exact hsmall hn
      have hrest := ih hpos (n := n / 10) (by omega)
      rw [Nat.toDigits_of_base_le (by omega) (not_lt.mp hsmall), List.length_append,
        List.length_singleton, Nat.add_sub_add_right, ← List.append_assoc, hrest, digits]

/-! ### Timestamps -/

/-- A second of the years 0 to 9999. -/
structure Timestamp where
  date : Date
  hour : ℕ
  minute : ℕ
  second : ℕ
  year_nonneg : 0 ≤ date.year
  year_le : date.year ≤ 9999
  hour_lt : hour < 24
  minute_lt : minute < 60
  second_lt : second < 60

namespace Timestamp

/-- `YYYY-MM-DDTHH:MM:SSZ`. -/
def text (x : Timestamp) : List Char :=
  digits 4 x.date.year.toNat ++ '-' :: (digits 2 x.date.month.toNat ++ '-' ::
    (digits 2 x.date.day.toNat ++ 'T' :: (digits 2 x.hour ++ ':' ::
      (digits 2 x.minute ++ ':' :: (digits 2 x.second ++ 'Z' :: [])))))

/-- The seconds of the day that have passed. -/
def clock (x : Timestamp) : ℕ := 3600 * x.hour + 60 * x.minute + x.second

/-- The timestamp is the second `sec` after the beginning of the day `epoch`. -/
def IsSecond (x : Timestamp) (epoch : Date) (sec : ℤ) : Prop :=
  LiesAfter (sec / 86400) epoch x.date ∧ (x.clock : ℤ) = sec % 86400

/-- The second `r` of the day `x`. -/
def ofClock (x : Date) (hlow : 0 ≤ x.year) (hhigh : x.year ≤ 9999) (r : ℕ) (hr : r < 86400) :
    Timestamp where
  date := x
  hour := r / 3600
  minute := r % 3600 / 60
  second := r % 60
  year_nonneg := hlow
  year_le := hhigh
  hour_lt := by omega
  minute_lt := by omega
  second_lt := by omega

lemma clock_ofClock {x : Date} {hlow : 0 ≤ x.year} {hhigh : x.year ≤ 9999} {r : ℕ}
    {hr : r < 86400} : (ofClock x hlow hhigh r hr).clock = r := by
  simp only [clock, ofClock]
  omega

lemma length_text (x : Timestamp) : x.text.length = 20 := by
  simp [text, length_digits]

/-- Every field has the width it is written with. -/
lemma fields_lt (x : Timestamp) : x.date.year.toNat < 10 ^ 4 ∧ x.date.month.toNat < 10 ^ 2 ∧
    x.date.day.toNat < 10 ^ 2 ∧ x.hour < 10 ^ 2 ∧ x.minute < 10 ^ 2 ∧ x.second < 10 ^ 2 := by
  have hyear := x.year_le
  have hmonth := x.date.month_le
  have hday := x.date.day_bounds.1
  have hhour := x.hour_lt
  have hminute := x.minute_lt
  have hsecond := x.second_lt
  omega

lemma clock_lt_clock_iff {x y : Timestamp} :
    x.clock < y.clock ↔ x.hour < y.hour ∨ x.hour = y.hour ∧
      (x.minute < y.minute ∨ x.minute = y.minute ∧ x.second < y.second) := by
  have hminute := x.minute_lt
  have hminute' := y.minute_lt
  have hsecond := x.second_lt
  have hsecond' := y.second_lt
  rw [clock, clock]
  omega

/-- The texts are ordered as the dates and then as the clocks are. -/
lemma text_lt_iff {x y : Timestamp} :
    x.text < y.text ↔ x.date.key < y.date.key ∨ x.date = y.date ∧ x.clock < y.clock := by
  obtain ⟨hyear, hmonth, hday, hhour, hminute, hsecond⟩ := x.fields_lt
  obtain ⟨hyear', hmonth', hday', hhour', hminute', hsecond'⟩ := y.fields_lt
  have hnil : ¬([] : List Char) < [] := List.not_lt_nil _
  rw [text, text, field_lt_iff hyear hyear', field_lt_iff hmonth hmonth', field_lt_iff hday hday',
    field_lt_iff hhour hhour', field_lt_iff hminute hminute', field_lt_iff hsecond hsecond',
    Date.key_lt_iff, Date.ext_iff, clock_lt_clock_iff]
  simp only [hnil, and_false, or_false]
  -- none of the fields is negative
  have hnat : ∀ {a b : ℤ}, 0 ≤ a → 0 ≤ b →
      (a.toNat < b.toNat ↔ a < b) ∧ (a.toNat = b.toNat ↔ a = b) := by
    intro a b ha hb
    omega
  have hyears := hnat x.year_nonneg y.year_nonneg
  have hmonths := hnat (zero_le_one.trans x.date.month_pos) (zero_le_one.trans y.date.month_pos)
  have hdays := hnat (zero_le_one.trans x.date.day_pos) (zero_le_one.trans y.date.day_pos)
  rw [hyears.1, hyears.2, hmonths.1, hmonths.2, hdays.1, hdays.2]
  simp only [and_or_left, or_assoc, and_assoc]

/-- The texts are ordered as the seconds are. -/
theorem text_lt_iff_of_isSecond {x y : Timestamp} {epoch : Date} {a b : ℤ}
    (hx : x.IsSecond epoch a) (hy : y.IsSecond epoch b) : x.text < y.text ↔ a < b := by
  obtain ⟨hday, hclock⟩ := hx
  obtain ⟨hday', hclock'⟩ := hy
  rw [liesAfter_iff] at hday hday'
  rw [text_lt_iff, ← Date.dayNumber_lt_iff, ← Date.dayNumber_injective.eq_iff]
  omega

/-- A text is that of one second. -/
theorem text_eq_iff_isSecond {x y : Timestamp} {epoch : Date} {sec : ℤ}
    (hx : x.IsSecond epoch sec) : x.text = y.text ↔ y.IsSecond epoch sec := by
  constructor
  · intro htext
    have hlt : ¬x.text < y.text := by
      rw [htext]
      exact List.lt_irrefl _
    have hgt : ¬y.text < x.text := by
      rw [htext]
      exact List.lt_irrefl _
    rw [text_lt_iff, not_or] at hlt hgt
    have hdate : x.date = y.date :=
      Date.key_injective (le_antisymm (not_lt.mp hgt.1) (not_lt.mp hlt.1))
    have hclock : x.clock = y.clock :=
      le_antisymm (not_lt.mp fun h => hgt.2 ⟨hdate.symm, h⟩) (not_lt.mp fun h => hlt.2 ⟨hdate, h⟩)
    rw [IsSecond, ← hdate, ← hclock]
    exact hx
  · intro hy
    have hlt := mt (text_lt_iff_of_isSecond hx hy).mp (lt_irrefl sec)
    have hgt := mt (text_lt_iff_of_isSecond hy hx).mp (lt_irrefl sec)
    exact List.le_antisymm hgt hlt

end Timestamp

end Calendar
