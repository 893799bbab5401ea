import Mathlib.Tactic

/-!
JSON texts, as a serializer writes them: strings with their escapes, objects and
arrays without white space.

* `escape`, `quote`: a character and a string in a JSON text;
* `Plain`: no character has to be escaped. Then quoting is putting the string
  between quotation marks (`quote_of_plain`);
* `length_quote_le`, `plain_of_length_le`: a quoted string is at least as long
  as the bare one, and as long only when it is plain;
* `object`, `array`: the texts of objects and arrays from those of their parts.
-/

namespace Json

/-- The quotation mark. -/
def mark : Char := '\x22'

/-- The backslash. -/
def backslash : Char := '\x5c'

/-- The characters that a string has to escape: the quotation mark, the backslash
and the control characters. -/
def mustEscape (c : Char) : Bool :=
  c == mark || c == backslash || c.toNat < 32

/-- The text of a character: the short escapes where there is one, else the
number of a control character in four hexadecimal digits. -/
def escape (c : Char) : List Char :=
  if c = mark then [backslash, mark]
  else if c = backslash then [backslash, backslash]
  else if c.toNat = 8 then [backslash, 'b']
  else if c.toNat = 9 then [backslash, 't']
  else if c.toNat = 10 then [backslash, 'n']
  else if c.toNat = 12 then [backslash, 'f']
  else if c.toNat = 13 then [backslash, 'r']
  else if c.toNat < 32 then
    [backslash, 'u', '0', '0', Nat.digitChar (c.toNat / 16), Nat.digitChar (c.toNat % 16)]
  else [c]

/-- The text of a string. -/
def quote (s : String) : String :=
  String.ofList (mark :: (s.toList.flatMap escape ++ [mark]))

/-- The string between quotation marks, as it is. -/
def bare (s : String) : String := String.ofList (mark :: (s.toList ++ [mark]))

/-- No character of the string has to be escaped. -/
def Plain (s : String) : Prop := ∀ c ∈ s.toList, mustEscape c = false

instance (s : String) : Decidable (Plain s) :=
  List.decidableBAll (fun c => mustEscape c = false) s.toList

lemma escape_of_plain {c : Char} (h : mustEscape c = false) : escape c = [c] := by
  simp only [mustEscape, Bool.or_eq_false_iff, beq_eq_false_iff_ne, decide_eq_false_iff_not] at h
  obtain ⟨⟨hmark, hback⟩, hcontrol⟩ := h
  rw [escape, if_neg hmark, if_neg hback, if_neg (by omega), if_neg (by omega), if_neg (by omega),
    if_neg (by omega), if_neg (by omega), if_neg hcontrol]

/-- An escaped character takes at least two. -/
lemma two_le_length_escape {c : Char} (h : mustEscape c = true) : 2 ≤ (escape c).length := by
  simp only [mustEscape, Bool.or_eq_true, beq_iff_eq, decide_eq_true_eq] at h
  rw [escape]
  split_ifs with h₁ h₂ h₃ h₄ h₅ h₆ h₇ h₈
  · exact le_refl 2
  · exact le_refl 2
  · exact le_refl 2
  · exact le_refl 2
  · exact le_refl 2
  · exact le_refl 2
  · exact le_refl 2
  · exact Nat.le_add_left 2 4
  · rcases h with (h | h) | h
    · exact absurd h h₁
    · exact absurd h h₂
    · exact absurd h h₈

lemma one_le_length_escape (c : Char) : 1 ≤ (escape c).length := by
  cases h : mustEscape c with
  | true => exact (Nat.le_succ 1).trans (two_le_length_escape h)
  | false => rw [escape_of_plain h, List.length_singleton]

/-- Escaping makes no word shorter, and keeps the length of plain words only. -/
lemma length_flatMap_escape (l : List Char) :
    l.length ≤ (l.flatMap escape).length ∧
      ((l.flatMap escape).length ≤ l.length → ∀ c ∈ l, mustEscape c = false) := by
  induction l with
  | nil => exact ⟨le_refl 0, fun _ c hc => absurd hc List.not_mem_nil⟩
  | cons a l ih =>
      obtain ⟨hle, hplain⟩ := ih
      have hone := one_le_length_escape a
      rw [List.flatMap_cons, List.length_append, List.length_cons]
      refine ⟨by omega, fun hlen c hc => ?_⟩
      rcases List.mem_cons.mp hc with rfl | hc
      · by_contra hmust
        have htwo := two_le_length_escape (Bool.eq_true_of_not_eq_false hmust)
        omega
      · exact hplain (by omega) c hc

lemma length_bare (s : String) : (bare s).length = s.length + 2 := by
  simp only [bare, String.length_ofList, List.length_cons, List.length_append, List.length_nil,
    String.length_toList]

/-- A quoted string is at least as long as the bare one. -/
lemma length_quote_le (s : String) : (bare s).length ≤ (quote s).length := by
  have hle := (length_flatMap_escape s.toList).1
  simp only [length_bare, quote, String.length_ofList, List.length_cons, List.length_append,
    List.length_nil]
  rw [String.length_toList] at hle
  omega

/-- A quoted string that is as short as the bare one is plain. -/
lemma plain_of_length_le {s : String} (h : (quote s).length ≤ (bare s).length) : Plain s := by
  refine (length_flatMap_escape s.toList).2 ?_
  simp only [length_bare, quote, String.length_ofList, List.length_cons, List.length_append,
    List.length_nil] at h
  rw [String.length_toList]
  omega

lemma quote_of_plain {s : String} (h : Plain s) : quote s = bare s := by
  have hflat : s.toList.flatMap escape = s.toList := by
    have hmap : s.toList.flatMap escape = s.toList.flatMap fun c => [c] :=
      List.flatMap_congr fun c hc => escape_of_plain (h c hc)
    rw [hmap, List.flatMap_singleton']
  rw [quote, hflat, bare]

/-- The text of an object, from its keys and the texts of their values. -/
def object (fields : List (String × String)) : String :=
  "\x7b" ++ ",".intercalate (fields.map fun field => quote field.1 ++ ":" ++ field.2) ++ "\x7d"

/-- The text of an array, from the texts of its elements. -/
def array (elements : List String) : String := "[" ++ ",".intercalate elements ++ "]"

end Json
