import Mathlib.Tactic

/-!
IP addresses and their texts: version 4 in dotted decimal, version 6 in the
compressed form, with the first longest run of zero groups left out.

* `Ipv4`, `Ipv4.text`: the four octets and their decimal text;
* `Ipv4.text_injective`: the text determines the address, because no octet has a
  dot in its text (`takeWhile_octet`);
* `Ipv4.Internal`: loopback, unspecified, link-local and private addresses;
* `Ipv6`, `Ipv6.text`: the eight groups and their text;
* `Ipv6.Internal`: loopback, link-local and unique-local addresses.
-/

namespace IpAddress

/-! ### Version 4 -/

/-- An address of version 4. -/
structure Ipv4 where
  a : UInt8
  b : UInt8
  c : UInt8
  d : UInt8
  deriving DecidableEq, Repr

/-- An octet in decimal. -/
def octet (n : UInt8) : List Char := Nat.toDigits 10 n.toNat

namespace Ipv4

/-- The dotted decimal text. -/
def text (x : Ipv4) : List Char :=
  octet x.a ++ '.' :: (octet x.b ++ '.' :: (octet x.c ++ '.' :: octet x.d))

/-- `127.0.0.0/8`. -/
def Loopback (x : Ipv4) : Prop := x.a = 127

/-- `0.0.0.0`. -/
def Unspecified (x : Ipv4) : Prop := x = ⟨0, 0, 0, 0⟩

/-- `169.254.0.0/16`. -/
def LinkLocal (x : Ipv4) : Prop := x.a = 169 ∧ x.b = 254

/-- `10.0.0.0/8`, `172.16.0.0/12` and `192.168.0.0/16`. -/
def Private (x : Ipv4) : Prop :=
  x.a = 10 ∨ (x.a = 172 ∧ 16 ≤ x.b ∧ x.b ≤ 31) ∨ (x.a = 192 ∧ x.b = 168)

/-- An address that is not one of another host on the public network. -/
def Internal (x : Ipv4) : Prop := x.Loopback ∨ x.Unspecified ∨ x.LinkLocal ∨ x.Private

end Ipv4

lemma isDigit_of_mem_octet {n : UInt8} {c : Char} (h : c ∈ octet n) : c.isDigit = true :=
  Nat.isDigit_of_mem_toDigits (by decide) (by decide) h

lemma octet_injective : Function.Injective octet := by
  intro m n h
  refine UInt8.toNat_inj.mp ?_
  calc
    m.toNat = Nat.ofDigitChars 10 (octet m) 0 := Nat.ofDigitChars_ten_toDigits.symm
    _ = Nat.ofDigitChars 10 (octet n) 0 := by rw [h]
    _ = n.toNat := Nat.ofDigitChars_ten_toDigits

/-- What stands before the first dot behind an octet is the octet. -/
lemma takeWhile_octet (n : UInt8) (rest : List Char) :
    (octet n ++ '.' :: rest).takeWhile (· ≠ '.') = octet n := by
  rw [List.takeWhile_append_of_pos]
  · simp
  · intro c hc
    have hdigit := isDigit_of_mem_octet hc
    refine decide_eq_true ?_
    rintro rfl
    exact absurd hdigit (by decide)

/-- A dot behind an octet ends it. -/
lemma octet_append_inj {m n : UInt8} {rest rest' : List Char}
    (h : octet m ++ '.' :: rest = octet n ++ '.' :: rest') : m = n ∧ rest = rest' := by
  have hfirst := congrArg (List.takeWhile (· ≠ '.')) h
  rw [takeWhile_octet, takeWhile_octet] at hfirst
  rw [hfirst] at h
  exact ⟨octet_injective hfirst, (List.cons.inj (List.append_cancel_left h)).2⟩

lemma Ipv4.text_injective : Function.Injective Ipv4.text := by
  rintro ⟨a, b, c, d⟩ ⟨a', b', c', d'⟩ h
  obtain ⟨ha, h⟩ := octet_append_inj h
  obtain ⟨hb, h⟩ := octet_append_inj h
  obtain ⟨hc, h⟩ := octet_append_inj h
  exact (Ipv4.mk.injEq _ _ _ _ _ _ _ _).mpr ⟨ha, hb, hc, octet_injective h⟩

/-- The text has digits and dots only. -/
lemma Ipv4.mem_text {x : Ipv4} {c : Char} (h : c ∈ x.text) : c.isDigit = true ∨ c = '.' := by
  simp only [Ipv4.text, List.mem_append, List.mem_cons] at h
  rcases h with h | h | h | h | h | h | h
  · exact Or.inl (isDigit_of_mem_octet h)
  · exact Or.inr h
  · exact Or.inl (isDigit_of_mem_octet h)
  · exact Or.inr h
  · exact Or.inl (isDigit_of_mem_octet h)
  · exact Or.inr h
  · exact Or.inl (isDigit_of_mem_octet h)

/-! ### Version 6 -/

/-- An address of version 6. -/
structure Ipv6 where
  groups : List UInt16
  length_eq : groups.length = 8

namespace Ipv6

/-- A group in hexadecimal, in lower case and without leading zeros. -/
def group (n : UInt16) : List Char := Nat.toDigits 16 n.toNat

/-- Groups with colons between them. -/
def join (groups : List UInt16) : List Char := [':'].intercalate (groups.map group)

/-- How many groups from the given position on are zero. -/
def zerosAt (groups : List UInt16) (i : ℕ) : ℕ := ((groups.drop i).takeWhile (· = 0)).length

/-- The position and the length of the first longest run of zero groups. -/
def longestZeros (groups : List UInt16) : ℕ × ℕ :=
  (List.range groups.length).foldl
    (fun best i => if best.2 < zerosAt groups i then (i, zerosAt groups i) else best) (0, 0)

/-- The compressed text: a run of at least two zero groups is left out. -/
def text (x : Ipv6) : List Char :=
  let (start, length) := longestZeros x.groups
  if 2 ≤ length then
    join (x.groups.take start) ++ ':' :: ':' :: join (x.groups.drop (start + length))
  else join x.groups

/-- The first group. -/
def head (x : Ipv6) : UInt16 := x.groups.headD 0

/-- `::1`. -/
def Loopback (x : Ipv6) : Prop := x.groups = [0, 0, 0, 0, 0, 0, 0, 1]

/-- `fe80::/10`. -/
def LinkLocal (x : Ipv6) : Prop := x.head &&& 0xffc0 = 0xfe80

/-- `fc00::/7`. -/
def UniqueLocal (x : Ipv6) : Prop := x.head &&& 0xfe00 = 0xfc00

/-- An address that is not one of another host on the public network. -/
def Internal (x : Ipv6) : Prop := x.Loopback ∨ x.LinkLocal ∨ x.UniqueLocal

end Ipv6

example : Ipv6.text ⟨[0xfe80, 0, 0, 0, 0, 0, 0, 0x1f], rfl⟩ =
    ['f', 'e', '8', '0', ':', ':', '1', 'f'] := by decide

end IpAddress
