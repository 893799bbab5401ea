import Mathlib.Tactic

/-!
Percent-encoding of bytes, and query strings of encoded names and values.

* `encode`, `decode`: every byte that is not unreserved becomes a percent sign and
  two hexadecimal digits; `decode_encode` reads the bytes back;
* `notMem_encode`: no other reserved character occurs in an encoded text;
* `query`: names and values with `=` between and `&` after them; it determines the
  pairs when neither character occurs in a name or a value (`query_injective`).
-/

namespace PercentEncoding

/-! ### Bytes -/

/-- The letters, the digits, and `-`, `_`, `.`, `~`. -/
def unreserved (b : UInt8) : Bool :=
  (65 ≤ b && b ≤ 90) || (97 ≤ b && b ≤ 122) || (48 ≤ b && b ≤ 57) || b == 45 || b == 95 ||
    b == 46 || b == 126

/-- An upper-case hexadecimal digit. -/
def hexDigit (n : ℕ) : Char := if n < 10 then Char.ofNat (48 + n) else Char.ofNat (55 + n)

/-- The value of an upper-case hexadecimal digit. -/
def hexValue (c : Char) : Option ℕ :=
  if 48 ≤ c.toNat ∧ c.toNat ≤ 57 then some (c.toNat - 48)
  else if 65 ≤ c.toNat ∧ c.toNat ≤ 70 then some (c.toNat - 55)
  else none

/-- One byte. -/
def encodeByte (b : UInt8) : List Char :=
  if unreserved b then [Char.ofNat b.toNat]
  else ['%', hexDigit (b.toNat / 16), hexDigit (b.toNat % 16)]

/-- A sequence of bytes. -/
def encode (bytes : List UInt8) : List Char := bytes.flatMap encodeByte

/-- The bytes of an encoded text. -/
def decode : List Char → Option (List UInt8)
  | [] => some []
  | c :: rest =>
      if c = '%' then
        match rest with
        | high :: low :: rest =>
            match hexValue high, hexValue low with
            | some x, some y => (decode rest).map (UInt8.ofNat (16 * x + y) :: ·)
            | _, _ => none
        | _ => none
      else if c.toNat < 256 then (decode rest).map (UInt8.ofNat c.toNat :: ·)
      else none

lemma decode_cons {c : Char} (hc : c ≠ '%') (rest : List Char) :
    decode (c :: rest) =
      if c.toNat < 256 then (decode rest).map (UInt8.ofNat c.toNat :: ·) else none := by
  rw [decode.eq_def]
  exact if_neg hc

lemma decode_percent {high low : Char} {x y : ℕ} (hx : hexValue high = some x)
    (hy : hexValue low = some y) (rest : List Char) :
    decode ('%' :: high :: low :: rest) =
      (decode rest).map (UInt8.ofNat (16 * x + y) :: ·) := by
  rw [decode.eq_def]
  dsimp only
  rw [if_pos rfl, hx, hy]

lemma hexValue_hexDigit {n : ℕ} (h : n < 16) : hexValue (hexDigit n) = some n := by
  interval_cases n <;> rfl

lemma unreserved_hexDigit {n : ℕ} (h : n < 16) :
    ∃ b, unreserved b = true ∧ hexDigit n = Char.ofNat b.toNat := by
  by_cases hn : n < 10
  · refine ⟨UInt8.ofNat (48 + n), ?_, ?_⟩
    · interval_cases n <;> rfl
    · interval_cases n <;> rfl
  · refine ⟨UInt8.ofNat (55 + n), ?_, ?_⟩
    · interval_cases n <;> rfl
    · interval_cases n <;> rfl

lemma toNat_ofNat_toNat (b : UInt8) : (Char.ofNat b.toNat).toNat = b.toNat := by
  have hlt : b.toNat < 256 := b.toNat_lt
  have hvalid : b.toNat.isValidChar := Or.inl (by omega)
  rw [Char.ofNat, dif_pos hvalid]
  rfl

/-- The characters of an encoded text. -/
lemma mem_encodeByte {b : UInt8} {c : Char} (h : c ∈ encodeByte b) :
    c = '%' ∨ ∃ b', unreserved b' = true ∧ c = Char.ofNat b'.toNat := by
  have hlt : b.toNat < 256 := b.toNat_lt
  rw [encodeByte] at h
  split_ifs at h with hfree
  · exact Or.inr ⟨b, hfree, List.mem_singleton.mp h⟩
  · simp only [List.mem_cons, List.not_mem_nil, or_false] at h
    rcases h with rfl | rfl | rfl
    · exact Or.inl rfl
    · exact Or.inr (unreserved_hexDigit (by omega))
    · exact Or.inr (unreserved_hexDigit (by omega))

lemma notMem_encode {c : Char} (hpercent : c ≠ '%')
    (hreserved : unreserved (UInt8.ofNat c.toNat) = false) (bytes : List UInt8) :
    c ∉ encode bytes := by
  intro h
  obtain ⟨b, -, hc⟩ := List.mem_flatMap.mp h
  rcases mem_encodeByte hc with heq | ⟨b', hfree, rfl⟩
  · exact hpercent heq
  · rw [toNat_ofNat_toNat, UInt8.ofNat_toNat, hfree] at hreserved
    cases hreserved

/-- A byte at the front is read back. -/
lemma decode_encodeByte_append (b : UInt8) (rest : List Char) :
    decode (encodeByte b ++ rest) = (decode rest).map (b :: ·) := by
  have hlt : b.toNat < 256 := b.toNat_lt
  rw [encodeByte]
  split_ifs with hfree
  · have hpercent : Char.ofNat b.toNat ≠ '%' := by
      intro heq
      have hvalue := congrArg Char.toNat heq
      rw [toNat_ofNat_toNat] at hvalue
      have hb : b = 37 := UInt8.toNat_inj.mp hvalue
      rw [hb] at hfree
      exact absurd hfree (by decide)
    rw [List.singleton_append, decode_cons hpercent, toNat_ofNat_toNat, if_pos hlt,
      UInt8.ofNat_toNat]
  · have hvalue : UInt8.ofNat (16 * (b.toNat / 16) + b.toNat % 16) = b := by
      rw [Nat.div_add_mod, UInt8.ofNat_toNat]
    have hhigh : hexValue (hexDigit (b.toNat / 16)) = some (b.toNat / 16) :=
      hexValue_hexDigit (by omega)
    have hlow : hexValue (hexDigit (b.toNat % 16)) = some (b.toNat % 16) :=
      hexValue_hexDigit (by omega)
    rw [List.cons_append, List.cons_append, List.singleton_append, decode_percent hhigh hlow,
      hvalue]

/-- Decoding inverts encoding. -/
theorem decode_encode (bytes : List UInt8) : decode (encode bytes) = some bytes := by
  induction bytes with
  | nil => rfl
  | cons b bytes ih =>
    have hcons : encode (b :: bytes) = encodeByte b ++ encode bytes := rfl
    rw [hcons, decode_encodeByte_append, ih]
    rfl

lemma encode_injective : Function.Injective encode := by
  intro bytes bytes' h
  have hdecoded := congrArg decode h
  rw [decode_encode, decode_encode] at hdecoded
  exact Option.some.inj hdecoded

/-! ### Queries -/

/-- A name and its value, with `=` between them. -/
def assignment (p : List Char × List Char) : List Char := p.1 ++ '=' :: p.2

/-- The pairs with `&` between them. -/
def query (pairs : List (List Char × List Char)) : List Char :=
  ['&'].intercalate (pairs.map assignment)

/-- The two characters do not occur where they would be taken for separators. -/
structure Clean (p : List Char × List Char) : Prop where
  name_eq : '=' ∉ p.1
  name_amp : '&' ∉ p.1
  value_amp : '&' ∉ p.2

/-- The first separator ends the part that does not have it. -/
lemma append_cons_inj {α : Type*} {sep : α} {a a' b b' : List α} (ha : sep ∉ a) (ha' : sep ∉ a')
    (h : a ++ sep :: b = a' ++ sep :: b') : a = a' ∧ b = b' := by
  induction a generalizing a' with
  | nil =>
    cases a' with
    | nil => exact ⟨rfl, (List.cons.inj h).2⟩
    | cons x a' => exact absurd (List.mem_cons.mpr (Or.inl (List.cons.inj h).1)) ha'
  | cons x a ih =>
    cases a' with
    | nil => exact absurd (List.mem_cons.mpr (Or.inl (List.cons.inj h).1.symm)) ha
    | cons y a' =>
      obtain ⟨hhead, htail⟩ := List.cons.inj h
      obtain ⟨hname, hrest⟩ := ih (fun hmem => ha (List.mem_cons_of_mem _ hmem))
        (fun hmem => ha' (List.mem_cons_of_mem _ hmem)) htail
      exact ⟨by rw [hhead, hname], hrest⟩

lemma assignment_inj {p p' : List Char × List Char} (hp : Clean p) (hp' : Clean p')
    (h : assignment p = assignment p') : p = p' := by
  obtain ⟨hname, hvalue⟩ := append_cons_inj hp.name_eq hp'.name_eq h
  exact Prod.ext hname hvalue

lemma Clean.notMem_assignment {p : List Char × List Char} (h : Clean p) : '&' ∉ assignment p := by
  rw [assignment, List.mem_append, List.mem_cons]
  rintro (hmem | heq | hmem)
  · exact h.name_amp hmem
  · exact absurd heq (by decide)
  · exact h.value_amp hmem

/-- Between the separators stand the pairs. -/
lemma splitOn_query {pairs : List (List Char × List Char)} (hclean : ∀ p ∈ pairs, Clean p)
    (hne : pairs ≠ []) : (query pairs).splitOn '&' = pairs.map assignment := by
  refine List.splitOn_intercalate '&' (fun part hpart => ?_) (by simpa using hne)
  obtain ⟨p, hp, rfl⟩ := List.mem_map.mp hpart
  exact (hclean p hp).notMem_assignment

lemma query_ne_nil {pairs : List (List Char × List Char)} (hclean : ∀ p ∈ pairs, Clean p)
    (hne : pairs ≠ []) : query pairs ≠ [] := by
  intro h
  have hsplit := splitOn_query hclean hne
  rw [h, List.splitOn_nil] at hsplit
  obtain ⟨p, rest, rfl⟩ := List.exists_cons_of_ne_nil hne
  have hempty := (List.cons.inj hsplit).1
  exact absurd hempty.symm (by simp [assignment])

/-- The query determines the pairs. -/
theorem query_injective {pairs pairs' : List (List Char × List Char)}
    (hclean : ∀ p ∈ pairs, Clean p) (hclean' : ∀ p ∈ pairs', Clean p)
    (h : query pairs = query pairs') : pairs = pairs' := by
  by_cases hne : pairs = []
  · by_cases hne' : pairs' = []
    · rw [hne, hne']
    · rw [hne] at h
      exact absurd h.symm (query_ne_nil hclean' hne')
  · by_cases hne' : pairs' = []
    · rw [hne'] at h
      exact absurd h (query_ne_nil hclean hne)
    · have hparts : pairs.map assignment = pairs'.map assignment := by
        rw [← splitOn_query hclean hne, ← splitOn_query hclean' hne', h]
      clear h hne hne'
      induction pairs generalizing pairs' with
      | nil => exact (List.map_eq_nil_iff.mp hparts.symm).symm
      | cons p pairs ih =>
        cases pairs' with
        | nil => cases hparts
        | cons p' pairs' =>
          obtain ⟨hhead, htail⟩ := List.cons.inj hparts
          have hpair := assignment_inj (hclean p List.mem_cons_self)
            (hclean' p' List.mem_cons_self) hhead
          have hrest := ih (fun q hq => hclean q (List.mem_cons_of_mem _ hq))
            (fun q hq => hclean' q (List.mem_cons_of_mem _ hq)) htail
          rw [hpair, hrest]

end PercentEncoding
