import Mathlib.Data.List.TakeWhile
import Mathlib.Tactic

/-!
`validation.rs`, and the room namespacing of `handlers/message.rs` that rests
on it.

* `isValidIdentifier`: 1 to 128 bytes, each of `[A-Za-z0-9_-]`;
* `constantTimeStrEq`: the comparison of shared secrets, equality as a
  function (`constantTimeStrEq_iff`);
* `namespaceRoom`, `roomDisplay`: the storage key of a room and the name shown
  to clients;
* `namespaceRoom_inj`: the storage key of a validly named room determines the
  tenant and the name, since the separator occurs in no valid identifier
  (`sep_notMem_of_isValidIdentifier`); `namespaceRoom_encodes`: and the name can
  be read off.
-/

namespace Dendri

/-- `constant_time_str_eq`: compare the lengths, then all bytes. -/
def constantTimeStrEq (a b : String) : Bool :=
  if a.utf8ByteSize ≠ b.utf8ByteSize then false
  else a.toByteArray.data == b.toByteArray.data

/-- `MAX_IDENTIFIER_LEN`. -/
def maxIdentifierLen : ℕ := 128

/-- A byte of `[A-Za-z0-9]`, the `is_ascii_alphanumeric` of `u8`. -/
def isAsciiAlphanumeric (b : UInt8) : Bool :=
  (48 ≤ b && b ≤ 57) || (65 ≤ b && b ≤ 90) || (97 ≤ b && b ≤ 122)

/-- The bytes an identifier is made of: `[A-Za-z0-9_-]`. -/
def isIdentifierByte (b : UInt8) : Bool :=
  isAsciiAlphanumeric b || b == 95 || b == 45

/-- `is_valid_identifier`. -/
def isValidIdentifier (s : String) : Bool :=
  if s.isEmpty || s.utf8ByteSize > maxIdentifierLen then false
  else s.toByteArray.data.toList.all isIdentifierByte

/-- The comparison of secrets is equality. -/
lemma constantTimeStrEq_iff {a b : String} : constantTimeStrEq a b = true ↔ a = b := by
  rw [constantTimeStrEq]
  split_ifs with hlen
  · refine ⟨fun h => absurd h (by decide), ?_⟩
    rintro rfl
    exact absurd rfl hlen
  · rw [beq_iff_eq, ← ByteArray.ext_iff, String.toByteArray_inj]

/-- Every byte of every character of a valid identifier is an identifier
byte. -/
lemma isIdentifierByte_of_mem {s : String} (hs : isValidIdentifier s = true) {c : Char}
    (hc : c ∈ s.toList) {b : UInt8} (hb : b ∈ String.utf8EncodeChar c) :
    isIdentifierByte b = true := by
  rw [isValidIdentifier] at hs
  split_ifs at hs
  refine List.all_eq_true.mp hs b ?_
  rw [← String.utf8Encode_toList, List.utf8Encode, List.data_toByteArray]
  simpa using ⟨c, hc, hb⟩

/-! ### Room keys -/

/-- `TENANT_SEP`, the ASCII unit separator. -/
def tenantSep : Char := '\u001f'

/-- `namespace_room`: `Some(tenant)` gives `tenant␟room`, `None` gives
`room`. -/
def namespaceRoom (tenant : Option String) (room : String) : String :=
  match tenant with
  | some tenant => tenant ++ String.singleton tenantSep ++ room
  | none => room

/-- `room_display`: what follows the first separator, or the whole key. -/
def roomDisplay (key : String) : String :=
  match key.toList.dropWhile (· ≠ tenantSep) with
  | _ :: name => String.ofList name
  | [] => key

/-- The separator occurs in no valid identifier. -/
lemma sep_notMem_of_isValidIdentifier {s : String} (hs : isValidIdentifier s = true) :
    tenantSep ∉ s.toList := by
  intro hmem
  have hb : (31 : UInt8) ∈ String.utf8EncodeChar tenantSep := by decide
  exact absurd (isIdentifierByte_of_mem hs hmem hb) (by decide)

/-- A word is cut at the last occurrence of a letter in only one way. -/
lemma append_cons_inj_of_notMem_right {α : Type*} {a : α} {u₁ u₂ v₁ v₂ : List α}
    (h₁ : a ∉ v₁) (h₂ : a ∉ v₂) (h : u₁ ++ a :: v₁ = u₂ ++ a :: v₂) : u₁ = u₂ ∧ v₁ = v₂ := by
  rw [List.append_eq_append_iff] at h
  rcases h with ⟨w, hu, hv⟩ | ⟨w, hu, hv⟩
  · cases w with
    | nil => exact ⟨by simpa using hu.symm, by simpa using hv⟩
    | cons b w =>
        rw [List.cons_append, List.cons.injEq] at hv
        exact absurd (by rw [hv.2]; simp) h₁
  · cases w with
    | nil => exact ⟨by simpa using hu, by simpa using hv.symm⟩
    | cons b w =>
        rw [List.cons_append, List.cons.injEq] at hv
        exact absurd (by rw [hv.2]; simp) h₂

lemma toList_namespaceRoom_some (t r : String) :
    (namespaceRoom (some t) r).toList = t.toList ++ tenantSep :: r.toList := by
  simp [namespaceRoom]

/-- The storage key of a validly named room determines the tenant and the
name. -/
theorem namespaceRoom_inj {t₁ t₂ : Option String} {r₁ r₂ : String}
    (h₁ : isValidIdentifier r₁ = true) (h₂ : isValidIdentifier r₂ = true)
    (h : namespaceRoom t₁ r₁ = namespaceRoom t₂ r₂) : t₁ = t₂ ∧ r₁ = r₂ := by
  have hs₁ := sep_notMem_of_isValidIdentifier h₁
  have hs₂ := sep_notMem_of_isValidIdentifier h₂
  have hl := congrArg String.toList h
  cases t₁ with
  | none =>
      cases t₂ with
      | none => exact ⟨rfl, h⟩
      | some t₂ =>
          rw [toList_namespaceRoom_some] at hl
          change r₁.toList = _ at hl
          rw [hl] at hs₁
          simp at hs₁
  | some t₁ =>
      cases t₂ with
      | none =>
          rw [toList_namespaceRoom_some] at hl
          change _ = r₂.toList at hl
          rw [← hl] at hs₂
          simp at hs₂
      | some t₂ =>
          rw [toList_namespaceRoom_some, toList_namespaceRoom_some] at hl
          obtain ⟨ht, hr⟩ := append_cons_inj_of_notMem_right hs₁ hs₂ hl
          exact ⟨by rw [String.toList_inj.mp ht], String.toList_inj.mp hr⟩

/-- The name shown for the key of a validly named room is its name, if the tenant's id
does not contain the separator. -/
lemma roomDisplay_namespaceRoom {tenant : Option String} {room : String}
    (htenant : ∀ t ∈ tenant, tenantSep ∉ t.toList) (hroom : isValidIdentifier room = true) :
    roomDisplay (namespaceRoom tenant room) = room := by
  have hskip : ∀ l : List Char, tenantSep ∉ l → l.dropWhile (· ≠ tenantSep) = [] := by
    intro l hl
    rw [List.dropWhile_eq_nil_iff]
    intro c hc
    exact decide_eq_true fun h => hl (h ▸ hc)
  cases tenant with
  | none =>
      rw [roomDisplay, namespaceRoom, hskip _ (sep_notMem_of_isValidIdentifier hroom)]
  | some t =>
      have hdrop : (namespaceRoom (some t) room).toList.dropWhile (· ≠ tenantSep) =
          tenantSep :: room.toList := by
        rw [toList_namespaceRoom_some, List.dropWhile_append, hskip _ (htenant t rfl)]
        simp
      rw [roomDisplay, hdrop]
      exact String.ofList_toList

/-- Room keys are an encoding: they are equal only for the same tenant and the same name,
and the name can be read off. -/
theorem namespaceRoom_encodes {t₁ t₂ : Option String} {r₁ r₂ : String}
    (ht₁ : ∀ t ∈ t₁, tenantSep ∉ t.toList) (h₁ : isValidIdentifier r₁ = true)
    (h₂ : isValidIdentifier r₂ = true) :
    (namespaceRoom t₁ r₁ = namespaceRoom t₂ r₂ ↔ t₁ = t₂ ∧ r₁ = r₂) ∧
      roomDisplay (namespaceRoom t₁ r₁) = r₁ := by
  refine ⟨⟨namespaceRoom_inj h₁ h₂, ?_⟩, roomDisplay_namespaceRoom ht₁ h₁⟩
  rintro ⟨rfl, rfl⟩
  rfl

/-- The lobby of a tenant is not the lobby without a tenant. -/
theorem namespaceRoom_encodes_lobby :
    namespaceRoom (some "acme") "lobby" ≠ namespaceRoom none "lobby" ∧
      roomDisplay (namespaceRoom (some "acme") "lobby") = "lobby" := by
  have hvalid : isValidIdentifier "lobby" = true := by decide
  have htenant : ∀ t ∈ some "acme", tenantSep ∉ t.toList := by decide
  refine ⟨fun h => ?_, (@namespaceRoom_encodes _ none _ _ htenant hvalid hvalid).2⟩
  exact absurd ((namespaceRoom_encodes htenant hvalid hvalid).1.mp h).1 (by decide)

end Dendri
