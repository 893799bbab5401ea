import Dendri.Server.Webhook

/-!
Which internal addresses the webhook filter refuses. It compares the text of the
host with literals and prefixes that have no brackets, and of the link-local
addresses of version 4 it lists only the metadata address.

* `hostBlocked_bracketed`: no address of version 6 is refused;
* `hostBlocked_of_internal`: all loopback, unspecified and private addresses of
  version 4 are;
* `hostBlocked_linkLocal`: of the link-local ones only the metadata address is;
* `webhook_filter_iff`: so the filter refuses the URL of an internal address just
  when it is one of those, or the scheme is not one of HTTP;
* `loopback_passes`: it lets `http://[::1]/hook` pass.
-/

namespace Dendri

open IpAddress

/-! ### Comparing texts -/

lemma eqIgnoreAsciiCase_cons (c d : Char) (s t : List Char) :
    eqIgnoreAsciiCase (c :: s) (d :: t) =
      (toAsciiLowercase c == toAsciiLowercase d && eqIgnoreAsciiCase s t) := by
  rw [eqIgnoreAsciiCase, eqIgnoreAsciiCase, List.map_cons, List.map_cons, List.cons_beq_cons]

lemma toAsciiLowercase_of_isDigit {c : Char} (h : c.isDigit = true) : toAsciiLowercase c = c := by
  rw [toAsciiLowercase, if_neg]
  rintro ⟨hlower, -⟩
  have hupper : c.toNat ≤ 57 := by
    simp only [Char.isDigit, Bool.and_eq_true, decide_eq_true_eq] at h
    exact h.2
  have hlarge : 65 ≤ c.toNat := hlower
  omega

lemma map_toAsciiLowercase_text (x : Ipv4) : x.text.map toAsciiLowercase = x.text := by
  refine (List.map_congr_left fun c hc => ?_).trans (List.map_id _)
  rcases Ipv4.mem_text hc with hdigit | rfl
  · exact toAsciiLowercase_of_isDigit hdigit
  · rfl

/-- Comparing the texts of two addresses is comparing the addresses. -/
lemma eqIgnoreAsciiCase_text (x y : Ipv4) : eqIgnoreAsciiCase x.text y.text = decide (x = y) := by
  rw [eqIgnoreAsciiCase, map_toAsciiLowercase_text, map_toAsciiLowercase_text, Bool.eq_iff_iff,
    beq_iff_eq, decide_eq_true_eq]
  exact Ipv4.text_injective.eq_iff

/-- An octet that is read back. -/
lemma parseU8_octet (n : UInt8) : parseU8 (octet n) = some n.toNat := by
  have hsign : ∀ digits, octet n ≠ '+' :: digits := by
    intro digits heq
    have hdigit := isDigit_of_mem_octet (n := n) (c := '+') (by rw [heq]; exact List.mem_cons_self)
    exact absurd hdigit (by decide)
  have hvalue : Nat.ofDigitChars 10 (octet n) 0 = n.toNat := Nat.ofDigitChars_ten_toDigits
  have hall : (octet n).all Char.isDigit = true :=
    List.all_eq_true.mpr fun c hc => isDigit_of_mem_octet hc
  have hbound : Nat.ofDigitChars 10 (octet n) 0 ≤ 255 := by
    rw [hvalue]
    exact Nat.le_of_lt_succ n.toNat_lt
  rw [parseU8, if_pos ⟨Nat.toDigits_ne_nil, hall, hbound⟩, hvalue]
  exact hsign

/-! ### Addresses of version 6 -/

/-- Nothing that stands in brackets is refused. -/
lemma hostBlocked_bracketed (rest : List Char) : hostBlocked ('[' :: rest) = false := by
  simp [hostBlocked, blockedLiterals, hasBlockedPrefix, prefixBlocks, inPrivateTwelve,
    eqIgnoreAsciiCase_cons, toAsciiLowercase]

/-! ### Addresses of version 4 -/

/-- A text that begins with one of the prefixes is refused. -/
lemma hostBlocked_of_prefix {p rest : List Char} (hp : p ∈ prefixBlocks) :
    hostBlocked (p ++ rest) = true := by
  have hprefix : hasBlockedPrefix (p ++ rest) = true := by
    refine List.any_eq_true.mpr ⟨p, hp, ?_⟩
    simp [eqIgnoreAsciiCase]
  rw [hostBlocked, hprefix, Bool.or_true, Bool.true_or]

/-- The octets that the listed texts are about. -/
lemma octet_listed :
    octet 10 = ['1', '0'] ∧ octet 127 = ['1', '2', '7'] ∧ octet 172 = ['1', '7', '2'] ∧
      octet 192 = ['1', '9', '2'] ∧ octet 168 = ['1', '6', '8'] ∧ octet 169 = ['1', '6', '9'] ∧
      octet 254 = ['2', '5', '4'] := by
  decide

lemma length_text_of_first {x : Ipv4} (h : octet x.a = ['1', '7', '2']) : 7 ≤ x.text.length := by
  have hpos : ∀ n, 0 < (octet n).length := fun n => Nat.length_toDigits_pos
  have hb := hpos x.b
  have hc := hpos x.c
  have hd := hpos x.d
  rw [Ipv4.text, h]
  simp only [List.length_append, List.length_cons, List.length_nil]
  omega

lemma inPrivateTwelve_text {x : Ipv4} (h : x.a = 172) (hlow : 16 ≤ x.b) (hhigh : x.b ≤ 31) :
    inPrivateTwelve x.text = true := by
  obtain ⟨-, -, hfirst, -⟩ := octet_listed
  rw [← h] at hfirst
  have htext : x.text = "172.".toList ++ (octet x.b ++ '.' :: (octet x.c ++ '.' :: octet x.d)) := by
    rw [Ipv4.text, hfirst]
    rfl
  have hsecond : x.text.drop 4 = octet x.b ++ '.' :: (octet x.c ++ '.' :: octet x.d) := by
    rw [htext]
    rfl
  rw [inPrivateTwelve, hsecond, takeWhile_octet, parseU8_octet, Bool.and_eq_true, Bool.and_eq_true]
  refine ⟨⟨decide_eq_true (length_text_of_first hfirst), ?_⟩, ?_⟩
  · rw [htext]
    exact List.isPrefixOf_iff_prefix.mpr (List.prefix_append _ _)
  · simp only [Bool.and_eq_true, decide_eq_true_eq]
    exact ⟨hlow, hhigh⟩

lemma hostBlocked_private {x : Ipv4} (h : x.Private) : hostBlocked x.text = true := by
  obtain ⟨hten, -, -, hfirst, hsecond, -⟩ := octet_listed
  rcases h with ha | ⟨ha, hlow, hhigh⟩ | ⟨ha, hb⟩
  · rw [Ipv4.text, ha, hten]
    exact hostBlocked_of_prefix (p := "10.".toList) (by decide)
  · rw [hostBlocked, inPrivateTwelve_text ha hlow hhigh, Bool.or_true]
  · rw [Ipv4.text, ha, hb, hfirst, hsecond]
    exact hostBlocked_of_prefix (p := "192.168.".toList) (by decide)

lemma hostBlocked_of_internal {x : Ipv4} (h : x.Internal) (hnot : ¬x.LinkLocal) :
    hostBlocked x.text = true := by
  rcases h with h | h | h | h
  · obtain ⟨-, hfirst, -⟩ := octet_listed
    rw [Ipv4.text, h, hfirst]
    exact hostBlocked_of_prefix (p := "127.".toList) (by decide)
  · rw [h]
    decide
  · exact absurd h hnot
  · exact hostBlocked_private h

/-- Of the link-local addresses only the metadata address is listed. -/
lemma hostBlocked_linkLocal {x : Ipv4} (h : x.LinkLocal) :
    hostBlocked x.text = decide (x = ⟨169, 254, 169, 254⟩) := by
  obtain ⟨-, -, -, -, -, hfirst, hsecond⟩ := octet_listed
  have hmeta : Ipv4.text ⟨169, 254, 169, 254⟩ = "169.254.169.254".toList := by decide
  have htext : x.text = '1' :: '6' :: '9' :: '.' :: '2' :: '5' :: '4' :: '.' ::
      (octet x.c ++ '.' :: octet x.d) := by
    rw [Ipv4.text, h.1, h.2, hfirst, hsecond]
    rfl
  rw [← eqIgnoreAsciiCase_text, hmeta, htext]
  simp [hostBlocked, blockedLiterals, hasBlockedPrefix, prefixBlocks, inPrivateTwelve,
    eqIgnoreAsciiCase_cons, toAsciiLowercase]

/-! ### The filter -/

/-- The host is an internal address. -/
def Host.Internal : Host → Prop
  | domain _ => False
  | ipv4 address => address.Internal
  | ipv6 address => address.Internal

/-- The internal hosts whose text is listed. -/
lemma hostBlocked_str_iff {host : Host} (hinternal : host.Internal) :
    hostBlocked host.str = true ↔
      ∃ x, host = .ipv4 x ∧ (¬x.LinkLocal ∨ x = ⟨169, 254, 169, 254⟩) := by
  cases host with
  | domain name => exact hinternal.elim
  | ipv6 address =>
    rw [Host.str, hostBlocked_bracketed]
    constructor
    · intro h
      cases h
    · rintro ⟨x, hx, -⟩
      cases hx
  | ipv4 address =>
    have hinv : (∃ x, Host.ipv4 address = .ipv4 x ∧ (¬x.LinkLocal ∨ x = ⟨169, 254, 169, 254⟩)) ↔
        (¬address.LinkLocal ∨ address = ⟨169, 254, 169, 254⟩) := by
      constructor
      · rintro ⟨x, hx, h⟩
        cases hx
        exact h
      · intro h
        exact ⟨address, rfl, h⟩
    rw [hinv, Host.str]
    by_cases hlocal : address.LinkLocal
    · rw [hostBlocked_linkLocal hlocal, decide_eq_true_eq]
      exact ⟨Or.inr, fun h => h.resolve_left (not_not_intro hlocal)⟩
    · exact iff_of_true (hostBlocked_of_internal hinternal hlocal) (Or.inl hlocal)

/-- The filter refuses a URL whose host is an internal address just when the
scheme is none of HTTP, or the address is one of version 4 that is not link-local,
or the metadata address. -/
theorem webhook_filter_iff (parse : String → Option Url) (url : String) (parsed : Url)
    (host : Host) (hparse : parse url = some parsed) (hhost : parsed.host = some host)
    (hinternal : host.Internal) :
    isSafeWebhookUrl parse url = false ↔
      ¬(parsed.scheme = "http" ∨ parsed.scheme = "https") ∨
        ∃ x, host = .ipv4 x ∧ (¬x.LinkLocal ∨ x = ⟨169, 254, 169, 254⟩) := by
  rw [← hostBlocked_str_iff hinternal, isSafeWebhookUrl, hparse]
  dsimp only
  rw [hhost]
  by_cases hscheme : parsed.scheme = "http" ∨ parsed.scheme = "https"
  · rw [if_pos hscheme, or_iff_right (not_not_intro hscheme)]
    exact Bool.not_eq_eq_eq_not
  · rw [if_neg hscheme]
    exact iff_of_true rfl (Or.inl hscheme)

/-- A parser that knows one URL with each of two hosts. -/
def parseHooks (url : String) : Option Url :=
  if url = "http://127.0.0.1/hook" then some ⟨"http", some (.ipv4 ⟨127, 0, 0, 1⟩)⟩
  else if url = "http://[::1]/hook" then
    some ⟨"http", some (.ipv6 ⟨[0, 0, 0, 0, 0, 0, 0, 1], rfl⟩)⟩
  else none

theorem webhook_filter_loopback :
    isSafeWebhookUrl parseHooks "http://127.0.0.1/hook" = false := by
  refine (webhook_filter_iff parseHooks "http://127.0.0.1/hook" _ (.ipv4 ⟨127, 0, 0, 1⟩) rfl rfl
    (Or.inl rfl)).mpr ?_
  refine Or.inr ⟨⟨127, 0, 0, 1⟩, rfl, Or.inl ?_⟩
  rintro ⟨hfirst, -⟩
  exact absurd hfirst (by decide)

/-- The loopback address of version 6 passes. -/
theorem loopback_passes :
    ∃ parsed host, parseHooks "http://[::1]/hook" = some parsed ∧ parsed.host = some host ∧
      host.Internal ∧ isSafeWebhookUrl parseHooks "http://[::1]/hook" = true := by
  refine ⟨_, _, rfl, rfl, Or.inl rfl, ?_⟩
  decide

end Dendri
