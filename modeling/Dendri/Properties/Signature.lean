import Dendri.Server.Email

/-!
What the signature of a mail request covers. Every name and every value is encoded
before the separators are put between them, and the whole string once more.

* `rfc3986_injective`, `percentDecode_rfc3986`: the encoding is read back;
* `canonical_inj`: the canonical query string determines the sorted parameters;
* `mergeSort_eq_iff_perm`: lists with distinct names are sorted alike just when
  they have the same parameters;
* `string_to_sign_iff`: so the string-to-sign determines the parameters up to their
  order, and nothing else;
* `mail_determined`: the requests of `send` have distinct names, so a signature
  covers the address, the subject and the body of the mail.
-/

namespace Dendri

open PercentEncoding

/-! ### The encoding -/

/-- Percent-decoding of a text in UTF-8. -/
def percentDecode (s : String) : Option String :=
  (decode s.toList).bind fun bytes => String.fromUTF8? ⟨bytes.toArray⟩

lemma strBytes_injective : Function.Injective strBytes := by
  intro s t h
  refine String.toByteArray_inj.mp (ByteArray.ext ?_)
  exact Array.toList_inj.mp h

lemma toList_rfc3986 (s : String) : (rfc3986 s).toList = encode (strBytes s) :=
  String.toList_ofList

lemma rfc3986_injective : Function.Injective rfc3986 := by
  intro s t h
  have hencoded := congrArg String.toList h
  rw [toList_rfc3986, toList_rfc3986] at hencoded
  exact strBytes_injective (encode_injective hencoded)

lemma percentDecode_rfc3986 (s : String) : percentDecode (rfc3986 s) = some s := by
  rw [percentDecode, toList_rfc3986, decode_encode, Option.bind_some]
  have hvalid : (⟨(strBytes s).toArray⟩ : ByteArray).IsValidUTF8 := s.isValidUTF8
  rw [String.fromUTF8?, dif_pos hvalid]
  rfl

/-- No separator is in an encoded text. -/
lemma separator_notMem_rfc3986 (s : String) :
    '=' ∉ (rfc3986 s).toList ∧ '&' ∉ (rfc3986 s).toList := by
  rw [toList_rfc3986]
  exact ⟨notMem_encode (by decide) (by decide) _, notMem_encode (by decide) (by decide) _⟩

/-! ### The query string -/

/-- A parameter, encoded. -/
def encodeParam (p : String × String) : List Char × List Char :=
  ((rfc3986 p.1).toList, (rfc3986 p.2).toList)

lemma clean_encodeParam (p : String × String) : Clean (encodeParam p) :=
  ⟨(separator_notMem_rfc3986 p.1).1, (separator_notMem_rfc3986 p.1).2,
    (separator_notMem_rfc3986 p.2).2⟩

lemma encodeParam_injective : Function.Injective encodeParam := by
  rintro ⟨k, v⟩ ⟨k', v'⟩ h
  obtain ⟨hname, hvalue⟩ := Prod.mk.inj h
  exact Prod.ext (rfc3986_injective (String.toList_injective hname))
    (rfc3986_injective (String.toList_injective hvalue))

lemma toList_canonical (params : List (String × String)) :
    (canonical params).toList = query ((params.mergeSort nameLe).map encodeParam) := by
  rw [canonical, String.toList_intercalate, query, List.map_map, List.map_map]
  congr 1
  refine List.map_congr_left fun p _ => ?_
  simp [assignment, encodeParam]

/-- The query string determines the sorted parameters. -/
lemma canonical_inj {ps qs : List (String × String)} (h : canonical ps = canonical qs) :
    ps.mergeSort nameLe = qs.mergeSort nameLe := by
  have hquery := congrArg String.toList h
  rw [toList_canonical, toList_canonical] at hquery
  have hclean : ∀ params : List (String × String), ∀ p ∈ params.map encodeParam, Clean p := by
    intro params p hp
    obtain ⟨param, -, rfl⟩ := List.mem_map.mp hp
    exact clean_encodeParam param
  exact List.map_injective_iff.mpr encodeParam_injective
    (query_injective (hclean _) (hclean _) hquery)

/-! ### Sorting -/

lemma nameLe_trans (a b c : String × String) (hab : nameLe a b = true) (hbc : nameLe b c = true) :
    nameLe a c = true :=
  decide_eq_true (le_trans (of_decide_eq_true hab) (of_decide_eq_true hbc))

lemma nameLe_total (a b : String × String) : (nameLe a b || nameLe b a) = true := by
  rw [Bool.or_eq_true, nameLe, nameLe, decide_eq_true_eq, decide_eq_true_eq]
  exact le_total _ _

/-- Two parameters that are equal in the order have the same name. -/
lemma name_eq_of_nameLe {a b : String × String} (hab : nameLe a b = true)
    (hba : nameLe b a = true) : a.1 = b.1 := by
  have hbytes := le_antisymm (of_decide_eq_true hab) (of_decide_eq_true hba)
  have htoNat : Function.Injective UInt8.toNat := fun _ _ => UInt8.toNat_inj.mp
  exact strBytes_injective (List.map_injective_iff.mpr htoNat hbytes)

/-- With distinct names the sorted list depends on the parameters only, not on
their order. -/
lemma mergeSort_eq_iff_perm {ps qs : List (String × String)} (hnames : (ps.map Prod.fst).Nodup) :
    ps.mergeSort nameLe = qs.mergeSort nameLe ↔ ps.Perm qs := by
  have hps := List.mergeSort_perm ps nameLe
  have hqs := List.mergeSort_perm qs nameLe
  constructor
  · intro h
    rw [h] at hps
    exact hps.symm.trans hqs
  · intro h
    refine List.Perm.eq_of_pairwise (fun a b ha hb hab hba => ?_)
      (List.pairwise_mergeSort nameLe_trans nameLe_total ps)
      (List.pairwise_mergeSort nameLe_trans nameLe_total qs) (hps.trans (h.trans hqs.symm))
    have ha' : a ∈ ps := hps.mem_iff.mp ha
    have hb' : b ∈ ps := h.mem_iff.mpr (hqs.mem_iff.mp hb)
    exact List.inj_on_of_nodup_map hnames ha' hb' (name_eq_of_nameLe hab hba)

/-! ### The signature -/

/-- The string-to-sign is that of the parameters, in whatever order. -/
lemma stringToSign_eq_iff_perm (method : String) {ps qs : List (String × String)}
    (hnames : (ps.map Prod.fst).Nodup) :
    stringToSign method ps = stringToSign method qs ↔ ps.Perm qs := by
  constructor
  · intro h
    have hcanonical := rfc3986_injective ((String.append_right_inj _).mp h)
    exact (mergeSort_eq_iff_perm hnames).mp (canonical_inj hcanonical)
  · intro h
    have hsorted := (mergeSort_eq_iff_perm hnames).mpr h
    rw [stringToSign, stringToSign, canonical, canonical, hsorted]

/-- The strings-to-sign of two lists with distinct names are equal just when the
lists have the same parameters. The encoding is read back by percent-decoding, and
no separator is inside a name or a value. -/
theorem string_to_sign_iff (method : String) (ps qs : List (String × String))
    (hnames : (ps.map Prod.fst).Nodup) :
    (stringToSign method ps = stringToSign method qs ↔ ps.Perm qs) ∧
      (∀ s, percentDecode (rfc3986 s) = some s) ∧
      ∀ s, '=' ∉ (rfc3986 s).toList ∧ '&' ∉ (rfc3986 s).toList :=
  ⟨stringToSign_eq_iff_perm method hnames, percentDecode_rfc3986, separator_notMem_rfc3986⟩

theorem string_to_sign_swapped :
    stringToSign "POST" [("Action", "SingleSendMail"), ("ToAddress", "x@y.com")] =
      stringToSign "POST" [("ToAddress", "x@y.com"), ("Action", "SingleSendMail")] :=
  (string_to_sign_iff "POST" _ _ (by decide)).1.mpr (List.Perm.swap _ _ _)

/-- The signature does not depend on the order of the parameters. -/
theorem sign_perm (hmacSha1 : List UInt8 → List UInt8 → List UInt8)
    (base64Std : List UInt8 → String) (m : Mailer) (method : String)
    {ps qs : List (String × String)} (hnames : (ps.map Prod.fst).Nodup) (h : ps.Perm qs) :
    m.sign hmacSha1 base64Std method ps = m.sign hmacSha1 base64Std method qs := by
  rw [Mailer.sign, Mailer.sign, (stringToSign_eq_iff_perm method hnames).mpr h]

lemma nodup_names_params (m : Mailer) (nonce ts toAddress subject html : String) :
    ((m.params nonce ts toAddress subject html).map Prod.fst).Nodup := by
  simp [Mailer.params]

/-- Two mails with the same string-to-sign are the same mail. -/
theorem mail_determined {m m' : Mailer} {method nonce nonce' ts ts' toAddress toAddress' subject
    subject' html html' : String}
    (h : stringToSign method (m.params nonce ts toAddress subject html) =
      stringToSign method (m'.params nonce' ts' toAddress' subject' html')) :
    toAddress = toAddress' ∧ subject = subject' ∧ html = html' ∧ nonce = nonce' ∧ ts = ts' := by
  have hperm := (stringToSign_eq_iff_perm method (nodup_names_params m _ _ _ _ _)).mp h
  have hvalue : ∀ name v v', (name, v) ∈ m.params nonce ts toAddress subject html →
      (name, v') ∈ m'.params nonce' ts' toAddress' subject' html' → v = v' := by
    intro name v v' hv hv'
    have hpair := List.inj_on_of_nodup_map (nodup_names_params m' _ _ _ _ _)
      (hperm.mem_iff.mp hv) hv' rfl
    exact (Prod.mk.inj hpair).2
  refine ⟨hvalue "ToAddress" _ _ ?_ ?_, hvalue "Subject" _ _ ?_ ?_, hvalue "HtmlBody" _ _ ?_ ?_,
    hvalue "SignatureNonce" _ _ ?_ ?_, hvalue "Timestamp" _ _ ?_ ?_⟩
  all_goals simp [Mailer.params]

end Dendri
