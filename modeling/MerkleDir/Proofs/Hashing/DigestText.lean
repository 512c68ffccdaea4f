import MerkleDir.Proofs.Hashing.Inputs
import MerkleDir.Proofs.Text.JsonString
import MerkleDir.Report.Json

/-!
# The text form of a digest

A digest is read from its own text, and from that text in upper case; nothing else is a text of it.
What is refused is refused for the first of three causes: an odd length, a byte that is no digit,
another length than 64. Lengths and positions are counted in bytes.
-/
namespace MerkleDir

theorem Utf8.toList_of_ascii {text : String} (h : ∀ b ∈ Utf8.encode text, b < 0x80) :
    text.toList = (Utf8.encode text).map fun b => Char.ofNat b.toNat := by
  have hdisplay (bytes : Bytes) (hbytes : ∀ b ∈ bytes, b < 0x80) :
      (Utf8.display bytes).toList = bytes.map fun b => Char.ofNat b.toNat := by
    induction bytes with
    | nil => rw [Utf8.display_eq, Utf8.pieces, List.map_nil, List.map_nil]
    | cons b bytes ih =>
      obtain ⟨hb, hbytes⟩ := List.forall_mem_cons.mp hbytes
      rw [Utf8.display_ascii hb, ih hbytes, List.map_cons]
  rw [← hdisplay _ h, Utf8.display_encode]

namespace Digest

/-- Nothing, or 64 digits of either case. -/
def IsTextForm (text : String) : Prop :=
  text = "" ∨ (Utf8.encode text).length = 64 ∧ ∀ b ∈ Utf8.encode text, Hex.IsDigit b

/-- Why a text is no text form, by the first cause that applies. -/
inductive IsRefused (text : String) : ParseError → Prop
  | oddLength (hodd : (Utf8.encode text).length % 2 = 1) : IsRefused text (.invalidHex .oddLength)
  | invalidDigit {before after : Bytes} {b : UInt8} (heven : (Utf8.encode text).length % 2 = 0)
      (htext : Utf8.encode text = before ++ b :: after) (hbefore : ∀ x ∈ before, Hex.IsDigit x)
      (hb : ¬ Hex.IsDigit b) : IsRefused text (.invalidHex (.invalidDigit b before.length))
  | invalidLength (hne : text ≠ "") (heven : (Utf8.encode text).length % 2 = 0)
      (hdigits : ∀ b ∈ Utf8.encode text, Hex.IsDigit b) (hlength : (Utf8.encode text).length ≠ 64) :
      IsRefused text (.invalidLength ((Utf8.encode text).length / 2))

theorem toHex_injective : Function.Injective toHex := by
  intro d e h
  cases d with
  | empty =>
    cases e with
    | empty => rfl
    | ofBlock c =>
      have hlength := length_toHex_ofBlock c
      rw [← h] at hlength
      cases hlength
  | ofBlock b =>
    cases e with
    | empty =>
      have hlength := length_toHex_ofBlock b
      rw [h] at hlength
      cases hlength
    | ofBlock c => rw [(toHex_append_inj (congrArg (· ++ "") h)).1]

theorem isTextForm_toHex (d : Digest) : IsTextForm d.toHex := by
  cases d with
  | empty => exact Or.inl rfl
  | ofBlock b =>
    refine Or.inr ⟨?_, fun x hx => Hex.isDigit_of_mem_encode hx⟩
    rw [toHex, Hex.length_encode_encode, Vector.length_toList]

theorem toLower_empty : "".toLower = "" := by
  apply String.toList_injective
  rw [String.toLower, String.toList_map, String.toList_empty, List.map_nil]

theorem toLower_toHex (d : Digest) : d.toHex.toLower = d.toHex := by
  cases d with
  | empty => exact toLower_empty
  | ofBlock b => exact Hex.toLower_encode _

section Reading

variable {text : String}

theorem encode_ne_nil (hne : text ≠ "") : Utf8.encode text ≠ [] := fun hnil =>
  hne (Utf8.encode_injective hnil)

theorem ofHex_of_decode_error (hne : text ≠ "") {cause : Hex.DecodeError}
    (h : Hex.decode (Utf8.encode text) = .error cause) :
    ofHex text = .error (.invalidHex cause) := by
  obtain ⟨b, rest, hbytes⟩ := List.exists_cons_of_ne_nil (encode_ne_nil hne)
  rw [hbytes] at h
  simp only [ofHex, hbytes, h]

theorem ofHex_of_decode_ok (hne : text ≠ "") {bytes : Bytes}
    (h : Hex.decode (Utf8.encode text) = .ok bytes) : ofHex text = ofBytes bytes := by
  obtain ⟨b, rest, hbytes⟩ := List.exists_cons_of_ne_nil (encode_ne_nil hne)
  rw [hbytes] at h
  simp only [ofHex, hbytes, h]

theorem toHex_of_ofBytes {bytes : Bytes} {d : Digest} (h : ofBytes bytes = .ok d) :
    d.toHex = Hex.encode bytes := by
  rw [ofBytes] at h
  split_ifs at h
  obtain rfl := Except.ok.inj h
  rfl

theorem ofHex_of_isDigit (hne : text ≠ "") (heven : (Utf8.encode text).length % 2 = 0)
    (hdigits : ∀ b ∈ Utf8.encode text, Hex.IsDigit b) :
    ∃ bytes, ofHex text = ofBytes bytes ∧ 2 * bytes.length = (Utf8.encode text).length ∧
      Hex.encode bytes = text.toLower := by
  obtain ⟨bytes, hbytes, hchars⟩ := Hex.decodeFrom_of_isDigit heven hdigits 0
  refine ⟨bytes, ?_, ?_, ?_⟩
  · exact ofHex_of_decode_ok hne ((Hex.decode_of_even heven).trans hbytes)
  · rw [← Hex.length_encode, Hex.encode, String.toList_ofList, hchars, List.length_map]
  · apply String.toList_injective
    rw [Hex.encode, String.toList_ofList, hchars, String.toLower, String.toList_map,
      Utf8.toList_of_ascii fun b hb => (hdigits b hb).lt, List.map_map]
    rfl

theorem exists_ofHex_of_isTextForm (h : IsTextForm text) :
    ∃ d, ofHex text = .ok d ∧ d.toHex = text.toLower := by
  rcases h with rfl | ⟨hlength, hdigits⟩
  · exact ⟨.empty, rfl, toLower_empty.symm⟩
  · have hne : text ≠ "" := by
      rintro rfl
      cases hlength
    obtain ⟨bytes, hread, hbytes, hlower⟩ := ofHex_of_isDigit hne (by rw [hlength]) hdigits
    have hblock : bytes.length = 32 := by omega
    have hok : ofBytes bytes = .ok (.ofBlock ⟨bytes.toArray, by simp [hblock]⟩) := dif_pos hblock
    exact ⟨_, hread.trans hok, (toHex_of_ofBytes hok).trans hlower⟩

theorem ofHex_of_isRefused {e : ParseError} (h : IsRefused text e) : ofHex text = .error e := by
  cases h with
  | oddLength hodd =>
    have hne : text ≠ "" := by
      rintro rfl
      cases hodd
    exact ofHex_of_decode_error hne (Hex.decode_of_odd hodd)
  | @invalidDigit before after b heven htext hbefore hb =>
    have hne : text ≠ "" := by
      rintro rfl
      exact List.append_ne_nil_of_right_ne_nil _ (List.cons_ne_nil b after) htext.symm
    refine ofHex_of_decode_error hne ?_
    rw [Hex.decode_of_even heven, htext,
      Hex.decodeFrom_of_not_isDigit (htext ▸ heven) hbefore hb, Nat.zero_add]
  | invalidLength hne heven hdigits hlength =>
    obtain ⟨bytes, hread, hbytes, -⟩ := ofHex_of_isDigit hne heven hdigits
    rw [hread, ofBytes, dif_neg (by omega), ← hbytes, Nat.mul_div_cancel_left _ two_pos]

theorem isTextForm_or_isRefused (text : String) : IsTextForm text ∨ ∃ e, IsRefused text e := by
  rcases Nat.mod_two_eq_zero_or_one (Utf8.encode text).length with heven | hodd
  · cases hbad : (Utf8.encode text).find? fun b => !decide (Hex.IsDigit b) with
    | none =>
      have hdigits : ∀ b ∈ Utf8.encode text, Hex.IsDigit b := by
        simpa using List.find?_eq_none.mp hbad
      by_cases hne : text = ""
      · exact Or.inl (Or.inl hne)
      · by_cases hlength : (Utf8.encode text).length = 64
        · exact Or.inl (Or.inr ⟨hlength, hdigits⟩)
        · exact Or.inr ⟨_, .invalidLength hne heven hdigits hlength⟩
    | some b =>
      obtain ⟨hb, before, after, htext, hbefore⟩ := List.find?_eq_some_iff_append.mp hbad
      refine Or.inr ⟨_, .invalidDigit heven htext (fun x hx => ?_) (by simpa using hb)⟩
      simpa using hbefore x hx
  · exact Or.inr ⟨_, .oddLength hodd⟩

theorem ofHex_eq_ok_iff {d : Digest} :
    ofHex text = .ok d ↔ IsTextForm text ∧ d.toHex = text.toLower := by
  constructor
  · intro h
    rcases isTextForm_or_isRefused text with hform | ⟨e, he⟩
    · obtain ⟨d', hd', hlower⟩ := exists_ofHex_of_isTextForm hform
      obtain rfl := Except.ok.inj (h.symm.trans hd')
      exact ⟨hform, hlower⟩
    · cases h.symm.trans (ofHex_of_isRefused he)
  · rintro ⟨hform, hlower⟩
    obtain ⟨d', hd', hlower'⟩ := exists_ofHex_of_isTextForm hform
    rw [hd', toHex_injective (hlower'.trans hlower.symm)]

theorem ofHex_eq_error_iff {e : ParseError} : ofHex text = .error e ↔ IsRefused text e := by
  refine ⟨fun h => ?_, ofHex_of_isRefused⟩
  rcases isTextForm_or_isRefused text with hform | ⟨e', he'⟩
  · obtain ⟨d, hd, -⟩ := exists_ofHex_of_isTextForm hform
    cases h.symm.trans hd
  · obtain rfl := Except.error.inj (h.symm.trans (ofHex_of_isRefused he'))
    exact he'

end Reading

theorem ofHex_toHex (d : Digest) : ofHex d.toHex = .ok d :=
  ofHex_eq_ok_iff.mpr ⟨isTextForm_toHex d, (toLower_toHex d).symm⟩

theorem ofJson_ofDigest (d : Digest) : ofJson (Json.ofDigest d) = .ok d := by
  rw [Json.ofDigest, ofJson, ofHex_toHex]
  rfl

/-- Every digest is read from its text, also where that text stands in JSON, and the block of zeros
does not become the empty digest. Nothing is read but text forms, as the digest that is written as
the same digits in lower case, and each other text is refused for the first cause that applies. -/
theorem textForm_exact :
    (∀ d, ofHex d.toHex = .ok d ∧ ofJson (Json.ofDigest d) = .ok d ∧
      Json.parse? (Json.ofDigest d).compact = some (Json.ofDigest d)) ∧
    (∀ text, (∃ d, ofHex text = .ok d) ↔ IsTextForm text) ∧
    (∀ text d, ofHex text = .ok d ↔ IsTextForm text ∧ d.toHex = text.toLower) ∧
    (∀ text e, ofHex text = .error e ↔ IsRefused text e) ∧
    ∀ actual, (ParseError.invalidLength actual).message =
      "Invalid digest length: expected 32 bytes, got " ++ toString actual := by
  refine ⟨fun d => ⟨ofHex_toHex d, ofJson_ofDigest d, Json.parse?_compact_string _⟩,
    fun text => ?_, fun _ _ => ofHex_eq_ok_iff, fun _ _ => ofHex_eq_error_iff, fun _ => rfl⟩
  constructor
  · rintro ⟨d, hd⟩
    exact (ofHex_eq_ok_iff.mp hd).1
  · intro hform
    obtain ⟨d, hd, -⟩ := exists_ofHex_of_isTextForm hform
    exact ⟨d, hd⟩

end Digest
end MerkleDir
