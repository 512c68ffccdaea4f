import MerkleDir.Proofs.Text.Utf8
import MerkleDir.Text.Hex

namespace MerkleDir.Hex

def IsDigit (b : UInt8) : Prop :=
  (48 ≤ b ∧ b ≤ 57) ∨ (65 ≤ b ∧ b ≤ 70) ∨ (97 ≤ b ∧ b ≤ 102)

instance (b : UInt8) : Decidable (IsDigit b) := inferInstanceAs (Decidable (_ ∨ _ ∨ _))

def lower (b : UInt8) : Char := (Char.ofNat b.toNat).toLower

theorem IsDigit.lt {b : UInt8} (h : IsDigit b) : b < 0x80 := by
  unfold IsDigit at h
  simp only [UInt8.le_iff_toNat_le, UInt8.lt_iff_toNat_lt] at *
  simp at h ⊢
  omega

theorem value?_eq_none_iff {b : UInt8} : value? b = none ↔ ¬ IsDigit b := by
  rw [value?, IsDigit]
  split_ifs <;> simp_all

theorem digit_of_value? {b : UInt8} {v : Nat} (h : value? b = some v) :
    v < 16 ∧ digit v = lower b := by
  have hall : ∀ n < 256, ∀ v ∈ value? (UInt8.ofNat n),
      v < 16 ∧ digit v = lower (UInt8.ofNat n) := by decide +kernel
  have hb := hall b.toNat b.toNat_lt v
  rw [UInt8.ofNat_toNat] at hb
  exact hb h

theorem exists_value? {b : UInt8} (h : IsDigit b) :
    ∃ v, value? b = some v ∧ v < 16 ∧ digit v = lower b := by
  obtain ⟨v, hv⟩ := Option.ne_none_iff_exists'.mp (mt value?_eq_none_iff.mp (not_not_intro h))
  exact ⟨v, hv, digit_of_value? hv⟩

theorem encodeChar_digit {n : Nat} (hn : n < 16) :
    String.utf8EncodeChar (digit n) = [UInt8.ofNat (digit n).toNat] ∧
      IsDigit (UInt8.ofNat (digit n).toNat) ∧ (digit n).toLower = digit n := by
  have hall : ∀ n < 16, String.utf8EncodeChar (digit n) = [UInt8.ofNat (digit n).toNat] ∧
      IsDigit (UInt8.ofNat (digit n).toNat) ∧ (digit n).toLower = digit n := by decide
  exact hall n hn

theorem digit_inj {m n : Nat} (hm : m < 16) (hn : n < 16) (h : digit m = digit n) : m = n := by
  have hdigits : ∀ m < 16, ∀ n < 16, digit m = digit n → m = n := by decide
  exact hdigits m hm n hn h

theorem encodeByte_injective : Function.Injective encodeByte := by
  intro a b h
  simp only [encodeByte, List.cons.injEq, and_true] at h
  have ha := a.toNat_lt
  have hb := b.toNat_lt
  have hhigh := digit_inj (by omega) (by omega) h.1
  have hlow := digit_inj (by omega) (by omega) h.2
  exact UInt8.toNat_inj.mp (by omega)

theorem flatMap_encodeByte_injective : Function.Injective fun bytes : Bytes =>
    bytes.flatMap encodeByte := by
  intro a b h
  simp only at h
  induction a generalizing b with
  | nil => cases b <;> simp_all [encodeByte]
  | cons x a ih =>
    cases b with
    | nil => simp [encodeByte] at h
    | cons y b =>
      rw [List.flatMap_cons, List.flatMap_cons] at h
      obtain ⟨hxy, hab⟩ := List.append_inj h rfl
      rw [encodeByte_injective hxy, ih hab]

theorem encode_injective : Function.Injective encode :=
  fun _ _ h => flatMap_encodeByte_injective (String.ofList_injective h)

theorem exists_digits_of_mem {bytes : Bytes} {c : Char} (h : c ∈ bytes.flatMap encodeByte) :
    ∃ n < 16, c = digit n := by
  obtain ⟨b, -, hc⟩ := List.mem_flatMap.mp h
  have hb := b.toNat_lt
  rcases List.mem_cons.mp hc with rfl | hc
  · exact ⟨_, by omega, rfl⟩
  · exact ⟨_, by omega, List.mem_singleton.mp hc⟩

theorem length_encode (bytes : Bytes) : (encode bytes).toList.length = 2 * bytes.length := by
  simp [encode, encodeByte, List.length_flatMap, Nat.mul_comm]

theorem encode_encode (bytes : Bytes) : Utf8.encode (encode bytes) =
    (bytes.flatMap encodeByte).map fun c => UInt8.ofNat c.toNat := by
  rw [Utf8.encode, encode, String.toList_ofList, List.map_eq_flatMap]
  refine List.flatMap_congr fun c hc => ?_
  obtain ⟨n, hn, rfl⟩ := exists_digits_of_mem hc
  exact (encodeChar_digit hn).1

theorem length_encode_encode (bytes : Bytes) :
    (Utf8.encode (encode bytes)).length = 2 * bytes.length := by
  rw [encode_encode, List.length_map, ← length_encode, encode, String.toList_ofList]

theorem isDigit_of_mem_encode {bytes : Bytes} {b : UInt8} (h : b ∈ Utf8.encode (encode bytes)) :
    IsDigit b := by
  rw [encode_encode] at h
  obtain ⟨c, hc, rfl⟩ := List.mem_map.mp h
  obtain ⟨n, hn, rfl⟩ := exists_digits_of_mem hc
  exact (encodeChar_digit hn).2.1

theorem toLower_encode (bytes : Bytes) : (encode bytes).toLower = encode bytes := by
  apply String.toList_injective
  rw [String.toLower, String.toList_map]
  refine (List.map_congr_left fun c hc => ?_).trans (List.map_id _)
  rw [encode, String.toList_ofList] at hc
  obtain ⟨n, hn, rfl⟩ := exists_digits_of_mem hc
  exact (encodeChar_digit hn).2.2

theorem encodeByte_ofNat {h l : Nat} (hh : h < 16) (hl : l < 16) :
    encodeByte (UInt8.ofNat (h * 16 + l)) = [digit h, digit l] := by
  have hb : (UInt8.ofNat (h * 16 + l)).toNat = h * 16 + l := by
    rw [UInt8.toNat_ofNat']
    omega
  rw [encodeByte, hb, show (h * 16 + l) / 16 = h by omega, show (h * 16 + l) % 16 = l by omega]

theorem decodeFrom_cons_cons {position : Nat} {high low : UInt8} {rest : Bytes} {h l : Nat}
    (hhigh : value? high = some h) (hlow : value? low = some l) :
    decodeFrom position (high :: low :: rest) =
      (decodeFrom (position + 2) rest).map (UInt8.ofNat (h * 16 + l) :: ·) := by
  rw [decodeFrom, decodeDigit, decodeDigit, hhigh, hlow]
  cases decodeFrom (position + 2) rest <;> rfl

theorem decodeFrom_of_isDigit {bytes : Bytes} (heven : bytes.length % 2 = 0)
    (hdigits : ∀ b ∈ bytes, IsDigit b) (position : Nat) :
    ∃ out, decodeFrom position bytes = .ok out ∧ out.flatMap encodeByte = bytes.map lower := by
  induction position, bytes using decodeFrom.induct with
  | case1 => exact ⟨[], rfl, rfl⟩
  | case2 => simp at heven
  | case3 position high low rest ih =>
    simp only [List.length_cons, List.forall_mem_cons] at heven hdigits
    obtain ⟨h, hhigh, hh, hdigit⟩ := exists_value? hdigits.1
    obtain ⟨l, hlow, hl, hdigit'⟩ := exists_value? hdigits.2.1
    obtain ⟨out, hout, hchars⟩ := ih (by omega) hdigits.2.2
    refine ⟨UInt8.ofNat (h * 16 + l) :: out, ?_, ?_⟩
    · rw [decodeFrom_cons_cons hhigh hlow, hout]
      rfl
    · rw [List.flatMap_cons, encodeByte_ofNat hh hl, hchars, hdigit, hdigit']
      rfl

/-- The first byte that is no digit is told, with its position. -/
theorem decodeFrom_of_not_isDigit {before after : Bytes} {b : UInt8}
    (heven : (before ++ b :: after).length % 2 = 0) (hbefore : ∀ x ∈ before, IsDigit x)
    (hb : ¬ IsDigit b) (position : Nat) : decodeFrom position (before ++ b :: after) =
      .error (.invalidDigit b (position + before.length)) := by
  induction before using List.twoStepInduction generalizing position with
  | nil =>
    obtain ⟨low, rest, rfl⟩ : ∃ low rest, after = low :: rest := by
      refine List.exists_cons_of_ne_nil fun hnil => ?_
      simp [hnil] at heven
    rw [List.nil_append, decodeFrom, decodeDigit, value?_eq_none_iff.mpr hb]
    rfl
  | singleton high =>
    obtain ⟨h, hhigh, -⟩ := exists_value? (hbefore high List.mem_cons_self)
    rw [List.singleton_append, decodeFrom, decodeDigit, hhigh, decodeDigit,
      value?_eq_none_iff.mpr hb]
    rfl
  | cons_cons high low before ih =>
    simp only [List.cons_append, List.length_cons, List.forall_mem_cons] at heven hbefore
    obtain ⟨h, hhigh, -⟩ := exists_value? hbefore.1
    obtain ⟨l, hlow, -⟩ := exists_value? hbefore.2.1
    rw [List.cons_append, List.cons_append, decodeFrom_cons_cons hhigh hlow,
      ih (by omega) hbefore.2.2]
    simp only [Except.map, List.length_cons]
    congr 2
    omega

theorem decode_of_odd {text : Bytes} (h : text.length % 2 = 1) :
    decode text = .error .oddLength := by
  rw [decode, if_pos h]

theorem decode_of_even {text : Bytes} (h : text.length % 2 = 0) :
    decode text = decodeFrom 0 text := by
  rw [decode, if_neg (by omega)]

end MerkleDir.Hex
