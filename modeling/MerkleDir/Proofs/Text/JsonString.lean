import Mathlib
import MerkleDir.Json

namespace MerkleDir.Json

theorem unicodeEscape?_control {n : Nat} (hn : n < 0x20) (rest : List Char) :
    unicodeEscape? ('0' :: '0' :: (Hex.encodeByte (UInt8.ofNat n) ++ rest)) =
      some (Char.ofNat n, rest) := by
  interval_cases n <;> rfl

theorem readString_escapeChar (fuel : Nat) (c : Char) (read rest : List Char) :
    readString (fuel + 1) read (escapeChar c ++ rest) = readString fuel (c :: read) rest := by
  unfold escapeChar
  split_ifs with hquote hslash hline hreturn htab hback hfeed hcontrol
  · subst hquote; rfl
  · subst hslash; rfl
  · subst hline; rfl
  · subst hreturn; rfl
  · subst htab; rfl
  · subst hback; rfl
  · subst hfeed; rfl
  · have hread := unicodeEscape?_control hcontrol rest
    rw [Char.ofNat_toNat] at hread
    show readString (fuel + 1) read
      ('\\' :: 'u' :: '0' :: '0' :: (Hex.encodeByte (UInt8.ofNat c.toNat) ++ rest)) = _
    rw [readString, hread]
  · rw [List.singleton_append, readString]
    · rw [if_neg hcontrol]
    all_goals grind

/-- A string is read to its closing quote and no further. -/
theorem readString_escaped (chars : List Char) {fuel : Nat} (hfuel : chars.length < fuel)
    (read rest : List Char) :
    readString fuel read (chars.flatMap escapeChar ++ '"' :: rest) =
      some (String.ofList (read.reverse ++ chars), rest) := by
  induction chars generalizing fuel read with
  | nil =>
    obtain ⟨fuel, rfl⟩ := Nat.exists_eq_succ_of_ne_zero (Nat.ne_of_gt hfuel)
    rw [List.append_nil]
    rfl
  | cons c chars ih =>
    obtain ⟨fuel, rfl⟩ := Nat.exists_eq_succ_of_ne_zero (Nat.ne_of_gt (Nat.zero_lt_of_lt hfuel))
    rw [List.flatMap_cons, List.append_assoc, readString_escapeChar,
      ih (Nat.lt_of_succ_lt_succ hfuel), List.reverse_cons, List.append_assoc,
      List.singleton_append]

theorem length_le_flatMap_escapeChar (chars : List Char) :
    chars.length ≤ (chars.flatMap escapeChar).length := by
  induction chars with
  | nil => exact Nat.zero_le _
  | cons c chars ih =>
    have hc : 0 < (escapeChar c).length := by
      unfold escapeChar
      split_ifs <;> simp
    rw [List.flatMap_cons, List.length_append, List.length_cons]
    omega

theorem parse?_compact_string (text : String) :
    parse? (compact (.string text)) = some (.string text) := by
  have hfuel : text.toList.length <
      (text.toList.flatMap escapeChar ++ ['"']).length + 1 := by
    have hlength := length_le_flatMap_escapeChar text.toList
    rw [List.length_append]
    omega
  have hread := readString_escaped text.toList hfuel [] []
  rw [List.reverse_nil, List.nil_append, String.ofList_toList] at hread
  rw [compact, quote, parse?, String.toList_ofList]
  simp only [List.cons_append]
  rw [readValue, skipBlanks, List.dropWhile_cons_of_neg (by decide)]
  simp only [hread]
  rfl

end MerkleDir.Json
