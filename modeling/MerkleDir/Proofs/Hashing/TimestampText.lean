import Mathlib
import MerkleDir.Timestamp

namespace MerkleDir.Timestamp

theorem ofDigitChars_padLeft (width n : Nat) :
    Nat.ofDigitChars 10 (padLeft width (Nat.toDigits 10 n)) 0 = n := by
  rw [padLeft, Nat.ofDigitChars_append, Nat.ofDigitChars_replicate_zero, Nat.mul_zero,
    Nat.ofDigitChars_ten_toDigits]

theorem padLeft_toDigits_inj {v w m n : Nat}
    (h : padLeft v (Nat.toDigits 10 m) = padLeft w (Nat.toDigits 10 n)) : m = n := by
  rw [← ofDigitChars_padLeft v m, h, ofDigitChars_padLeft]

theorem isDigit_of_mem_padLeft {width n : Nat} {c : Char}
    (h : c ∈ padLeft width (Nat.toDigits 10 n)) : c.isDigit = true := by
  rcases List.mem_append.mp h with hz | hd
  · rw [List.eq_of_mem_replicate hz]
    rfl
  · exact Nat.isDigit_of_mem_toDigits (by decide) (by decide) hd

theorem padLeft_toDigits_ne_nil (width n : Nat) : padLeft width (Nat.toDigits 10 n) ≠ [] := by
  simp [padLeft, Nat.toDigits_ne_nil]

theorem toList_text (t : Timestamp) :
    t.text.toList = (if t.seconds < 0 then ['-'] else []) ++
      (padLeft 1 (Nat.toDigits 10 t.distance.1) ++
        '.' :: padLeft 9 (Nat.toDigits 10 t.distance.2)) := by
  simp only [text, decimals, String.toList_append, String.toList_ofList]
  split_ifs <;> simp

theorem eq_of_distance {s t : Timestamp} (hsign : s.seconds < 0 ↔ t.seconds < 0)
    (h : s.distance = t.distance) : s = t := by
  obtain ⟨ss, sn⟩ := s
  obtain ⟨ts, tn⟩ := t
  simp only [distance, Timestamp.mk.injEq, Fin.ext_iff, Fin.val_zero] at *
  have hs := sn.isLt
  have ht := tn.isLt
  split_ifs at h <;> simp only [Prod.mk.injEq] at h <;> omega

theorem head?_text (t : Timestamp) : t.text.toList.head? = some '-' ↔ t.seconds < 0 := by
  rw [toList_text]
  split_ifs with h
  · simp [h]
  · obtain ⟨c, cs, hc⟩ := List.exists_cons_of_ne_nil
      (padLeft_toDigits_ne_nil 1 t.distance.1)
    have hd := isDigit_of_mem_padLeft (hc ▸ List.mem_cons_self : c ∈ padLeft 1 _)
    have hne : c ≠ '-' := by
      rintro rfl
      exact absurd hd (by decide)
    simpa [hc, hne] using h

theorem text_injective : Function.Injective text := by
  intro s t h
  have hsign : s.seconds < 0 ↔ t.seconds < 0 := by rw [← head?_text, h, head?_text]
  have hl := congrArg String.toList h
  rw [toList_text, toList_text, if_congr hsign rfl rfl, List.append_cancel_left_eq] at hl
  have hpoint {n : Nat} : '.' ∉ padLeft 1 (Nat.toDigits 10 n) :=
    fun hm => absurd (isDigit_of_mem_padLeft hm) (by decide)
  have hnone {n : Nat} : '.' ∉ padLeft 9 (Nat.toDigits 10 n) :=
    fun hm => absurd (isDigit_of_mem_padLeft hm) (by decide)
  obtain ⟨hsec, -, hnano⟩ := (List.append_cons_inj_of_notMem hpoint hnone).mp hl
  exact eq_of_distance hsign (Prod.ext (padLeft_toDigits_inj hsec) (padLeft_toDigits_inj hnano))

end MerkleDir.Timestamp
