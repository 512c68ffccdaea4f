import Mathlib
import MerkleDir.Toml.Scalar

namespace MerkleDir.Toml.Scalar

theorem digitsValue_toDigits (n : Nat) : Decimal.digitsValue (Nat.toDigits 10 n) = n := by
  have hvalue : Decimal.digitsValue (Nat.toDigits 10 n) =
      Nat.ofDigitChars 10 (Nat.toDigits 10 n) 0 := by
    rw [Decimal.digitsValue, Nat.ofDigitChars]
    exact congrArg (fun f => List.foldl f 0 (Nat.toDigits 10 n))
      (funext fun m => funext fun c => congrArg (· + (c.toNat - 48)) (Nat.mul_comm m 10))
  rw [hvalue, Nat.ofDigitChars_ten_toDigits]

/-- By induction on the digits, the first of which is that of all but the last. -/
theorem toDigits_of_head?_eq_zero {n : Nat} (h : (Nat.toDigits 10 n).head? = some '0') :
    Nat.toDigits 10 n = ['0'] := by
  induction n using Nat.strongRecOn with
  | _ n ih =>
    rw [Nat.toDigits_eq_if (by decide)] at h ⊢
    split_ifs at h ⊢ with hn
    · rw [Option.some_inj.mp h]
    · rw [List.head?_append_of_ne_nil _ Nat.toDigits_ne_nil] at h
      have hzero : n / 10 = 0 := by
        rw [← digitsValue_toDigits (n / 10), ih _ (Nat.div_lt_self (by omega) (by decide)) h]
        rfl
      omega

section Word

variable {word : List Char} (hword : ∀ c ∈ word, c.isDigit = true)

include hword

theorem ungroup?_of_isDigit (hne : word ≠ []) : ungroup? Char.isDigit word = some word := by
  induction word with
  | nil => exact absurd rfl hne
  | cons c rest ih =>
    obtain ⟨hc, hrest⟩ := List.forall_mem_cons.mp hword
    cases rest with
    | nil => simp [ungroup?, hc]
    | cons d rest =>
      have hd : d ≠ '_' := by
        rintro rfl
        cases hrest '_' List.mem_cons_self
      have hlater := ih hrest (List.cons_ne_nil d rest)
      rw [ungroup?, if_pos hc, hlater]
      · rfl
      · exact fun h => List.cons_ne_nil d rest h
      · exact fun _ h => hd (List.cons.inj h).1

theorem after?_of_isDigit {c : Char} (hc : c.isDigit = false) : DateTime.after? c word = none := by
  cases word with
  | nil => rfl
  | cons d rest =>
    have hd : d ≠ c := by
      rintro rfl
      cases hc.symm.trans (hword d List.mem_cons_self)
    rw [DateTime.after?, if_neg hd]

theorem isDigit_of_number? {width low high n : Nat} {rest : List Char}
    (h : DateTime.number? width low high word = some (n, rest)) : ∀ c ∈ rest, c.isDigit = true := by
  simp only [DateTime.number?] at h
  split_ifs at h
  obtain ⟨-, rfl⟩ := Prod.mk.inj (Option.some_inj.mp h)
  exact fun c hc => hword c (List.mem_of_mem_drop hc)

theorem date?_of_isDigit : DateTime.date? word = none := by
  rw [DateTime.date?]
  cases hnumber : DateTime.number? 4 0 9999 word with
  | none => rfl
  | some found =>
    have hafter := after?_of_isDigit (isDigit_of_number? hword hnumber) (by decide : '-'.isDigit = false)
    simp [hafter]

theorem timeOfDay?_of_isDigit (bounds : DateTime.Bounds) :
    DateTime.timeOfDay? bounds word = none := by
  rw [DateTime.timeOfDay?]
  cases hnumber : DateTime.number? 2 0 bounds.lastHour word with
  | none => rfl
  | some found =>
    have hafter := after?_of_isDigit (isDigit_of_number? hword hnumber) (by decide : ':'.isDigit = false)
    simp [hafter]

theorem dateTime?_of_isDigit (bounds : DateTime.Bounds) : DateTime.read? bounds word = none := by
  rw [DateTime.read?, date?_of_isDigit hword, timeOfDay?_of_isDigit hword]

theorem head?_ne_of_isDigit {c : Char} (hc : c.isDigit = false) : word.head? ≠ some c := by
  intro h
  cases hc.symm.trans (hword c (List.mem_of_head? h))

theorem integer?_of_isDigit : integer? word = decimalInteger? word := by
  rw [integer?.eq_def]
  split
  · cases hword 'x' (by simp)
  · cases hword 'o' (by simp)
  · cases hword 'b' (by simp)
  · rfl

theorem unsigned_of_isDigit :
    Decimal.unsigned word = word ∧ Decimal.isNegative word = false := by
  cases word with
  | nil => exact ⟨rfl, rfl⟩
  | cons c rest =>
    have hc := hword c List.mem_cons_self
    rw [Decimal.unsigned.eq_def, Decimal.isNegative.eq_def]
    constructor <;> split
    all_goals first | rfl | (rename_i heq; obtain ⟨rfl, -⟩ := List.cons.inj heq; cases hc)

end Word

theorem read?_toDigits {n : Nat} (hn : n < Decimal.signedBound) :
    read? (Nat.toDigits 10 n) = some (.integer n) := by
  have hdigits : ∀ c ∈ Nat.toDigits 10 n, c.isDigit = true := fun c hc =>
    Nat.isDigit_of_mem_toDigits (by decide) (by decide) hc
  have hne : Nat.toDigits 10 n ≠ [] := Nat.toDigits_ne_nil
  have htrue : Nat.toDigits 10 n ≠ ['t', 'r', 'u', 'e'] := fun h =>
    head?_ne_of_isDigit hdigits (by decide : 't'.isDigit = false) (by rw [h]; rfl)
  have hfalse : Nat.toDigits 10 n ≠ ['f', 'a', 'l', 's', 'e'] := fun h =>
    head?_ne_of_isDigit hdigits (by decide : 'f'.isDigit = false) (by rw [h]; rfl)
  have hwhole : wholeDigits? (Nat.toDigits 10 n) = some (Nat.toDigits 10 n) := by
    rw [wholeDigits?, ungroup?_of_isDigit hdigits hne, Option.bind_some, if_neg]
    exact fun h => h.2 (toDigits_of_head?_eq_zero h.1)
  obtain ⟨hunsigned, hnegative⟩ := unsigned_of_isDigit hdigits
  rw [read?, if_neg htrue, if_neg hfalse, dateTime?_of_isDigit hdigits, integer?_of_isDigit hdigits,
    decimalInteger?, hunsigned, hwhole, hnegative, Option.bind_some, digitsValue_toDigits]
  simp [hn]

end MerkleDir.Toml.Scalar
