import Mathlib
import MerkleDir.Proofs.Nfc.Table
import MerkleDir.Text.LowerCase

/-!
# Lower case is its own lower case

No character that the table maps to is mapped by it, and none is one of the two that have forms of their
own. The table is read from text and evaluated once, by `check`.
-/
namespace MerkleDir

/-- The last range that is counted starts at or below the code point. -/
theorem CodePointSet.low_le_of_countBelow {ranges : Array CodePointRange} {c low high n : Nat}
    (hlow : ∀ m, low = m + 1 → ranges[m]?.any (·.low ≤ c))
    (h : countBelow ranges c low high = n + 1) : ranges[n]?.any (·.low ≤ c) := by
  induction low, high using countBelow.induct ranges c with
  | case1 low high hlt middle hstarts ih =>
    rw [countBelow, if_pos hlt, if_pos hstarts] at h
    exact ih (fun m hm => Nat.succ.inj hm ▸ hstarts) h
  | case2 low high hlt middle hstarts ih =>
    rw [countBelow, if_pos hlt, if_neg hstarts] at h
    exact ih hlow h
  | case3 low high hle =>
    rw [countBelow, if_neg hle] at h
    exact hlow n h

namespace LowerCase

namespace Row

/-- How many code points the row maps, but for the last. -/
def span (row : Row) : Nat := (row.range.high - row.range.low) / row.step

def codes (row : Row) : List Nat :=
  (List.range (row.span + 1)).map fun i => row.range.low + i * row.step

def targets (row : Row) : List Nat :=
  (List.range (row.span + 1)).map fun i => row.target + i * row.step

theorem apply_cases (row : Row) {c : Nat} (hlow : row.range.low ≤ c) :
    row.apply c = c ∨ c ∈ row.codes ∧ row.apply c ∈ row.targets := by
  rw [apply]
  split_ifs with h
  · obtain ⟨hhigh, hstep⟩ := h
    have hmul : (c - row.range.low) / row.step * row.step = c - row.range.low :=
      Nat.div_mul_cancel (Nat.dvd_of_mod_eq_zero hstep)
    have hspan : (c - row.range.low) / row.step ∈ List.range (row.span + 1) := by
      rw [List.mem_range, Nat.lt_succ_iff]
      exact Nat.div_le_div_right (Nat.sub_le_sub_right hhigh _)
    refine Or.inr ⟨List.mem_map.mpr ⟨_, hspan, ?_⟩, List.mem_map.mpr ⟨_, hspan, ?_⟩⟩
    · rw [hmul, Nat.add_sub_cancel' hlow]
    · rw [hmul]
  · exact Or.inl rfl

end Row

def codesOf (rows : List Row) : List Nat := rows.flatMap Row.codes

/-- What comes of characters: what the table maps to, and the forms of the two that are not mapped by
it. -/
def formsOf (rows : List Row) : List Nat := [0x69, 0x307, 0x3C2, 0x3C3] ++ rows.flatMap Row.targets

def special : List Nat := [0x130, 0x3A3]

def isAsciiEntry (codes forms n : Nat) : Bool :=
  (Char.ofNat n).toLower == Char.ofNat n ||
    codes.testBit n && forms.testBit (Char.ofNat n).toLower.toNat

def check (rows : List Row) : Bool :=
  ((formsOf rows).all fun t =>
    t.isValidChar && !(Nfc.maskOf (codesOf rows)).testBit t && !special.contains t) &&
  (List.range 128).all (isAsciiEntry (Nfc.maskOf (codesOf rows)) (Nfc.maskOf (formsOf rows)))

set_option maxRecDepth 20000 in
noncomputable def tableSpelling : Nfc.Spelling [tableText] := by
  unfold tableText
  exact .cons rfl .nil

theorem rows_eq : rows = ((tableSpelling.rows.flatMap Nfc.rowWords).map Row.ofText).toArray := by
  rw [rows, ← Nfc.Spelling.flatMap_tableWords, List.flatMap_singleton]

theorem check_eq_true : check rows.toList = true := by
  rw [rows_eq]
  decide +kernel

def codes : List Nat := codesOf rows.toList

def forms : List Nat := formsOf rows.toList

theorem check_forms : ∀ t ∈ forms, t.isValidChar ∧ t ∉ codes ∧ t ∉ special := by
  have h := (Bool.and_eq_true _ _ |>.mp check_eq_true).1
  rw [List.all_eq_true] at h
  intro t ht
  have hentry := h t ht
  simp only [Bool.and_eq_true, Bool.not_eq_true', decide_eq_true_eq] at hentry
  obtain ⟨⟨hvalid, hcode⟩, hspecial⟩ := hentry
  refine ⟨hvalid, fun hmem => ?_, fun hmem => ?_⟩
  · cases hcode.symm.trans (Nfc.testBit_maskOf.mpr hmem)
  · cases hspecial.symm.trans (List.contains_iff_mem.mpr hmem)

theorem check_ascii {n : Nat} (hn : n < 128) : (Char.ofNat n).toLower = Char.ofNat n ∨
    n ∈ codes ∧ (Char.ofNat n).toLower.toNat ∈ forms := by
  have h := (Bool.and_eq_true _ _ |>.mp check_eq_true).2
  rw [List.all_eq_true] at h
  have hentry := h n (List.mem_range.mpr hn)
  rw [isAsciiEntry, Bool.or_eq_true, beq_iff_eq, Bool.and_eq_true, Nfc.testBit_maskOf,
    Nfc.testBit_maskOf] at hentry
  exact hentry

/-- A character that the table does not map is its own form, and the others have forms of the table. -/
theorem simple_cases (c : Char) : simple c = c ∨ c.toNat ∈ codes ∧ (simple c).toNat ∈ forms := by
  rw [simple]
  split_ifs with hascii
  · have hcase := check_ascii hascii
    rwa [Char.ofNat_toNat] at hcase
  · split
    · exact Or.inl rfl
    · rename_i n hcount
      have hstarts := CodePointSet.low_le_of_countBelow
        (fun m hm => absurd hm (Nat.succ_ne_zero m).symm) hcount
      rw [starts, Array.getElem?_map] at hstarts
      cases hrow : rows[n]? with
      | none => exact Or.inl rfl
      | some row =>
        rw [hrow] at hstarts
        rw [Option.elim_some]
        rcases row.apply_cases (decide_eq_true_eq.mp hstarts) with hself | ⟨hcode, htarget⟩
        · exact Or.inl (by rw [hself, Char.ofNat_toNat])
        · have hmem : row ∈ rows.toList := Array.mem_toList_iff.mpr (Array.mem_of_getElem? hrow)
          have hform : row.apply c.toNat ∈ forms :=
            List.mem_append_right _ (List.mem_flatMap.mpr ⟨row, hmem, htarget⟩)
          rw [Char.toNat_ofNat, if_pos (check_forms _ hform).1]
          exact Or.inr ⟨List.mem_flatMap.mpr ⟨row, hmem, hcode⟩, hform⟩

/-- A character that has no form but itself. -/
structure IsLower (c : Char) : Prop where
  simple : simple c = c
  notMem : c.toNat ∉ special

theorem isLower_of_mem_forms {c : Char} (h : c.toNat ∈ forms) : IsLower c := by
  obtain ⟨-, hcodes, hspecial⟩ := check_forms c.toNat h
  exact ⟨(simple_cases c).resolve_right fun hmapped => hcodes hmapped.1, hspecial⟩

theorem isLower_simple {c : Char} (h : c.toNat ∉ special) : IsLower (simple c) := by
  rcases simple_cases c with hself | ⟨-, hform⟩
  · rw [hself]
    exact ⟨hself, h⟩
  · exact isLower_of_mem_forms hform

theorem mem_forms_of_mem {n : Nat} (h : n ∈ [0x69, 0x307, 0x3C2, 0x3C3]) : n ∈ forms :=
  List.mem_append_left _ h

theorem notMem_special {c : Char} (hdotted : c ≠ '\u0130') (hsigma : c ≠ capitalSigma) :
    c.toNat ∉ special := by
  have hne {d : Char} (h : c ≠ d) : c.toNat ≠ d.toNat := fun heq => h (Char.toNat_inj.mp heq)
  simpa [special] using ⟨hne hdotted, hne hsigma⟩

theorem isLower_of_mem_lowerFrom {before text : List Char} {c : Char}
    (h : c ∈ lowerFrom before text) : IsLower c := by
  induction text generalizing before with
  | nil => cases h
  | cons d rest ih =>
    rw [lowerFrom, List.mem_append] at h
    rcases h with h | h
    · split_ifs at h with hdotted hsigma
      · simp only [List.mem_cons, List.not_mem_nil, or_false] at h
        rcases h with rfl | rfl <;> exact isLower_of_mem_forms (mem_forms_of_mem (by decide))
      · rw [List.mem_singleton, sigma] at h
        split_ifs at h <;> subst h <;> exact isLower_of_mem_forms (mem_forms_of_mem (by decide))
      · rw [List.mem_singleton.mp h]
        exact isLower_simple (notMem_special hdotted hsigma)
    · exact ih h

theorem lowerFrom_eq_self {before text : List Char} (h : ∀ c ∈ text, IsLower c) :
    lowerFrom before text = text := by
  induction text generalizing before with
  | nil => rfl
  | cons c rest ih =>
    obtain ⟨hc, hrest⟩ := List.forall_mem_cons.mp h
    have hdotted : c ≠ '\u0130' := by
      rintro rfl
      exact hc.notMem (by decide)
    have hsigma : c ≠ capitalSigma := by
      rintro rfl
      exact hc.notMem (by decide)
    rw [lowerFrom, if_neg hdotted, if_neg hsigma, ih hrest, hc.simple, List.singleton_append]

end LowerCase

theorem lowerCase_lowerCase (text : String) : lowerCase (lowerCase text) = lowerCase text := by
  rw [lowerCase, lowerCase, String.toList_ofList,
    LowerCase.lowerFrom_eq_self fun c => LowerCase.isLower_of_mem_lowerFrom]

end MerkleDir
