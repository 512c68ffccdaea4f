import Mathlib
import MerkleDir.Text.Nfc

/-!
# What the table of decompositions holds

The table is read from text and evaluated once, by `check`. A set of code points is a number with a
bit for each of them.
-/
namespace MerkleDir.Nfc

def maskOf (codes : List Nat) : Nat :=
  codes.foldl (fun mask c => mask ||| 1 <<< c) 0

theorem testBit_insert (mask c e : Nat) :
    (mask ||| 1 <<< c).testBit e = true ↔ mask.testBit e = true ∨ c = e := by
  rw [Nat.testBit_lor, Bool.or_eq_true, Nat.one_shiftLeft, Nat.testBit_two_pow, decide_eq_true_eq]

theorem testBit_maskOf {codes : List Nat} {e : Nat} :
    (maskOf codes).testBit e = true ↔ e ∈ codes := by
  have hfold (mask : Nat) : (codes.foldl (fun mask c => mask ||| 1 <<< c) mask).testBit e = true ↔
      mask.testBit e = true ∨ e ∈ codes := by
    induction codes generalizing mask with
    | nil => simp
    | cons c codes ih =>
      rw [List.foldl_cons, ih, testBit_insert, List.mem_cons, or_assoc, @eq_comm _ c]
  rw [maskOf, hfold, Nat.zero_testBit]
  simp

def areDistinct (mask : Nat) : List Nat → Bool
  | [] => true
  | c :: rest => !mask.testBit c && areDistinct (mask ||| 1 <<< c) rest

theorem nodup_of_areDistinct {mask : Nat} {codes : List Nat} (h : areDistinct mask codes = true) :
    codes.Nodup ∧ ∀ c ∈ codes, mask.testBit c = false := by
  induction codes generalizing mask with
  | nil => exact ⟨.nil, nofun⟩
  | cons c rest ih =>
    rw [areDistinct, Bool.and_eq_true, Bool.not_eq_true'] at h
    obtain ⟨hnodup, hrest⟩ := ih h.2
    have hcases {e : Nat} (he : e ∈ rest) : ¬ (mask.testBit e = true ∨ c = e) := by
      rw [← testBit_insert, hrest e he]
      exact Bool.false_ne_true
    refine ⟨List.nodup_cons.mpr ⟨fun hc => hcases hc (Or.inr rfl), hnodup⟩, ?_⟩
    refine List.forall_mem_cons.mpr ⟨h.1, fun e he => ?_⟩
    exact Bool.eq_false_of_not_eq_true fun hbit => hcases he (Or.inl hbit)

def rowWords (row : List Char) : List (List Char) :=
  (row.splitBy fun a b => (a.isWhitespace == b.isWhitespace)).filter
    fun w => w.head?.any (!·.isWhitespace)

theorem tableWords_ofList (row : List Char) : tableWords (String.ofList row) = rowWords row := by
  rw [tableWords, String.toList_ofList, rowWords]

/-- The characters of lines of text, with which an evaluation can begin. -/
structure Spelling (lines : List String) where
  rows : List (List Char)
  eq_map : lines = rows.map String.ofList

namespace Spelling

variable {lines : List String}

def nil : Spelling [] := ⟨[], rfl⟩

def cons {line : String} {row : List Char} (h : line = String.ofList row)
    (rest : Spelling lines) : Spelling (line :: lines) :=
  ⟨row :: rest.rows, by rw [h, List.map_cons, ← rest.eq_map]⟩

theorem flatMap_tableWords (spelling : Spelling lines) :
    lines.flatMap tableWords = spelling.rows.flatMap rowWords := by
  have hwords : tableWords ∘ String.ofList = rowWords := funext tableWords_ofList
  obtain ⟨rows, rfl⟩ := spelling
  rw [List.flatMap_map]
  exact congrArg rows.flatMap hwords

def table (spelling : Spelling lines) : List Decomposition :=
  (spelling.rows.flatMap rowWords).map Decomposition.ofText

end Spelling

-- one spelling for each line, since a long literal takes quadratic time
set_option maxRecDepth 4000 in
noncomputable def compositesSpelling : Spelling compositesLines := by
  unfold compositesLines
  dsimp only
  repeat first | exact .nil | refine .cons rfl ?_

set_option maxRecDepth 4000 in
noncomputable def singlesSpelling : Spelling singlesLines := by
  unfold singlesLines
  dsimp only
  repeat first | exact .nil | refine .cons rfl ?_

set_option maxRecDepth 20000 in
noncomputable def classesSpelling : Spelling [CombiningClass.tableText] := by
  unfold CombiningClass.tableText
  exact .cons rfl .nil

def codesOf (table : List Decomposition) : List Nat := table.map Decomposition.code

/-- The entries one of whose parts has an entry itself. -/
def nested (table : List Decomposition) : List Decomposition :=
  table.filter fun d => d.parts.any (maskOf (codesOf table)).testBit

theorem mem_nested {table : List Decomposition} {d : Decomposition} :
    d ∈ nested table ↔ d ∈ table ∧ ∃ p ∈ d.parts, p ∈ codesOf table := by
  rw [nested, List.mem_filter, List.any_eq_true]
  simp only [testBit_maskOf]

def low (table : List Decomposition) : List Decomposition :=
  table.filter (·.code < 0x300)

def pathMarks : List Nat := [0x2E, 0x2F, 0x5C]

def isJamo (c : Nat) : Bool := 0x1100 ≤ c && c < 0x1200

/-- The last two marks of the characters below U+0300 that hold several. -/
def stackedMarks : List (Nat × Nat) :=
  [(0x303, 0x304), (0x307, 0x304), (0x308, 0x300), (0x308, 0x301), (0x308, 0x304), (0x308, 0x30C),
    (0x30A, 0x301), (0x328, 0x304)]

namespace Decomposition

def isEntry (d : Decomposition) : Bool :=
  0xC0 ≤ d.code && d.code.isValidChar && !Hangul.isSyllable d.code && !isJamo d.code &&
    d.parts ≠ [] && d.parts.all fun p => p.isValidChar && p ∉ pathMarks

/-- A pair ends in a character that has no parts and starts no character below U+0300. -/
def isPair (codes : Nat) (d : Decomposition) : Bool :=
  match d.parts with
  | [first, second] => 0x300 ≤ second && !codes.testBit second && !Hangul.isSyllable second &&
      (0x300 ≤ d.code || first < 0x300)
  | _ => false

def pairKey (d : Decomposition) : Nat :=
  match d.parts with
  | [first, second] => 50 * first + second
  | _ => 0

/-- Whether the marks are among `stackedMarks` if `d` puts one on top of that of `inner`. -/
def isStackedOn (d inner : Decomposition) : Bool :=
  match d.parts, inner.parts with
  | [first, second], [_, below] => first != inner.code || stackedMarks.contains (below, second)
  | _, _ => false

end Decomposition

def check (composites singles : List Decomposition) : Bool :=
  areDistinct 0 (codesOf (composites ++ singles)) &&
  areDistinct 0 (composites.map (·.pairKey)) &&
  (nested (nested (nested (composites ++ singles)))).isEmpty &&
  (composites ++ singles).all (·.isEntry) &&
  composites.all (·.isPair (maskOf (codesOf (composites ++ singles)))) &&
  singles.all (0x300 ≤ ·.code) &&
  (nested (low composites)).all fun d => (low composites).all d.isStackedOn

theorem composites_eq : composites = compositesSpelling.table := by
  rw [composites, compositesSpelling.flatMap_tableWords, Spelling.table]

theorem singles_eq : singles = singlesSpelling.table := by
  rw [singles, singlesSpelling.flatMap_tableWords, Spelling.table]

set_option maxRecDepth 10000 in
theorem check_eq_true : check composites singles = true := by
  rw [composites_eq, singles_eq]
  decide +kernel

def table : List Decomposition := composites ++ singles

theorem check_table : areDistinct 0 (codesOf table) = true ∧
    areDistinct 0 (composites.map (·.pairKey)) = true ∧ nested (nested (nested table)) = [] ∧
    (∀ d ∈ table, d.isEntry = true) ∧
    (∀ d ∈ composites, d.isPair (maskOf (codesOf table)) = true) ∧
    (∀ d ∈ singles, 0x300 ≤ d.code) ∧
    ∀ d ∈ nested (low composites), ∀ e ∈ low composites, d.isStackedOn e = true := by
  have h := check_eq_true
  simp only [check, Bool.and_eq_true, List.all_eq_true, List.isEmpty_iff, decide_eq_true_eq,
    and_assoc] at h
  exact h

theorem classRows_eq : CombiningClass.rows =
    ((classesSpelling.rows.flatMap rowWords).map CombiningClass.Row.ofText).toArray := by
  rw [CombiningClass.rows, ← Spelling.flatMap_tableWords, List.flatMap_singleton]

theorem stackedMarks_ordered : ∀ p ∈ stackedMarks,
    CombiningClass.ofCodePoint p.1 ≤ CombiningClass.ofCodePoint p.2 := by
  simp only [CombiningClass.ofCodePoint, CombiningClass.starts, classRows_eq]
  decide +kernel

end MerkleDir.Nfc
