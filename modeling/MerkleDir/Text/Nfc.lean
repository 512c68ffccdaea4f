import MerkleDir.Text.CombiningClass
import MerkleDir.Text.Nfc.Table

/-!
# Normalization form C

Text is decomposed canonically, its combining marks are put into canonical order, and starters are
composed again with the marks that nothing blocks. Hangul syllables follow arithmetic rules.
-/
namespace MerkleDir.Nfc

namespace Hangul

def leadingBase : Nat := 0x1100
def vowelBase : Nat := 0x1161
def trailingBase : Nat := 0x11A7
def syllableBase : Nat := 0xAC00
def leadingCount : Nat := 19
def vowelCount : Nat := 21
def trailingCount : Nat := 28
def syllableCount : Nat := leadingCount * vowelCount * trailingCount

def isSyllable (c : Nat) : Bool :=
  syllableBase ≤ c && c < syllableBase + syllableCount

def decompose (c : Nat) : List Nat :=
  let index := c - syllableBase
  let leading := leadingBase + index / (vowelCount * trailingCount)
  let vowel := vowelBase + index % (vowelCount * trailingCount) / trailingCount
  let trailing := index % trailingCount
  if trailing = 0 then [leading, vowel] else [leading, vowel, trailingBase + trailing]

/-- A leading consonant takes a vowel, and a syllable without a trailing consonant takes one. -/
def compose? (first second : Nat) : Option Nat :=
  if leadingBase ≤ first ∧ first < leadingBase + leadingCount ∧
      vowelBase ≤ second ∧ second < vowelBase + vowelCount then
    some (syllableBase + ((first - leadingBase) * vowelCount + (second - vowelBase)) * trailingCount)
  else if isSyllable first ∧ (first - syllableBase) % trailingCount = 0 ∧
      trailingBase < second ∧ second < trailingBase + trailingCount then
    some (first + (second - trailingBase))
  else none

end Hangul

/-- One step of canonical decomposition. -/
def decomposeOnce (c : Nat) : List Nat :=
  if Hangul.isSyllable c then Hangul.decompose c
  else (decompositions.get? c).getD [c]

/-- No canonical decomposition is nested more than four deep. -/
def decomposeCode (c : Nat) : List Nat :=
  (((decomposeOnce c).flatMap decomposeOnce).flatMap decomposeOnce).flatMap decomposeOnce

/-- Puts a mark before the marks of higher class that end `marks`, a reversed run. -/
def insertMark (mark : Nat) : List Nat → List Nat
  | [] => [mark]
  | last :: rest =>
    if CombiningClass.ofCodePoint mark < CombiningClass.ofCodePoint last then
      last :: insertMark mark rest
    else mark :: last :: rest

/-- Orders each run of marks by class, keeping the order of equal classes; `run` is reversed. -/
def orderMarks : List Nat → List Nat → List Nat
  | run, [] => run.reverse
  | run, c :: rest =>
    if CombiningClass.ofCodePoint c = 0 then run.reverse ++ c :: orderMarks [] rest
    else orderMarks (insertMark c run) rest

def composePair? (first second : Nat) : Option Nat :=
  match Hangul.compose? first second with
  | some c => some c
  | none => compositions.get? (first, second)

/-- A mark is blocked from its starter by an uncomposed mark of no lower class between them. -/
def isBlocked (marks : List Nat) (c : Nat) : Bool :=
  match marks with
  | [] => false
  | last :: _ => CombiningClass.ofCodePoint c ≤ CombiningClass.ofCodePoint last

/-- Composes what follows `starter`; `marks` are the uncomposed marks since then, reversed. -/
def composeAfter (starter : Nat) (marks : List Nat) : List Nat → List Nat
  | [] => starter :: marks.reverse
  | c :: rest =>
    match if isBlocked marks c then none else composePair? starter c with
    | some composed => composeAfter composed marks rest
    | none =>
      if CombiningClass.ofCodePoint c = 0 then starter :: marks.reverse ++ composeAfter c [] rest
      else composeAfter starter (c :: marks) rest

def compose : List Nat → List Nat
  | [] => []
  | c :: rest =>
    if CombiningClass.ofCodePoint c = 0 then composeAfter c [] rest else c :: compose rest

/-- Text below U+0300 holds no marks and is in composed form as it stands. -/
def normalize (text : String) : String :=
  if text.toList.all (·.toNat < 0x300) then text
  else
    let decomposed := text.toList.flatMap fun c => decomposeCode c.toNat
    String.ofList ((compose (orderMarks [] decomposed)).map Char.ofNat)

end MerkleDir.Nfc
