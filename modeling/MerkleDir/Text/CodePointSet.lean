/-!
# Sets of code points

A set is written as text: hexadecimal code points and inclusive ranges `lo-hi`, ascending and parted
by blanks. Membership is a binary search over the ranges.
-/
namespace MerkleDir

structure CodePointRange where
  low : Nat
  high : Nat
  deriving DecidableEq, Repr, Inhabited

namespace CodePointRange

def hexDigit? (c : Char) : Option Nat :=
  if c.isDigit then some (c.toNat - 48)
  else if 'A' ≤ c ∧ c ≤ 'F' then some (c.toNat - 55)
  else none

def hexValue (digits : List Char) : Nat :=
  digits.foldl (fun n c => n * 16 + (hexDigit? c).getD 0) 0

/-- Reads `lo` or `lo-hi`. -/
def ofText (text : List Char) : CodePointRange :=
  let low := text.takeWhile (· ≠ '-')
  match text.dropWhile (· ≠ '-') with
  | [] => ⟨hexValue low, hexValue low⟩
  | _ :: high => ⟨hexValue low, hexValue high⟩

end CodePointRange

/-- The maximal stretches of `text` without blanks and line ends. -/
def tableWords (text : String) : List (List Char) :=
  (text.toList.splitBy fun a b => (a.isWhitespace == b.isWhitespace)).filter
    fun w => w.head?.any (!·.isWhitespace)

structure CodePointSet where
  ranges : Array CodePointRange

namespace CodePointSet

def ofText (text : String) : CodePointSet :=
  ⟨((tableWords text).map CodePointRange.ofText).toArray⟩

/-- The number of ranges that start at or below `c`, searched between `low` and `high`. -/
def countBelow (ranges : Array CodePointRange) (c low high : Nat) : Nat :=
  if low < high then
    let middle := (low + high) / 2
    if ranges[middle]?.any (·.low ≤ c) then countBelow ranges c (middle + 1) high
    else countBelow ranges c low middle
  else low
  termination_by high - low

def contains (set : CodePointSet) (c : Char) : Bool :=
  match countBelow set.ranges c.toNat 0 set.ranges.size with
  | 0 => false
  | n + 1 => set.ranges[n]?.any (c.toNat ≤ ·.high)

end CodePointSet
end MerkleDir
