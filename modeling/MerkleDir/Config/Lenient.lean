import MerkleDir.Config.Decode
import MerkleDir.Decimal.Notation

/-!
# Lenient reading

Scalars turn into the type that is asked for where they have a meaning in it: numbers into truth
values, words into either, and every scalar into text.
-/
namespace MerkleDir.Config

namespace Lenient

/-- Any number of items may stand in an array. -/
def record? (_ : Nat) : Json → Option Record
  | .object fields => some (.named fields)
  | .array items => some (.positional items)
  | _ => none

/-- Integers beyond 63 bits are known to the nearest real number only. -/
def isWide (n : Int) : Bool := Decimal.signedBound ≤ n

def wide (n : Int) : Binary64 := .ofDecimal false n.toNat 0

def greatestNat : Nat := UInt64.size - 1

/-- A word that stands for a truth value. -/
def truth? (text : String) : Option Bool :=
  let word := text.map Char.toLower
  if word = "true" ∨ word = "on" ∨ word = "yes" then some true
  else if word = "false" ∨ word = "off" ∨ word = "no" then some false
  else none

def bool? : Json → Option Bool
  | .bool b => some b
  | .integer n => some (n != 0)
  | .real x => some (!x.isZero)
  | .string s => if s = "1" then some true else if s = "0" then some false else truth? s
  | _ => none

/-- Decimal digits after an optional plus sign. -/
def digits? (text : String) : Option Nat :=
  let digits := match text.toList with
    | '+' :: rest => rest
    | cs => cs
  (Decimal.natural? digits).filter (· ≤ greatestNat)

def nat? : Json → Option Nat
  | .bool b => some b.toNat
  | .integer n =>
    if n < 0 then none
    else if isWide n then some ((wide n).toNatClamped greatestNat)
    else some n.toNat
  | .real x => some (x.toNatClamped greatestNat)
  | .string s => match truth? s with
    | some b => some b.toNat
    | none => digits? s
  | _ => none

def text? : Json → Option String
  | .string s => some s
  | .bool b => some (if b then "true" else "false")
  | .integer n => some (if isWide n then (wide n).text else toString n)
  | .real x => some x.text
  | _ => none

/-- A word, or an object with the word as its only key; its case does not matter. -/
def word? : Json → Option String
  | .string s => some (s.map Char.toLower)
  | .object [(name, _)] => some (name.map Char.toLower)
  | _ => none

end Lenient

def Reading.lenient : Reading :=
  ⟨Lenient.record?, Lenient.bool?, Lenient.nat?, Lenient.text?, Lenient.word?⟩

end MerkleDir.Config
