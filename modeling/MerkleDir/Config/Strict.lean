import MerkleDir.Config.Decode

namespace MerkleDir.Config

namespace Strict

def record? (size : Nat) : Json → Option Record
  | .object fields => some (.named fields)
  | .array items => if items.length ≤ size then some (.positional items) else none
  | _ => none

def bool? : Json → Option Bool
  | .bool b => some b
  | _ => none

def nat? : Json → Option Nat
  | .integer n => if 0 ≤ n then some n.toNat else none
  | _ => none

def text? : Json → Option String
  | .string s => some s
  | _ => none

/-- A word, or an object with the word as its only key, without a value. -/
def word? : Json → Option String
  | .string s => some s
  | .object [(name, .null)] => some name
  | _ => none

end Strict

def Reading.strict : Reading :=
  ⟨Strict.record?, Strict.bool?, Strict.nat?, Strict.text?, Strict.word?⟩

end MerkleDir.Config
