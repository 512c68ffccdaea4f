import MerkleDir.Text.Utf8

/-!
# Hexadecimal text

Bytes are written as two lower-case digits each. Reading takes digits of either case and names the
first fault: an odd byte length before any bad digit.
-/
namespace MerkleDir.Hex

def digit (n : Nat) : Char :=
  if n < 10 then Char.ofNat (48 + n) else Char.ofNat (87 + n)

def encodeByte (b : UInt8) : List Char :=
  [digit (b.toNat / 16), digit (b.toNat % 16)]

def encode (bytes : Bytes) : String :=
  String.ofList (bytes.flatMap encodeByte)

/-- The value of an ASCII digit `0-9`, `A-F` or `a-f`. -/
def value? (b : UInt8) : Option Nat :=
  if 48 ≤ b ∧ b ≤ 57 then some (b.toNat - 48)
  else if 65 ≤ b ∧ b ≤ 70 then some (b.toNat - 55)
  else if 97 ≤ b ∧ b ≤ 102 then some (b.toNat - 87)
  else none

def charValue? (c : Char) : Option Nat :=
  if c.toNat < 128 then value? (UInt8.ofNat c.toNat) else none

inductive DecodeError where
  | oddLength
  | invalidDigit (byte : UInt8) (position : Nat)
  deriving DecidableEq, Repr

def decodeDigit (position : Nat) (b : UInt8) : Except DecodeError Nat :=
  match value? b with
  | some v => .ok v
  | none => .error (.invalidDigit b position)

/-- Reads pairs of digits; a last digit that stands alone is an odd length. -/
def decodeFrom : Nat → Bytes → Except DecodeError Bytes
  | _, [] => .ok []
  | _, [_] => .error .oddLength
  | position, high :: low :: rest => do
    let h ← decodeDigit position high
    let l ← decodeDigit (position + 1) low
    let bytes ← decodeFrom (position + 2) rest
    pure (UInt8.ofNat (h * 16 + l) :: bytes)

/-- The length is tested first, whatever the digits are. -/
def decode (text : Bytes) : Except DecodeError Bytes :=
  if text.length % 2 = 1 then .error .oddLength else decodeFrom 0 text

end MerkleDir.Hex
