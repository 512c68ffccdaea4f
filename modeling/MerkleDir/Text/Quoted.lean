import MerkleDir.Text.Hex
import MerkleDir.Text.Printable

/-!
# Quoted text

A quoted form shows a text or a byte string unambiguously on one line: line breaks, controls,
invisible characters and bytes that encode nothing are written as escapes.
-/
namespace MerkleDir.Quoted

def lowerHex (n : Nat) : List Char := Nat.toDigits 16 n

def upperHexByte (b : UInt8) : List Char := (Hex.encodeByte b).map Char.toUpper

def unicodeEscape (c : Char) : List Char :=
  ['\\', 'u', '\x7b'] ++ lowerHex c.toNat ++ ['\x7d']

def isVisible (c : Char) : Bool :=
  if c.toNat < 0x7F then 0x20 ≤ c.toNat
  else !(Printable.extending.contains c || Printable.invisible.contains c)

/-- The escaped form of `c` between marks `quote`; the other quotation mark stays as it is. -/
def escape (quote c : Char) : List Char :=
  if c = '\x00' then ['\\', '0']
  else if c = '\t' then ['\\', 't']
  else if c = '\r' then ['\\', 'r']
  else if c = '\n' then ['\\', 'n']
  else if c = '\\' ∨ c = quote then ['\\', c]
  else if isVisible c then [c]
  else unicodeEscape c

def escapePiece : Utf8.Piece → List Char
  | .char c => escape '"' c
  | .invalid bytes => bytes.flatMap fun b => ['\\', 'x'] ++ upperHexByte b

def ofChar (c : Char) : String :=
  String.ofList ('\'' :: escape '\'' c ++ ['\''])

def ofText (text : String) : String :=
  String.ofList ('"' :: text.toList.flatMap (escape '"') ++ ['"'])

/-- Bytes are quoted as the text they encode, and each undecodable byte as a `\xHH` escape. -/
def ofBytes (bytes : Bytes) : String :=
  String.ofList ('"' :: (Utf8.pieces bytes).flatMap escapePiece ++ ['"'])

end MerkleDir.Quoted
