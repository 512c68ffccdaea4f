import MerkleDir.Pattern.Flags
import MerkleDir.Text.Hex

namespace MerkleDir.Pattern

/-- What one character or one escape stands for. -/
inductive Primitive where
  | character (c : Char)
  | chars (chars : CharClass)
  | assertion (asked : Assertion)
  deriving DecidableEq, Repr

namespace Escape

/-- The number that `width` hexadecimal digits write after the digits of `n`. -/
def code? (flags : Flags) : Nat → Nat → List Char → Option (Nat × List Char)
  | 0, n, input => some (n, input)
  | width + 1, n, input =>
    match flags.skip input with
    | c :: rest => (Hex.charValue? c).bind fun d => code? flags width (n * 16 + d) rest
    | [] => none

/-- A character by its code point. -/
def byCode? (flags : Flags) (width : Nat) (input : List Char) : Option (Primitive × List Char) :=
  (code? flags width 0 input).bind fun (n, rest) =>
    if n.isValidChar then some (.character (Char.ofNat n), rest) else none

/-- Two digits are one byte, which is no character above ASCII unless they are read as one. -/
def byByte? (flags : Flags) (input : List Char) : Option (Primitive × List Char) :=
  (byCode? flags 2 input).filter fun (found, _) =>
    match found with
    | .character c => flags.unicode || c.toNat < 128
    | _ => false

/-- The classes with a letter of their own are those of ASCII. -/
def shortClass? (flags : Flags) (chars : CharClass) : Option Primitive :=
  if flags.unicode then none else some (.chars chars)

def word (flags : Flags) (edge : WordEdge) : Primitive := .assertion (.word edge flags.unicode)

/-- What a single character after a backslash stands for. -/
def single? (flags : Flags) (c : Char) : Option Primitive :=
  match c with
  | 'd' => shortClass? flags .digits
  | 's' => shortClass? flags .spaces
  | 'w' => shortClass? flags .wordChars
  | 'a' => some (.character '\x07')
  | 'f' => some (.character '\x0c')
  | 't' => some (.character '\t')
  | 'n' => some (.character '\n')
  | 'r' => some (.character '\r')
  | 'v' => some (.character '\x0b')
  | 'A' => some (.assertion .textStart)
  | 'z' => some (.assertion .textEnd)
  | 'b' => some (word flags .any)
  | 'B' => some (word flags .none)
  | '<' => some (word flags .start)
  | '>' => some (word flags .stop)
  | c => if c.toNat < 128 ∧ ¬ c.isAlphanum then some (.character c) else none

/-- Reads what follows a backslash. -/
def read? (flags : Flags) (input : List Char) : Option (Primitive × List Char) :=
  match input with
  | [] => none
  | 'x' :: rest => byByte? flags rest
  | 'u' :: rest => byCode? flags 4 rest
  | 'U' :: rest => byCode? flags 8 rest
  | c :: rest => (single? flags c).map (·, rest)

end Escape
end MerkleDir.Pattern
