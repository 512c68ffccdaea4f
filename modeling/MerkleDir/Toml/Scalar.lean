import MerkleDir.Text.Hex
import MerkleDir.Toml.Character
import MerkleDir.Toml.DateTime
import MerkleDir.Toml.Term

namespace MerkleDir.Toml

namespace Scalar

/-- Digits without the underscores, each of which has to stand between two digits. -/
def ungroup? (isDigit : Char → Bool) : List Char → Option (List Char)
  | [] => none
  | [c] => if isDigit c then some [c] else none
  | c :: '_' :: rest => if isDigit c then (ungroup? isDigit rest).map (c :: ·) else none
  | c :: rest => if isDigit c then (ungroup? isDigit rest).map (c :: ·) else none

def isDigitOf (radix : Nat) (c : Char) : Bool := (Hex.charValue? c).any (· < radix)

def valueOf (radix : Nat) (digits : List Char) : Nat :=
  digits.foldl (fun n c => n * radix + (Hex.charValue? c).getD 0) 0

def radixInteger? (radix : Nat) (word : List Char) : Option Int :=
  (ungroup? (isDigitOf radix) word).bind fun digits =>
    let n := valueOf radix digits
    if n < Decimal.signedBound then some n else none

/-- Decimal digits that start with a zero only if that is all. -/
def wholeDigits? (word : List Char) : Option (List Char) :=
  (ungroup? Char.isDigit word).bind fun digits =>
    if digits.head? = some '0' ∧ word ≠ ['0'] then none else some digits

def decimalInteger? (word : List Char) : Option Int :=
  (wholeDigits? (Decimal.unsigned word)).bind fun digits =>
    let n := Decimal.digitsValue digits
    if Decimal.isNegative word then (if n ≤ Decimal.signedBound then some (-(n : Int)) else none)
    else if n < Decimal.signedBound then some n else none

def integer? : List Char → Option Int
  | '0' :: 'x' :: rest => radixInteger? 16 rest
  | '0' :: 'o' :: rest => radixInteger? 8 rest
  | '0' :: 'b' :: rest => radixInteger? 2 rest
  | word => decimalInteger? word

def isGroupChar (c : Char) : Bool := c.isDigit || c == '_'

def isExponentMark (c : Char) : Bool := c == 'e' || c == 'E'

def exponent? (word : List Char) : Option Int :=
  (ungroup? Char.isDigit (Decimal.unsigned word)).map fun digits =>
    if Decimal.isNegative word then -(Decimal.digitsValue digits : Int) else Decimal.digitsValue digits

/-- The part after the whole digits: a fraction, an exponent, or the one and then the other. -/
def tail? (word : List Char) : Option (List Char × Int) :=
  match word with
  | '.' :: rest =>
    (ungroup? Char.isDigit (rest.takeWhile isGroupChar)).bind fun places =>
      match rest.dropWhile isGroupChar with
      | [] => some (places, 0)
      | c :: rest => if isExponentMark c then (exponent? rest).map (places, ·) else none
  | c :: rest => if isExponentMark c then (exponent? rest).map ([], ·) else none
  | [] => none

def infinity : List Char := ['i', 'n', 'f']
def notANumber : List Char := ['n', 'a', 'n']

/-- A value above all finite ones is refused, one below them is not. -/
def real? (word : List Char) : Option Binary64 :=
  let body := Decimal.unsigned word
  if body = infinity then some (.infinite (Decimal.isNegative word))
  else if body = notANumber then some .notANumber
  else
    (wholeDigits? (body.takeWhile isGroupChar)).bind fun whole =>
      (tail? (body.dropWhile isGroupChar)).bind fun (places, exponent) =>
        match Binary64.ofDecimal (Decimal.isNegative word) (Decimal.digitsValue (whole ++ places))
            (exponent - places.length) with
        | .infinite false => none
        | x => some x

/-- The value of a word. -/
def read? (word : List Char) : Option Term :=
  if word = ['t', 'r', 'u', 'e'] then some (.bool true)
  else if word = ['f', 'a', 'l', 's', 'e'] then some (.bool false)
  else match DateTime.read? .plain word with
    | some t => some (.time t)
    | none =>
      match integer? word with
      | some n => some (.integer n)
      | none => (real? word).map .real

end Scalar

/-- Whether a date is followed by a blank and a time. -/
def timeFollows (word rest : List Char) : Bool :=
  match rest with
  | ' ' :: c :: _ => c.isDigit && DateTime.isDate word
  | _ => false

/-- Cuts the word of a scalar from what follows it. -/
def cutScalar (input : List Char) : List Char × List Char :=
  let word := input.takeWhile isScalarChar
  let rest := input.dropWhile isScalarChar
  if timeFollows word rest then
    (word ++ ' ' :: (rest.drop 1).takeWhile isScalarChar, (rest.drop 1).dropWhile isScalarChar)
  else (word, rest)

def scalar? (input : List Char) : Option (Term × List Char) :=
  let (word, rest) := cutScalar input
  (Scalar.read? word).map (·, rest)

end MerkleDir.Toml
