import MerkleDir.Decimal.Binary64

/-!
# Decimal notation

Reading numbers from text. An integer is a run of digits after an optional sign. A real number may also
have a point with digits on either side, an exponent, or be one of the words for infinity and for no
number at all.
-/
namespace MerkleDir.Decimal

/-- `2 ^ 63`: integers of 64 bits with a sign stay below it. -/
def signedBound : Nat := 9223372036854775808

def isNegative : List Char → Bool
  | '-' :: _ => true
  | _ => false

def unsigned : List Char → List Char
  | '-' :: rest => rest
  | '+' :: rest => rest
  | input => input

def digitsValue (digits : List Char) : Nat :=
  digits.foldl (fun n c => n * 10 + (c.toNat - 48)) 0

def natural? (digits : List Char) : Option Nat :=
  if digits ≠ [] ∧ digits.all Char.isDigit then some (digitsValue digits) else none

def integer? (input : List Char) : Option Int :=
  (natural? (unsigned input)).map fun n => if isNegative input then -(n : Int) else n

/-- The exponent after the digits: none at all is 0. -/
def exponent? : List Char → Option Int
  | [] => some 0
  | c :: rest => if c = 'e' ∨ c = 'E' then integer? rest else none

/-- A number without its sign: the digits before and after the point, of which there is at least one. -/
def magnitude? (negative : Bool) (input : List Char) : Option Binary64 :=
  let whole := input.takeWhile Char.isDigit
  let rest := input.dropWhile Char.isDigit
  let (places, rest) := match rest with
    | '.' :: rest => (rest.takeWhile Char.isDigit, rest.dropWhile Char.isDigit)
    | rest => ([], rest)
  if whole ++ places = [] then none
  else (exponent? rest).map fun e =>
    .ofDecimal negative (digitsValue (whole ++ places)) (e - places.length)

/-- Words count in any case. -/
def real? (input : List Char) : Option Binary64 :=
  let body := unsigned input
  let word := String.ofList (body.map Char.toLower)
  if word = "inf" ∨ word = "infinity" then some (.infinite (isNegative input))
  else if word = "nan" then some .notANumber
  else magnitude? (isNegative input) body

end MerkleDir.Decimal
