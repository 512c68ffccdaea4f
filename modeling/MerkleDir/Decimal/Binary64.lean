/-!
# Binary floating point of 64 bits

A finite value is `mantissa * 2 ^ exponent`. A decimal is read to the nearest value, ties to the even
mantissa, and written with the fewest digits that read back, in positional notation. Values are also
scaled by powers of ten, with one rounding for the power and one for the result.
-/
namespace MerkleDir

inductive Binary64 where
  | finite (negative : Bool) (mantissa : Nat) (exponent : Int)
  | infinite (negative : Bool)
  | notANumber
  deriving DecidableEq, Repr

namespace Binary64

def mantissaBits : Nat := 53
def leastExponent : Int := -1074
def greatestExponent : Int := 971

/-- `numerator / denominator` to the nearest integer, a half to the even one. -/
def roundEven (numerator denominator : Nat) : Nat :=
  let quotient := numerator / denominator
  let rest := numerator % denominator
  if 2 * rest < denominator then quotient
  else if denominator < 2 * rest then quotient + 1
  else if quotient % 2 = 0 then quotient else quotient + 1

/-- The integer `k` with `2 ^ k ≤ numerator / denominator < 2 ^ (k + 1)`. -/
def floorLog2 (numerator denominator : Nat) : Int :=
  let guess : Int := (numerator.log2 : Int) - denominator.log2
  if denominator * Nat.pow 2 guess.toNat ≤ numerator * Nat.pow 2 (-guess).toNat then guess else guess - 1

def ofRatio (negative : Bool) (numerator denominator : Nat) : Binary64 :=
  if numerator = 0 then .finite negative 0 leastExponent
  else
    let exponent := max (floorLog2 numerator denominator - (mantissaBits - 1)) leastExponent
    let mantissa :=
      roundEven (numerator * Nat.pow 2 (-exponent).toNat) (denominator * Nat.pow 2 exponent.toNat)
    let (mantissa, exponent) :=
      if mantissa = Nat.pow 2 mantissaBits then (Nat.pow 2 (mantissaBits - 1), exponent + 1)
      else (mantissa, exponent)
    if greatestExponent < exponent then .infinite negative
    else .finite negative mantissa exponent

/-- Beyond these powers of ten everything is infinite or zero. -/
def ofDecimal (negative : Bool) (digits : Nat) (exponent : Int) : Binary64 :=
  let size : Int := (Nat.toDigits 10 digits).length
  if digits = 0 ∨ size + exponent < -330 then .finite negative 0 leastExponent
  else if 330 < size + exponent then .infinite negative
  else ofRatio negative (digits * Nat.pow 10 exponent.toNat) (Nat.pow 10 (-exponent).toNat)

/-- The value times the nearest value to `10 ^ power`, or over the nearest one to `10 ^ (-power)`. -/
def scale (x : Binary64) (power : Int) : Binary64 :=
  match x, ofDecimal false 1 power.natAbs with
  | .finite negative m e, .finite _ p f =>
    if 0 ≤ power then
      ofRatio negative (m * p * Nat.pow 2 (e + f).toNat) (Nat.pow 2 (-(e + f)).toNat)
    else
      ofRatio negative (m * Nat.pow 2 (e - f).toNat) (p * Nat.pow 2 (f - e).toNat)
  | x, _ => x

/-- The reals that are read as `mantissa * 2 ^ exponent`, in quarters of a unit of the mantissa; the
gap below a power of two is half as wide. -/
structure Interval where
  low : Nat
  middle : Nat
  high : Nat
  closed : Bool
  exponent : Int

def Interval.of (mantissa : Nat) (exponent : Int) : Interval :=
  let below := if mantissa = Nat.pow 2 (mantissaBits - 1) ∧ leastExponent < exponent then 1 else 2
  ⟨4 * mantissa - below, 4 * mantissa, 4 * mantissa + 2, mantissa % 2 == 0, exponent - 2⟩

/-- Decimals `digits * 10 ^ power` with that power, and how far each lies from the middle. -/
structure Grid where
  interval : Interval
  power : Int

namespace Grid

/-- A point of the grid and a bound of the interval, over one denominator. -/
def point (g : Grid) (digits : Nat) : Nat :=
  digits * Nat.pow 10 g.power.toNat * Nat.pow 2 (-g.interval.exponent).toNat

def bound (g : Grid) (quarters : Nat) : Nat :=
  quarters * Nat.pow 2 g.interval.exponent.toNat * Nat.pow 10 (-g.power).toNat

def holds (g : Grid) (digits : Nat) : Bool :=
  let x := g.point digits
  let low := g.bound g.interval.low
  let high := g.bound g.interval.high
  if g.interval.closed then low ≤ x && x ≤ high else low < x && x < high

/-- The grid's point in the interval that is nearest to the middle; of two as near, the greater one. -/
def nearest? (g : Grid) : Option Nat :=
  let middle := g.bound g.interval.middle
  let below := middle / g.point 1
  let above := below + 1
  match g.holds below && below != 0, g.holds above with
  | true, true =>
    let down := middle - g.point below
    let up := g.point above - middle
    if down < up then some below else some above
  | true, false => some below
  | false, true => some above
  | false, false => none

end Grid

/-- The first grid with a point in the interval, from the power `power` downwards. -/
def shortestFrom (interval : Interval) : Nat → Int → Nat × Int
  | 0, power => (0, power)
  | steps + 1, power =>
    match (Grid.mk interval power).nearest? with
    | some digits => (digits, power)
    | none => shortestFrom interval steps (power - 1)

/-- The shortest decimal that reads back: digits and power of ten. -/
def shortest (mantissa : Nat) (exponent : Int) : Nat × Int :=
  shortestFrom (.of mantissa exponent) 660 310

def positional (digits : Nat) (power : Int) : List Char :=
  let ds := Nat.toDigits 10 digits
  if 0 ≤ power then ds ++ List.replicate power.toNat '0'
  else
    let places := (-power).toNat
    if places < ds.length then
      ds.take (ds.length - places) ++ '.' :: ds.drop (ds.length - places)
    else '0' :: '.' :: List.replicate (places - ds.length) '0' ++ ds

def sign (negative : Bool) : String := if negative then "-" else ""

/-- Whole numbers have no decimal point. -/
def text : Binary64 → String
  | .notANumber => "NaN"
  | .infinite negative => sign negative ++ "inf"
  | .finite negative 0 _ => sign negative ++ "0"
  | .finite negative mantissa exponent =>
    let (digits, power) := shortest mantissa exponent
    sign negative ++ String.ofList (positional digits power)

def isZero : Binary64 → Bool
  | .finite _ 0 _ => true
  | _ => false

/-- The nearest natural number up to `limit`, a half upwards; negative values and NaN give 0. -/
def toNatClamped (limit : Nat) : Binary64 → Nat
  | .notANumber => 0
  | .infinite negative => if negative then 0 else limit
  | .finite true _ _ => 0
  | .finite false mantissa exponent =>
    let doubled := 2 * mantissa * Nat.pow 2 exponent.toNat / Nat.pow 2 (-exponent).toNat
    min limit ((doubled + 1) / 2)

end Binary64
end MerkleDir
