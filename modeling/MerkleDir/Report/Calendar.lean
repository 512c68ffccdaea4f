import MerkleDir.Timestamp

/-!
# Calendar times

A timestamp is rendered as a date and time of the proleptic Gregorian calendar in UTC, with nine
decimals. Years outside 0000 to 9999 carry a sign; years outside the calendar's range have no
rendering.
-/
namespace MerkleDir.Calendar

def leastYear : Int := -262143
def greatestYear : Int := 262142

structure Date where
  year : Int
  month : Nat
  day : Nat
  deriving DecidableEq, Repr

/-- Counts years from March, so that a leap day ends its year; eras are 400 years. -/
def dateOfDays (days : Int) : Date :=
  let shifted := days + 719468
  let era := shifted / 146097
  let dayOfEra := (shifted % 146097).toNat
  let yearOfEra := (dayOfEra - dayOfEra / 1460 + dayOfEra / 36524 - dayOfEra / 146096) / 365
  let dayOfYear := dayOfEra - (365 * yearOfEra + yearOfEra / 4 - yearOfEra / 100)
  let monthFromMarch := (5 * dayOfYear + 2) / 153
  let day := dayOfYear - (153 * monthFromMarch + 2) / 5 + 1
  let month := if monthFromMarch < 10 then monthFromMarch + 3 else monthFromMarch - 9
  let year := era * 400 + yearOfEra + (if month ≤ 2 then 1 else 0)
  ⟨year, month, day⟩

def yearText (year : Int) : String :=
  if 0 ≤ year ∧ year ≤ 9999 then Timestamp.decimals 4 year.toNat
  else (if year < 0 then "-" else "+") ++ Timestamp.decimals 4 year.natAbs

def isInRange (date : Date) : Bool :=
  leastYear ≤ date.year && date.year ≤ greatestYear

def render (date : Date) (secondOfDay : Nat) (nanos : Nat) : String :=
  yearText date.year ++ "-" ++ Timestamp.decimals 2 date.month ++ "-" ++
    Timestamp.decimals 2 date.day ++ "T" ++ Timestamp.decimals 2 (secondOfDay / 3600) ++ ":" ++
    Timestamp.decimals 2 (secondOfDay / 60 % 60) ++ ":" ++ Timestamp.decimals 2 (secondOfDay % 60) ++
    "." ++ Timestamp.decimals 9 nanos ++ "Z"

def text? (t : Timestamp) : Option String :=
  let date := dateOfDays (t.seconds / 86400)
  if isInRange date then some (render date (t.seconds % 86400).toNat t.nanos) else none

end MerkleDir.Calendar
