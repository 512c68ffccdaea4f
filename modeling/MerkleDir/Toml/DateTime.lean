import MerkleDir.Decimal.Notation
import MerkleDir.Timestamp

/-!
# Dates and times

A date, a time of day, or both with an optional offset from UTC. The text of one is normal: a `T`
between date and time, and no zeros at the end of a fraction. How far an hour and an offset may go
depends on where the text stands.
-/
namespace MerkleDir.Toml

structure Date where
  year : Nat
  month : Nat
  day : Nat
  deriving DecidableEq, Repr

structure TimeOfDay where
  hour : Nat
  minute : Nat
  second : Nat
  nanos : Nat
  deriving DecidableEq, Repr

inductive Offset where
  | utc
  | minutes (value : Int)
  deriving DecidableEq, Repr

inductive DateTime where
  | date (date : Date)
  | time (time : TimeOfDay)
  | dateTime (date : Date) (time : TimeOfDay) (offset : Option Offset)
  deriving DecidableEq, Repr

namespace DateTime

def dateText (d : Date) : String :=
  Timestamp.decimals 4 d.year ++ "-" ++ Timestamp.decimals 2 d.month ++ "-" ++
    Timestamp.decimals 2 d.day

def fractionText (nanos : Nat) : String :=
  if nanos = 0 then ""
  else "." ++ String.ofList
    ((Timestamp.decimals 9 nanos).toList.reverse.dropWhile (· == '0')).reverse

def timeText (t : TimeOfDay) : String :=
  Timestamp.decimals 2 t.hour ++ ":" ++ Timestamp.decimals 2 t.minute ++ ":" ++
    Timestamp.decimals 2 t.second ++ fractionText t.nanos

def offsetText : Offset → String
  | .utc => "Z"
  | .minutes m =>
    (if m < 0 then "-" else "+") ++ Timestamp.decimals 2 (m.natAbs / 60) ++ ":" ++
      Timestamp.decimals 2 (m.natAbs % 60)

def text : DateTime → String
  | .date d => dateText d
  | .time t => timeText t
  | .dateTime d t offset => dateText d ++ "T" ++ timeText t ++ (offset.map offsetText).getD ""

/-- The last hour of a day, and which hours and minutes an offset may have. -/
structure Bounds where
  lastHour : Nat
  isOffset : Nat → Nat → Bool

namespace Bounds

/-- The bounds of a time that is written without quotes. -/
def plain : Bounds := ⟨23, fun hours minutes => hours ≤ 23 && minutes ≤ 59⟩

/-- The bounds of a time that is the content of a string. -/
def quoted : Bounds := ⟨24, fun hours minutes => hours * 60 + minutes ≤ 24 * 60⟩

end Bounds

/-- A number of exactly `width` digits that lies between `low` and `high`. -/
def number? (width low high : Nat) (input : List Char) : Option (Nat × List Char) :=
  let digits := input.take width
  let n := Decimal.digitsValue digits
  if digits.length = width ∧ digits.all Char.isDigit ∧ low ≤ n ∧ n ≤ high then
    some (n, input.drop width)
  else none

/-- What follows a character that has to stand first. -/
def after? (c : Char) : List Char → Option (List Char)
  | d :: rest => if d = c then some rest else none
  | [] => none

def isLeapYear (year : Nat) : Bool :=
  year % 4 == 0 && (year % 100 != 0 || year % 400 == 0)

def daysOfMonth (year month : Nat) : Nat :=
  if month = 2 then (if isLeapYear year then 29 else 28)
  else if month = 4 ∨ month = 6 ∨ month = 9 ∨ month = 11 then 30
  else 31

def date? (input : List Char) : Option (Date × List Char) := do
  let (year, rest) ← number? 4 0 9999 input
  let rest ← after? '-' rest
  let (month, rest) ← number? 2 1 12 rest
  let rest ← after? '-' rest
  let (day, rest) ← number? 2 1 (daysOfMonth year month) rest
  pure (⟨year, month, day⟩, rest)

/-- A fraction of a second; digits after the ninth do not count. -/
def fraction? (input : List Char) : Option (Nat × List Char) :=
  match input with
  | '.' :: rest =>
    let digits := rest.takeWhile Char.isDigit
    let counted := digits.take 9
    if digits = [] then none
    else some (Decimal.digitsValue counted * Nat.pow 10 (9 - counted.length), rest.dropWhile Char.isDigit)
  | _ => some (0, input)

/-- A minute may have a leap second. -/
def timeOfDay? (bounds : Bounds) (input : List Char) : Option (TimeOfDay × List Char) := do
  let (hour, rest) ← number? 2 0 bounds.lastHour input
  let rest ← after? ':' rest
  let (minute, rest) ← number? 2 0 59 rest
  let rest ← after? ':' rest
  let (second, rest) ← number? 2 0 60 rest
  let (nanos, rest) ← fraction? rest
  pure (⟨hour, minute, second, nanos⟩, rest)

def hoursAndMinutes? (bounds : Bounds) (input : List Char) : Option Nat := do
  let (hours, rest) ← number? 2 0 99 input
  let rest ← after? ':' rest
  let (minutes, rest) ← number? 2 0 99 rest
  if rest = [] ∧ bounds.isOffset hours minutes then some (hours * 60 + minutes) else none

def offset? (bounds : Bounds) (input : List Char) : Option Offset :=
  match input with
  | [c] => if c = 'Z' ∨ c = 'z' then some .utc else none
  | '+' :: rest => (hoursAndMinutes? bounds rest).map fun m => .minutes m
  | '-' :: rest => (hoursAndMinutes? bounds rest).map fun m => .minutes (-m)
  | _ => none

def isDelimiter (c : Char) : Bool := c == 'T' || c == 't' || c == ' '

def afterDate? (bounds : Bounds) (d : Date) (rest : List Char) : Option DateTime :=
  match rest with
  | [] => some (.date d)
  | c :: rest =>
    if isDelimiter c then
      match timeOfDay? bounds rest with
      | some (t, []) => some (.dateTime d t none)
      | some (t, zone) => (offset? bounds zone).map fun o => .dateTime d t (some o)
      | none => none
    else none

def read? (bounds : Bounds) (input : List Char) : Option DateTime :=
  match date? input with
  | some (d, rest) => afterDate? bounds d rest
  | none =>
    match timeOfDay? bounds input with
    | some (t, []) => some (.time t)
    | _ => none

/-- A date alone, which a blank and a time may follow. -/
def isDate (input : List Char) : Bool :=
  match date? input with
  | some (_, []) => true
  | _ => false

end DateTime
end MerkleDir.Toml
