import MerkleDir.Decimal.Notation
import MerkleDir.Text.Hex

/-!
# JSON

Values with their fields in order, a reader for whole texts and two writers. Integers of 64 bits keep
their value; any other number is read from its first digits and scaled by a power of ten, which may
miss the nearest binary fraction.
-/
namespace MerkleDir

inductive Json where
  | null
  | bool (value : Bool)
  | integer (value : Int)
  | real (value : Binary64)
  | string (text : String)
  | array (items : List Json)
  | object (fields : List (String × Json))
  deriving Inhabited

namespace Json

/-- The value of a field; of fields with one name the last counts. -/
def field? (name : String) : Json → Option Json
  | .object fields => (fields.reverse.find? (·.1 == name)).map (·.2)
  | _ => none

mutual

/-- The value with only the last of the fields that have one name, here and further down. -/
def distinct : Json → Json
  | .null => .null
  | .bool value => .bool value
  | .integer value => .integer value
  | .real value => .real value
  | .string text => .string text
  | .array items => .array (distinctItems items)
  | .object fields => .object (distinctFields fields)

def distinctItems : List Json → List Json
  | [] => []
  | item :: rest => distinct item :: distinctItems rest

def distinctFields : List (String × Json) → List (String × Json)
  | [] => []
  | (name, value) :: rest =>
    if rest.any (·.1 == name) then distinctFields rest
    else (name, distinct value) :: distinctFields rest

end

def escapeChar (c : Char) : List Char :=
  if c = '"' then ['\\', '"']
  else if c = '\\' then ['\\', '\\']
  else if c = '\n' then ['\\', 'n']
  else if c = '\r' then ['\\', 'r']
  else if c = '\t' then ['\\', 't']
  else if c = '\x08' then ['\\', 'b']
  else if c = '\x0c' then ['\\', 'f']
  else if c.toNat < 0x20 then ['\\', 'u', '0', '0'] ++ Hex.encodeByte (UInt8.ofNat c.toNat)
  else [c]

def quote (text : String) : String :=
  String.ofList ('"' :: text.toList.flatMap escapeChar ++ ['"'])

mutual

/-- The value on one line, without blanks. -/
def compact : Json → String
  | .null => "null"
  | .bool value => if value then "true" else "false"
  | .integer value => toString value
  | .real value => value.text
  | .string text => quote text
  | .array items => "[" ++ ",".intercalate (compactItems items) ++ "]"
  | .object fields => "\x7b" ++ ",".intercalate (compactFields fields) ++ "\x7d"

def compactItems : List Json → List String
  | [] => []
  | item :: rest => compact item :: compactItems rest

def compactFields : List (String × Json) → List String
  | [] => []
  | (name, value) :: rest => (quote name ++ ":" ++ compact value) :: compactFields rest

end

def indent (depth : Nat) : String :=
  String.ofList (List.replicate (2 * depth) ' ')

/-- Lines between brackets, one deeper than the brackets themselves. -/
def bracketed (depth : Nat) (opening closing : String) (lines : List String) : String :=
  match lines with
  | [] => opening ++ closing
  | lines =>
    opening ++ "\n" ++ ",\n".intercalate (lines.map (indent (depth + 1) ++ ·)) ++ "\n" ++
      indent depth ++ closing

mutual

/-- The value on lines of their own for each item and field, indented by two blanks a level. -/
def prettyAt (depth : Nat) : Json → String
  | .array items => bracketed depth "[" "]" (prettyItems (depth + 1) items)
  | .object fields => bracketed depth "\x7b" "\x7d" (prettyFields (depth + 1) fields)
  | .null => "null"
  | .bool value => if value then "true" else "false"
  | .integer value => toString value
  | .real value => value.text
  | .string text => quote text

def prettyItems (depth : Nat) : List Json → List String
  | [] => []
  | item :: rest => prettyAt depth item :: prettyItems depth rest

def prettyFields (depth : Nat) : List (String × Json) → List String
  | [] => []
  | (name, value) :: rest =>
    (quote name ++ ": " ++ prettyAt depth value) :: prettyFields depth rest

end

def pretty (value : Json) : String := prettyAt 0 value

def isBlank (c : Char) : Bool := c == ' ' || c == '\n' || c == '\t' || c == '\r'

def skipBlanks (input : List Char) : List Char := input.dropWhile isBlank

def hexFour? : List Char → Option (Nat × List Char)
  | a :: b :: c :: d :: rest => do
    let a ← Hex.charValue? a
    let b ← Hex.charValue? b
    let c ← Hex.charValue? c
    let d ← Hex.charValue? d
    pure (((a * 16 + b) * 16 + c) * 16 + d, rest)
  | _ => none

/-- Two escapes may write one character above U+FFFF; half of such a pair is refused. -/
def unicodeEscape? (input : List Char) : Option (Char × List Char) :=
  match hexFour? input with
  | none => none
  | some (n, rest) =>
    if 0xDC00 ≤ n ∧ n < 0xE000 then none
    else if 0xD800 ≤ n ∧ n < 0xDC00 then
      match rest with
      | '\\' :: 'u' :: low =>
        match hexFour? low with
        | some (m, rest) =>
          if 0xDC00 ≤ m ∧ m < 0xE000 then
            some (Char.ofNat (0x10000 + (n - 0xD800) * 0x400 + (m - 0xDC00)), rest)
          else none
        | none => none
      | _ => none
    else some (Char.ofNat n, rest)

def simpleEscape? (c : Char) : Option Char :=
  match c with
  | '"' => some '"'
  | '\\' => some '\\'
  | '/' => some '/'
  | 'b' => some '\x08'
  | 'f' => some '\x0c'
  | 'n' => some '\n'
  | 'r' => some '\r'
  | 't' => some '\t'
  | _ => none

/-- The rest of a string after its opening quote; `read` is reversed. -/
def readString : Nat → List Char → List Char → Option (String × List Char)
  | 0, _, _ => none
  | fuel + 1, read, input =>
    match input with
    | [] => none
    | '"' :: rest => some (String.ofList read.reverse, rest)
    | '\\' :: 'u' :: rest =>
      match unicodeEscape? rest with
      | some (c, rest) => readString fuel (c :: read) rest
      | none => none
    | '\\' :: e :: rest =>
      match simpleEscape? e with
      | some c => readString fuel (c :: read) rest
      | none => none
    | c :: rest => if c.toNat < 0x20 then none else readString fuel (c :: read) rest

/-- An integer of 64 bits, signed or not; `-0` is none. -/
def integer? (negative : Bool) (digits : List Char) : Option Int :=
  let n := Decimal.digitsValue digits
  if negative then (if 0 < n ∧ n ≤ Decimal.signedBound then some (-(n : Int)) else none)
  else if n < UInt64.size then some n else none

/-- The digits that are taken into a number below `2 ^ 64`, and those after them. -/
def takeDigits : Nat → List Char → Nat × List Char
  | n, [] => (n, [])
  | n, c :: rest =>
    let next := n * 10 + (c.toNat - 48)
    if next < UInt64.size then takeDigits next rest else (n, c :: rest)

/-- The greatest power of ten by which a value is scaled at once. -/
def scaleLimit : Nat := 308

/-- Scales a value in at most that many steps; none if it becomes infinite. -/
def scaleUpTo? : Nat → Binary64 → Int → Option Binary64
  | 0, x, _ => some x
  | steps + 1, x, power =>
    if power.natAbs ≤ scaleLimit then
      match x.scale power with
      | .infinite _ => none
      | y => some y
    else if x.isZero then some x
    else if 0 ≤ power then none
    else scaleUpTo? steps (x.scale (-scaleLimit)) (power + scaleLimit)

/-- The value of digits with places after the point. Only so many digits count as make a number below
`2 ^ 64`. Three steps scale every such number to zero. -/
def real? (negative : Bool) (whole places : List Char) (exponent : Int) : Option Json :=
  let (n, left) := takeDigits 0 whole
  let (n, ignored) := takeDigits n places
  let power : Int := exponent + left.length - (places.length - ignored.length : Nat)
  (scaleUpTo? 3 (.ofRatio negative n 1) power).map .real

/-- The exponent after `e`: an optional sign and at least one digit. -/
def readExponent (input : List Char) : Option (Int × List Char) :=
  let (negative, input) := match input with
    | '-' :: rest => (true, rest)
    | '+' :: rest => (false, rest)
    | rest => (false, rest)
  let digits := input.takeWhile Char.isDigit
  if digits.isEmpty then none
  else some (if negative then -(Decimal.digitsValue digits : Int) else Decimal.digitsValue digits,
    input.dropWhile Char.isDigit)

/-- A number after its sign. Digits do not start with a zero that others follow. -/
def readNumber (negative : Bool) (input : List Char) : Option (Json × List Char) :=
  let whole := input.takeWhile Char.isDigit
  let rest := input.dropWhile Char.isDigit
  if whole.isEmpty ∨ (whole.head? = some '0' ∧ 1 < whole.length) then none
  else
    let withExponent (places : List Char) (rest : List Char) : Option (Json × List Char) :=
      match rest with
      | c :: after =>
        if c = 'e' ∨ c = 'E' then
          (readExponent after).bind fun (e, rest) => (real? negative whole places e).map (·, rest)
        else (real? negative whole places 0).map (·, rest)
      | [] => (real? negative whole places 0).map (·, rest)
    match rest with
    | '.' :: after =>
      let places := after.takeWhile Char.isDigit
      if places.isEmpty then none else withExponent places (after.dropWhile Char.isDigit)
    | c :: _ =>
      if c = 'e' ∨ c = 'E' then withExponent [] rest
      else match integer? negative whole with
        | some n => some (.integer n, rest)
        | none => withExponent [] rest
    | [] => match integer? negative whole with
      | some n => some (.integer n, rest)
      | none => withExponent [] rest

/-- The rest of the input after a word it must start with. -/
def afterWord? : List Char → List Char → Option (List Char)
  | [], input => some input
  | c :: word, d :: input => if c = d then afterWord? word input else none
  | _ :: _, [] => none

mutual

/-- One value; arrays and objects nest at most `depth` deep. -/
def readValue : Nat → Nat → List Char → Option (Json × List Char)
  | 0, _, _ => none
  | fuel + 1, depth, input =>
    match skipBlanks input with
    | 'n' :: rest => (afterWord? "ull".toList rest).map (Json.null, ·)
    | 't' :: rest => (afterWord? "rue".toList rest).map (Json.bool true, ·)
    | 'f' :: rest => (afterWord? "alse".toList rest).map (Json.bool false, ·)
    | '"' :: rest => (readString (rest.length + 1) [] rest).map fun (s, rest) => (.string s, rest)
    | '[' :: rest =>
      match depth with
      | 0 | 1 => none
      | depth + 1 =>
        match skipBlanks rest with
        | ']' :: rest => some (.array [], rest)
        | rest => readItems fuel depth [] rest
    | '\x7b' :: rest =>
      match depth with
      | 0 | 1 => none
      | depth + 1 =>
        match skipBlanks rest with
        | '\x7d' :: rest => some (.object [], rest)
        | rest => readFields fuel depth [] rest
    | '-' :: rest => readNumber true rest
    | rest => readNumber false rest

/-- The items of an array up to its end; `read` is reversed. -/
def readItems : Nat → Nat → List Json → List Char → Option (Json × List Char)
  | 0, _, _, _ => none
  | fuel + 1, depth, read, input =>
    match readValue fuel depth input with
    | none => none
    | some (item, rest) =>
      match skipBlanks rest with
      | ',' :: rest => readItems fuel depth (item :: read) rest
      | ']' :: rest => some (.array (item :: read).reverse, rest)
      | _ => none

/-- The fields of an object up to its end; `read` is reversed. -/
def readFields : Nat → Nat → List (String × Json) → List Char → Option (Json × List Char)
  | 0, _, _, _ => none
  | fuel + 1, depth, read, input =>
    match skipBlanks input with
    | '"' :: rest =>
      match readString (rest.length + 1) [] rest with
      | none => none
      | some (name, rest) =>
        match skipBlanks rest with
        | ':' :: rest =>
          match readValue fuel depth rest with
          | none => none
          | some (value, rest) =>
            match skipBlanks rest with
            | ',' :: rest => readFields fuel depth ((name, value) :: read) rest
            | '\x7d' :: rest => some (.object ((name, value) :: read).reverse, rest)
            | _ => none
        | _ => none
    | _ => none

end

/-- A text that holds one value and nothing else. Every call consumes a character or hands down to
one that does, so twice the length is fuel enough. -/
def parse? (text : String) : Option Json :=
  let input := text.toList
  match readValue (2 * input.length + 2) 128 input with
  | some (value, rest) => if (skipBlanks rest).isEmpty then some value else none
  | none => none

end Json
end MerkleDir
