import MerkleDir.Toml.Scalar

namespace MerkleDir.Toml

structure Quotation where
  mark : Char
  triple : Bool
  deriving DecidableEq, Repr

namespace Quotation

def hasEscapes (q : Quotation) : Bool := q.mark == '"'

/-- A line feed, or a carriage return that one follows, right after the opening marks is no part of
the string. -/
def dropFirstLineEnd : List Char → List Char
  | '\n' :: rest => rest
  | '\r' :: '\n' :: rest => rest
  | input => input

def isMark (c : Char) : Bool := c == '"' || c == '\''

/-- The quotation that the input opens, and what follows its opening marks. -/
def open? : List Char → Option (Quotation × List Char)
  | a :: b :: c :: rest =>
    if !isMark a then none
    else if b = a ∧ c = a then some (⟨a, true⟩, dropFirstLineEnd rest)
    else some (⟨a, false⟩, b :: c :: rest)
  | a :: rest => if isMark a then some (⟨a, false⟩, rest) else none
  | [] => none

/-- What follows the closing marks, of which the first has been read. Up to two marks before the
closing three belong to the string. -/
def close? (q : Quotation) (rest : List Char) : Option (List Char × List Char) :=
  if q.triple then
    match rest with
    | b :: c :: rest =>
      if b = q.mark ∧ c = q.mark then
        let inner := (rest.take 2).takeWhile (· = q.mark)
        some (inner, rest.drop inner.length)
      else none
    | _ => none
  else some ([], rest)

/-- The blanks and line ends that the input starts with, counted. -/
def blankLength : List Char → Nat
  | ' ' :: rest => blankLength rest + 1
  | '\t' :: rest => blankLength rest + 1
  | '\n' :: rest => blankLength rest + 1
  | '\r' :: '\n' :: rest => blankLength rest + 2
  | _ => 0

def startsWithLineEnd : List Char → Bool
  | '\n' :: _ => true
  | '\r' :: '\n' :: _ => true
  | _ => false

/-- The character with the code that exactly `width` hexadecimal digits write. -/
def code? (width : Nat) (rest : List Char) : Option Char :=
  let digits := rest.take width
  let n := Scalar.valueOf 16 digits
  if digits.length = width ∧ digits.all (Scalar.isDigitOf 16) ∧ n.isValidChar then
    some (Char.ofNat n)
  else none

def simpleEscape? (c : Char) : Option Char :=
  match c with
  | 'b' => some '\x08'
  | 't' => some '\t'
  | 'n' => some '\n'
  | 'f' => some '\x0c'
  | 'r' => some '\r'
  | '"' => some '"'
  | '\\' => some '\\'
  | _ => none

/-- What the characters after a backslash stand for, and how many they are. At the end of a line, the
blanks and line ends that follow stand for nothing. -/
def escape? (q : Quotation) (rest : List Char) : Option (List Char × Nat) :=
  match rest with
  | [] => none
  | c :: after =>
    if c = 'u' then (code? 4 after).map fun e => ([e], 5)
    else if c = 'U' then (code? 8 after).map fun e => ([e], 9)
    else match simpleEscape? c with
      | some e => some ([e], 1)
      | none =>
        if q.triple && startsWithLineEnd (skipBlanks rest) then some ([], blankLength rest)
        else none

/-- The content up to the closing marks, and what follows them; the first `skip` characters have been
dealt with. -/
def body? (q : Quotation) : Nat → List Char → Option (List Char × List Char)
  | _, [] => none
  | skip + 1, _ :: rest => q.body? skip rest
  | 0, c :: rest =>
    if c = q.mark then
      match q.close? rest with
      | some closed => some closed
      | none => (q.body? 0 rest).map fun (content, after) => (c :: content, after)
    else if c = '\\' ∧ q.hasEscapes then
      match q.escape? rest with
      | some (content, used) =>
        (q.body? used rest).map fun (more, after) => (content ++ more, after)
      | none => none
    else if c = '\r' ∧ rest.head? = some '\n' ∧ q.triple then q.body? 0 rest
    else if isControl c ∨ (c = '\n' ∧ ¬ q.triple) then none
    else (q.body? 0 rest).map fun (content, after) => (c :: content, after)

end Quotation

/-- The string that the input starts with. -/
def string? (input : List Char) : Option (String × List Char) :=
  (Quotation.open? input).bind fun (q, rest) =>
    (q.body? 0 rest).map fun (content, after) => (String.ofList content, after)

/-- A key that is quoted stands on one line. -/
def quotedKey? (input : List Char) : Option (String × List Char) :=
  match input with
  | mark :: rest =>
    if Quotation.isMark mark then
      (Quotation.body? ⟨mark, false⟩ 0 rest).map fun (content, after) =>
        (String.ofList content, after)
    else none
  | [] => none

end MerkleDir.Toml
