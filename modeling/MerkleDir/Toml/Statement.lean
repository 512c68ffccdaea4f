import MerkleDir.Toml.Quotation

/-!
# Statements of TOML

Each statement ends its line. Blanks, blank lines and comments may stand between statements and
between the items of an array.
-/
namespace MerkleDir.Toml

/-- Dotted keys have at most this many parts, and values are nested at most this deep. -/
def depthLimit : Nat := 79

/-- What follows blanks, line ends and comments; none if a comment holds a control character. -/
def skipTrivia : Bool → List Char → Option (List Char)
  | _, [] => some []
  | false, c :: rest =>
    if isBlank c ∨ c = '\n' then skipTrivia false rest
    else if c = '\r' ∧ rest.head? = some '\n' then skipTrivia false rest
    else if c = '#' then skipTrivia true rest
    else some (c :: rest)
  | true, c :: rest =>
    if c = '\n' then skipTrivia false rest
    else if c = '\r' ∧ rest.head? = some '\n' then skipTrivia true rest
    else if isControl c then none
    else skipTrivia true rest

/-- Whether nothing but blanks and a comment follows on the line. -/
def endsLine (input : List Char) : Bool :=
  match skipBlanks input with
  | [] => true
  | '\n' :: _ => true
  | '\r' :: '\n' :: _ => true
  | '#' :: _ => true
  | _ => false

def bareKey? (input : List Char) : Option (String × List Char) :=
  let key := input.takeWhile isBareKeyChar
  if key = [] then none else some (String.ofList key, input.dropWhile isBareKeyChar)

def key? (input : List Char) : Option (String × List Char) :=
  match quotedKey? input with
  | some found => some found
  | none => bareKey? input

/-- A dotted key of at most `limit` parts, with the blanks around them. -/
def keyPath? : Nat → List Char → Option (KeyPath × List Char)
  | 0, _ => none
  | limit + 1, input =>
    (key? (skipBlanks input)).bind fun (key, rest) =>
      match skipBlanks rest with
      | '.' :: rest => (keyPath? limit rest).map fun (keys, rest) => (key :: keys, rest)
      | rest => some ([key], rest)

/-- How values are read, at some depth. -/
abbrev TermReader := List Char → Option (Term × List Char)

def assignment? (value : TermReader) (input : List Char) : Option ((KeyPath × Term) × List Char) :=
  (keyPath? depthLimit input).bind fun (path, rest) =>
    match rest with
    | '=' :: rest => (value (skipBlanks rest)).map fun (term, rest) => ((path, term), rest)
    | _ => none

/-- The assignments of a table up to its closing brace, at most `limit`; there is at least one. -/
def assignments? (value : TermReader) :
    Nat → List Char → Option (List (KeyPath × Term) × List Char)
  | 0, _ => none
  | limit + 1, input =>
    (assignment? value input).bind fun (first, rest) =>
      match skipBlanks rest with
      | ',' :: rest => (assignments? value limit rest).map fun (others, rest) => (first :: others, rest)
      | '\x7d' :: rest => some ([first], rest)
      | _ => none

def inlineTable? (value : TermReader) (input : List Char) : Option (Term × List Char) :=
  match skipBlanks input with
  | '\x7d' :: rest => some (.table [], rest)
  | _ => (assignments? value input.length input).map fun (all, rest) => (.table all, rest)

/-- The items of an array up to its closing bracket, at most `limit`; a comma may stand after the
last. -/
def arrayItems? (value : TermReader) : Nat → List Char → Option (List Term × List Char)
  | 0, _ => none
  | limit + 1, input =>
    match skipTrivia false input with
    | some (']' :: rest) => some ([], rest)
    | some rest =>
      (value rest).bind fun (first, rest) =>
        match skipTrivia false rest with
        | some (',' :: rest) =>
          (arrayItems? value limit rest).map fun (others, rest) => (first :: others, rest)
        | some (']' :: rest) => some ([first], rest)
        | _ => none
    | none => none

/-- One value, with at most `depth` arrays and tables around any part of it. -/
def term? : Nat → TermReader
  | depth, input =>
    match input with
    | [] => none
    | c :: rest =>
      if Quotation.isMark c then (string? input).map fun (text, rest) => (.string text, rest)
      else if c = '[' then
        match depth with
        | 0 => none
        | depth + 1 =>
          (arrayItems? (term? depth) (rest.length + 1) rest).map fun (items, rest) =>
            (.array items, rest)
      else if c = '\x7b' then
        match depth with
        | 0 => none
        | depth + 1 => inlineTable? (term? depth) rest
      else scalar? input

def afterMark? (c : Char) (input : List Char) : Option (List Char) :=
  match input with
  | d :: rest => if d = c then some rest else none
  | [] => none

def Statement.read? (input : List Char) : Option (Statement × List Char) :=
  match input with
  | '[' :: '[' :: rest => do
    let (path, rest) ← keyPath? depthLimit rest
    let rest ← afterMark? ']' rest
    let rest ← afterMark? ']' rest
    pure (.element path, rest)
  | '[' :: rest => do
    let (path, rest) ← keyPath? depthLimit rest
    let rest ← afterMark? ']' rest
    pure (.table path, rest)
  | _ => (assignment? (term? depthLimit) input).map fun ((path, term), rest) =>
      (.assignment path term, rest)

/-- The statements of a text, at most `limit`. -/
def statementsUpTo? : Nat → List Char → Option (List Statement)
  | 0, _ => none
  | limit + 1, input =>
    match skipTrivia false input with
    | none => none
    | some [] => some []
    | some rest =>
      (Statement.read? rest).bind fun (first, rest) =>
        if endsLine rest then (statementsUpTo? limit rest).map (first :: ·) else none

/-- A byte order mark may stand at the start. -/
def dropByteOrderMark : List Char → List Char
  | '\uFEFF' :: rest => rest
  | input => input

def statements? (text : String) : Option (List Statement) :=
  let input := dropByteOrderMark text.toList
  statementsUpTo? (input.length + 1) input

end MerkleDir.Toml
