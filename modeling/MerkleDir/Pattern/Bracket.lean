import MerkleDir.Pattern.Escape

/-!
# Classes in brackets

A class lists characters, ranges, named classes and further brackets. Its parts may be intersected,
subtracted and compared, from left to right, and all of it negated.
-/
namespace MerkleDir.Pattern.Bracket

/-- A class that has been read, and how deep its parts are nested. -/
structure Part where
  chars : CharClass
  depth : Nat
  deriving DecidableEq, Repr

inductive Operation where
  | intersection
  | difference
  | symmetricDifference
  deriving DecidableEq, Repr

namespace Operation

def apply : Operation → CharClass → CharClass → CharClass
  | intersection => .intersection
  | difference => .difference
  | symmetricDifference => .symmetricDifference

def read? : List Char → Option (Operation × List Char)
  | '&' :: '&' :: rest => some (.intersection, rest)
  | '-' :: '-' :: rest => some (.difference, rest)
  | '~' :: '~' :: rest => some (.symmetricDifference, rest)
  | _ => none

end Operation

/-- Listed characters; without Unicode these are the ASCII ones. -/
def listed? (flags : Flags) (low high : Char) : Option CharClass :=
  if flags.foldsUnicode then none
  else if low ≤ high ∧ (flags.unicode ∨ high.toNat < 128) then some (.range low high)
  else none

/-- Without Unicode no class holds characters above ASCII. -/
def negate? (flags : Flags) (negated : Bool) (chars : CharClass) : Option CharClass :=
  if !negated then some chars
  else if flags.unicode then some (.complement chars)
  else none

def primitive? (flags : Flags) (input : List Char) : Option (Primitive × List Char) :=
  match input with
  | [] => none
  | '\\' :: rest => Escape.read? flags rest
  | c :: rest => some (.character c, rest)

def member? (flags : Flags) : Primitive → Option CharClass
  | .character c => listed? flags c c
  | .chars chars => some chars
  | .assertion _ => none

/-- A character or class, or a range of characters. A hyphen before a closing bracket or before another
hyphen makes no range. -/
def item? (flags : Flags) (input : List Char) : Option (CharClass × List Char) :=
  (primitive? flags input).bind fun (first, rest) =>
    let rest := flags.skip rest
    match rest with
    | '-' :: after =>
      if flags.peek? after = some ']' ∨ flags.peek? after = some '-' then
        (member? flags first).map (·, rest)
      else
        (primitive? flags (flags.skip after)).bind fun (last, rest) =>
          match first, last with
          | .character low, .character high => (listed? flags low high).map (·, rest)
          | _, _ => none
    | _ => (member? flags first).map (·, rest)

/-- A negation mark that the input may start with. -/
def mark (input : List Char) : Bool × List Char :=
  match input with
  | '^' :: rest => (true, rest)
  | _ => (false, input)

/-- A named class, whether it is negated, and what follows it; the opening bracket has been read. -/
def named? (input : List Char) : Option (CharClass × Bool × List Char) :=
  match input with
  | ':' :: rest =>
    let (negated, rest) := mark rest
    match rest.dropWhile (· ≠ ':') with
    | ':' :: ']' :: after =>
      (List.lookup (String.ofList (rest.takeWhile (· ≠ ':'))) CharClass.named).map (·, negated, after)
    | _ => none
  | _ => none

def namedPart? (flags : Flags) (chars : CharClass) (negated : Bool) : Option Part :=
  if flags.foldsUnicode then none
  else (negate? flags negated (flags.fold chars)).map (⟨·, 0⟩)

def join (parts : List Part) : Part :=
  ⟨CharClass.join (parts.map (·.chars)), match parts with
    | [] => 0
    | [part] => part.depth
    | parts => (parts.map (·.depth)).foldl max 0 + 1⟩

/-- The parts of a class, which are the right side of an operation if there is one. -/
def combine (flags : Flags) (pending : Option (Part × Operation)) (parts : List Part) : Part :=
  let right := join parts
  match pending with
  | none => right
  | some (left, operation) =>
    ⟨operation.apply (flags.fold left.chars) (flags.fold right.chars), max left.depth right.depth + 1⟩

def close? (flags : Flags) (negated : Bool) (part : Part) : Option Part :=
  (negate? flags negated (flags.fold part.chars)).map (⟨·, part.depth + 1⟩)

/-- Reads up to the closing bracket. Hyphens at the beginning stand for themselves, and so does a
bracket that closes nothing yet. -/
def partsUpTo? (flags : Flags) :
    Nat → Bool → Option (Part × Operation) → List Part → List Char → Option (Part × List Char)
  | 0, _, _, _, _ => none
  | fuel + 1, isFirst, pending, parts, input =>
    match flags.skip input with
    | [] => none
    | c :: rest =>
      if isFirst ∧ (c = '-' ∨ (c = ']' ∧ parts = [])) then
        (listed? flags c c).bind fun chars =>
          partsUpTo? flags fuel (c == '-') pending (⟨chars, 0⟩ :: parts) rest
      else if c = ']' then some (combine flags pending parts, rest)
      else if c = '[' then
        match named? rest with
        | some (chars, negated, rest) =>
          (namedPart? flags chars negated).bind fun part =>
            partsUpTo? flags fuel false pending (part :: parts) rest
        | none =>
          let (negated, rest) := mark (flags.skip rest)
          (partsUpTo? flags fuel true none [] rest).bind fun (inner, rest) =>
            (close? flags negated inner).bind fun part =>
              partsUpTo? flags fuel false pending (part :: parts) rest
      else
        match Operation.read? (c :: rest) with
        | some (operation, rest) =>
          partsUpTo? flags fuel false (some (combine flags pending parts, operation)) [] rest
        | none =>
          (item? flags (c :: rest)).bind fun (chars, rest) =>
            partsUpTo? flags fuel false pending (⟨chars, 0⟩ :: parts) rest

/-- The class after an opening bracket. Every part takes a character, so the length is fuel enough. -/
def read? (flags : Flags) (input : List Char) : Option (Part × List Char) :=
  let (negated, rest) := mark (flags.skip input)
  (partsUpTo? flags (rest.length + 1) true none [] rest).bind fun (inner, rest) =>
    (close? flags negated inner).map (·, rest)

end MerkleDir.Pattern.Bracket
