import MerkleDir.Pattern.Bracket
import MerkleDir.Pattern.Match
import MerkleDir.Text.Alphanumeric

/-!
# Reading patterns

A pattern is written as alternatives, each a row of characters, classes, assertions, groups and
repetitions of these. A number of repetitions cannot be given.
-/
namespace MerkleDir.Pattern

/-- What is wrong with the text of a pattern. -/
inductive Fault where
  | malformed
  | unicodeWords
  deriving DecidableEq, Repr

def Fault.message : Fault → String
  | .malformed => "error building NFA"
  | .unicodeWords =>
    "unsupported regex feature for DFAs: cannot build DFAs for regexes with Unicode word " ++
      "boundaries; switch to ASCII word boundaries, or heuristically enable Unicode word " ++
      "boundaries or use a different regex engine"

namespace Reader

/-- Patterns are nested at most this deep. -/
def depthLimit : Nat := 250

/-- A pattern that has been read, how deep its parts are nested, and whether it may be repeated; a change
of flags may not. -/
structure Part where
  pattern : Pattern
  depth : Nat
  repeatable : Bool

def depthOf (parts : List Part) : Nat :=
  match parts with
  | [] => 0
  | [part] => part.depth
  | parts => (parts.map (·.depth)).foldl max 0 + 1

/-- Parts in a row; they stand in reverse order. -/
def row (parts : List Part) : Part :=
  ⟨concatAll (parts.reverse.map (·.pattern)), depthOf parts, true⟩

/-- Alternatives; they stand in reverse order. -/
def alternatives (parts : List Part) : Part :=
  ⟨eitherAll (parts.reverse.map (·.pattern)), depthOf parts, true⟩

def character? (flags : Flags) (c : Char) : Option Pattern :=
  if flags.foldsUnicode then none else some (.one (flags.fold (.single c)))

def point? (flags : Flags) : Option Pattern :=
  if !flags.unicode then none
  else if flags.dotAll then some (.one .everything)
  else if flags.crlf then some (.one (.complement (.ofRanges [('\n', '\n'), ('\r', '\r')])))
  else some (.one (.complement (.single '\n')))

def lineStart (flags : Flags) : Pattern :=
  .assertion (if flags.multiline then .lineStart flags.crlf else .textStart)

def lineEnd (flags : Flags) : Pattern :=
  .assertion (if flags.multiline then .lineEnd flags.crlf else .textEnd)

def primitive? (flags : Flags) : Primitive → Option Pattern
  | .character c => character? flags c
  | .chars chars => some (.one chars)
  | .assertion a => some (.assertion a)

/-- A point, an assertion, an escape or a character. -/
def simple? (flags : Flags) (c : Char) (rest : List Char) : Option (Pattern × List Char) :=
  if c = '\\' then
    (Escape.read? flags rest).bind fun (found, rest) => (primitive? flags found).map (·, rest)
  else if c = '.' then (point? flags).map (·, rest)
  else if c = '^' then some (lineStart flags, rest)
  else if c = '$' then some (lineEnd flags, rest)
  else (character? flags c).map (·, rest)

def repetition? (c : Char) : Option (Bool → Pattern → Pattern) :=
  match c with
  | '?' => some optional
  | '*' => some zeroOrMore
  | '+' => some oneOrMore
  | _ => none

/-- A question mark right after a repetition makes it reluctant. -/
def reluctance (input : List Char) : Bool × List Char :=
  match input with
  | '?' :: rest => (true, rest)
  | _ => (false, input)

def startsName (c : Char) : Bool := c == '_' || Alphanumeric.isLetter c

def continuesName (c : Char) : Bool :=
  c == '_' || c == '.' || c == '[' || c == ']' || Alphanumeric.contains c

def isName : List Char → Bool
  | [] => false
  | c :: rest => startsName c && rest.all continuesName

/-- A name up to its closing mark; no name is given twice. -/
def groupName? (names : List (List Char)) (input : List Char) : Option (List Char × List Char) :=
  let name := input.takeWhile (· ≠ '>')
  match input.dropWhile (· ≠ '>') with
  | _ :: rest => if isName name ∧ name ∉ names then some (name, rest) else none
  | [] => none

/-- What an opening bracket begins: a group, or only flags for the rest of the group around it. -/
inductive Opening where
  | flags (flags : Flags)
  | group (flags : Flags) (names : List (List Char))

def opening? (flags : Flags) (names : List (List Char)) (input : List Char) :
    Option (Opening × List Char) :=
  let named (rest : List Char) : Option (Opening × List Char) :=
    (groupName? names rest).map fun (name, rest) => (.group flags (name :: names), rest)
  match flags.skip input with
  | '?' :: 'P' :: '<' :: rest => named rest
  | '?' :: '<' :: rest => named rest
  | '?' :: rest =>
    (flags.read? true [] rest).map fun (set, stop, rest) =>
      (if stop = ')' then .flags set else .group set names, rest)
  | rest => some (.group flags names, rest)

/-- What has been read of a group: the alternatives before the current one and the parts of it, both in
reverse order. -/
structure Group where
  flags : Flags
  alternatives : List Part
  parts : List Part

namespace Group

def start (flags : Flags) : Group := ⟨flags, [], []⟩

def add (group : Group) (part : Part) : Group := { group with parts := part :: group.parts }

def nextAlternative (group : Group) : Group :=
  { group with alternatives := row group.parts :: group.alternatives, parts := [] }

def whole (group : Group) : Part := Reader.alternatives (row group.parts :: group.alternatives)

/-- Repeats the last part. -/
def repeat? (group : Group) (make : Pattern → Pattern) : Option Group :=
  match group.parts with
  | part :: others =>
    if part.repeatable then
      some { group with parts := ⟨make part.pattern, part.depth + 1, true⟩ :: others }
    else none
  | [] => none

end Group

/-- Reads a group up to its closing bracket or the end of the text. -/
def groupUpTo? : Nat → List (List Char) → Group → List Char →
    Option (Part × List (List Char) × List Char)
  | 0, _, _, _ => none
  | fuel + 1, names, group, input =>
    match group.flags.skip input with
    | [] => some (group.whole, names, [])
    | c :: rest =>
      if c = ')' then some (group.whole, names, c :: rest)
      else if c = '|' then groupUpTo? fuel names group.nextAlternative rest
      else if c = '\x7b' then none
      else if c = '(' then
        match opening? group.flags names rest with
        | none => none
        | some (.flags set, rest) =>
          groupUpTo? fuel names ({ group with flags := set }.add ⟨.empty, 0, false⟩) rest
        | some (.group inner names, rest) =>
          match groupUpTo? fuel names (.start inner) rest with
          | some (part, names, ')' :: rest) =>
            groupUpTo? fuel names (group.add ⟨part.pattern, part.depth + 1, true⟩) rest
          | _ => none
      else if c = '[' then
        (Bracket.read? group.flags rest).bind fun (part, rest) =>
          groupUpTo? fuel names (group.add ⟨.one part.chars, part.depth, true⟩) rest
      else
        match repetition? c with
        | some make =>
          let (isReluctant, rest) := reluctance rest
          (group.repeat? (make (isReluctant == group.flags.lazy))).bind fun group =>
            groupUpTo? fuel names group rest
        | none =>
          (simple? group.flags c rest).bind fun (pattern, rest) =>
            groupUpTo? fuel names (group.add ⟨pattern, 0, true⟩) rest

end Reader

/-- The pattern that a text writes. Every step takes a character, so the length is fuel enough. -/
def parse (text : String) : Except Fault Pattern :=
  let input := text.toList
  match Reader.groupUpTo? (input.length + 1) [] (.start .initial) input with
  | some (part, _, []) =>
    if Reader.depthLimit < part.depth then .error .malformed
    else if part.pattern.asksUnicodeWords then .error .unicodeWords
    else .ok part.pattern
  | _ => .error .malformed

end MerkleDir.Pattern
