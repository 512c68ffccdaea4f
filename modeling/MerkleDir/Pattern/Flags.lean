import MerkleDir.Pattern.Basic
import MerkleDir.Text.Blank

namespace MerkleDir.Pattern

/-- `spaced` texts hold blanks and comments, `lazy` ones swap greedy and reluctant repetition. -/
structure Flags where
  caseless : Bool
  multiline : Bool
  dotAll : Bool
  lazy : Bool
  unicode : Bool
  crlf : Bool
  spaced : Bool
  deriving DecidableEq, Repr

namespace Flags

def initial : Flags := ⟨false, false, false, false, true, false, false⟩

def set? (flags : Flags) (letter : Char) (on : Bool) : Option Flags :=
  match letter with
  | 'i' => some { flags with caseless := on }
  | 'm' => some { flags with multiline := on }
  | 's' => some { flags with dotAll := on }
  | 'U' => some { flags with lazy := on }
  | 'u' => some { flags with unicode := on }
  | 'R' => some { flags with crlf := on }
  | 'x' => some { flags with spaced := on }
  | _ => none

/-- Reads letters up to a colon or a closing bracket, which is given too. A hyphen turns off what
follows it. Nothing stands twice, a hyphen not at the end, and before a bracket there is a letter. -/
def read? (flags : Flags) (on : Bool) (read : List Char) :
    List Char → Option (Flags × Char × List Char)
  | [] => none
  | c :: rest =>
    if c = ':' ∨ c = ')' then
      if read.head? = some '-' ∨ (c = ')' ∧ read = []) then none else some (flags, c, rest)
    else if c ∈ read then none
    else if c = '-' then flags.read? false (c :: read) rest
    else (flags.set? c on).bind fun flags => flags.read? on (c :: read) rest

/-- What follows blanks and comments; a comment goes on to the end of its line. -/
def skipSpaced : Bool → List Char → List Char
  | _, [] => []
  | true, c :: rest => skipSpaced (c != '\n') rest
  | false, c :: rest =>
    if isBlank c then skipSpaced false rest
    else if c = '#' then skipSpaced true rest
    else c :: rest

def skip (flags : Flags) (input : List Char) : List Char :=
  if flags.spaced then skipSpaced false input else input

def afterBlanks (input : List Char) : List Char :=
  match input.dropWhile isBlank with
  | '#' :: rest => rest.dropWhile isBlank
  | rest => rest

/-- The character that is looked at ahead: the first that is neither a blank nor the sign that opens a
comment, or just the first if there is no such character. -/
def peek? (flags : Flags) (input : List Char) : Option Char :=
  if flags.spaced then ((afterBlanks input).head?).or input.head? else input.head?

/-- Classes are closed under case only among ASCII letters. -/
def fold (flags : Flags) (chars : CharClass) : CharClass :=
  if flags.caseless then .caseless chars else chars

/-- Case among all letters is not known. -/
def foldsUnicode (flags : Flags) : Bool := flags.caseless && flags.unicode

end Flags
end MerkleDir.Pattern
