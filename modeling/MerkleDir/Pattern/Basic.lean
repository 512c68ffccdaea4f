import MerkleDir.Text.CharClass

/-!
# Patterns

A pattern describes stretches of text, and prefers some of them to others: an earlier alternative to a
later one, and more repetitions to fewer if it is greedy.
-/
namespace MerkleDir

/-- What is asked of a place about the words beside it. -/
inductive WordEdge where
  | any
  | none
  | start
  | stop
  deriving DecidableEq, Repr

/-- What a pattern may ask of a place. Lines end with a line feed; if `crlf` is set, with a carriage
return or a line feed, but not between the two. -/
inductive Assertion where
  | textStart
  | textEnd
  | lineStart (crlf : Bool)
  | lineEnd (crlf : Bool)
  | word (edge : WordEdge) (unicode : Bool)
  deriving DecidableEq, Repr

/-- `again` stands for any number of rounds of its body; where a round has led back to it without a
character it is not followed a second time. -/
inductive Pattern where
  | empty
  | one (chars : CharClass)
  | assertion (asked : Assertion)
  | concat (first second : Pattern)
  | either (preferred other : Pattern)
  | again (greedy : Bool) (body : Pattern)
  deriving DecidableEq, Repr

namespace Pattern

def optional (greedy : Bool) (body : Pattern) : Pattern :=
  if greedy then .either body .empty else .either .empty body

def oneOrMore (greedy : Bool) (body : Pattern) : Pattern := .concat body (.again greedy body)

/-- Whether no match is empty. -/
def takesCharacters : Pattern → Bool
  | one _ => true
  | concat p q => p.takesCharacters || q.takesCharacters
  | either p q => p.takesCharacters && q.takesCharacters
  | _ => false

/-- A body that can match nothing is tried once before the choice whether to go on. -/
def zeroOrMore (greedy : Bool) (body : Pattern) : Pattern :=
  if body.takesCharacters then .again greedy body else optional greedy (oneOrMore greedy body)

def concatAll : List Pattern → Pattern
  | [] => .empty
  | [p] => p
  | p :: rest => .concat p (concatAll rest)

/-- The alternatives in order of preference; none at all is the empty pattern. -/
def eitherAll : List Pattern → Pattern
  | [] => .empty
  | [p] => p
  | p :: rest => .either p (eitherAll rest)

/-- The number of parts. -/
def size : Pattern → Nat
  | empty => 1
  | one _ => 1
  | assertion _ => 1
  | concat p q => p.size + q.size + 1
  | either p q => p.size + q.size + 1
  | again _ p => p.size + 1

/-- Whether a place is asked about words of other letters than those of ASCII. -/
def asksUnicodeWords : Pattern → Bool
  | assertion (.word _ unicode) => unicode
  | concat p q => p.asksUnicodeWords || q.asksUnicodeWords
  | either p q => p.asksUnicodeWords || q.asksUnicodeWords
  | again _ p => p.asksUnicodeWords
  | _ => false

end Pattern
end MerkleDir
