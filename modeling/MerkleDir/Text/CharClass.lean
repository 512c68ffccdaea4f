namespace MerkleDir

inductive CharClass where
  | nothing
  | range (low high : Char)
  | complement (a : CharClass)
  | union (a b : CharClass)
  | intersection (a b : CharClass)
  | difference (a b : CharClass)
  | symmetricDifference (a b : CharClass)
  | caseless (a : CharClass)
  deriving DecidableEq, Repr

namespace CharClass

/-- The other case of an ASCII letter; any other character is its own. -/
def otherCase (c : Char) : Char := if c.isUpper then c.toLower else c.toUpper

def contains : CharClass → Char → Bool
  | nothing, _ => false
  | range low high, c => low ≤ c && c ≤ high
  | complement a, c => !a.contains c
  | union a b, c => a.contains c || b.contains c
  | intersection a b, c => a.contains c && b.contains c
  | difference a b, c => a.contains c && !b.contains c
  | symmetricDifference a b, c => a.contains c != b.contains c
  | caseless a, c => a.contains c || a.contains (otherCase c)

def single (c : Char) : CharClass := .range c c

def ofRanges (ranges : List (Char × Char)) : CharClass :=
  ranges.foldr (fun r rest => .union (.range r.1 r.2) rest) .nothing

def join (classes : List CharClass) : CharClass := classes.foldr .union .nothing

def everything : CharClass := .complement .nothing

def digits : CharClass := ofRanges [('0', '9')]

def spaces : CharClass := ofRanges [('\t', '\r'), (' ', ' ')]

def wordChars : CharClass := ofRanges [('0', '9'), ('A', 'Z'), ('_', '_'), ('a', 'z')]

def named : List (String × CharClass) :=
  [("alnum", ofRanges [('0', '9'), ('A', 'Z'), ('a', 'z')]),
    ("alpha", ofRanges [('A', 'Z'), ('a', 'z')]),
    ("ascii", ofRanges [('\x00', '\x7f')]),
    ("blank", ofRanges [('\t', '\t'), (' ', ' ')]),
    ("cntrl", ofRanges [('\x00', '\x1f'), ('\x7f', '\x7f')]),
    ("digit", digits),
    ("graph", ofRanges [('!', '~')]),
    ("lower", ofRanges [('a', 'z')]),
    ("print", ofRanges [(' ', '~')]),
    ("punct", ofRanges [('!', '/'), (':', '@'), ('[', '\x60'), ('\x7b', '~')]),
    ("space", spaces),
    ("upper", ofRanges [('A', 'Z')]),
    ("word", wordChars),
    ("xdigit", ofRanges [('0', '9'), ('A', 'F'), ('a', 'f')])]

end CharClass
end MerkleDir
