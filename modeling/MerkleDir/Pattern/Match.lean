import MerkleDir.Pattern.Basic

/-!
# Matching

Of all matches in a text the one that starts first counts, and of those that start there the preferred
one. All ways to match are followed at once, in order of preference. A way that has come to its end
stops all that come after it, and also any later start.
-/
namespace MerkleDir

/-- A place in a text, between two characters or at an end of the text. -/
structure Place where
  before : Option Char
  after : Option Char

namespace Place

def isWordChar (c : Option Char) : Bool := c.any CharClass.wordChars.contains

def isAtWordEdge (place : Place) : WordEdge → Bool
  | .any => isWordChar place.before != isWordChar place.after
  | .none => isWordChar place.before == isWordChar place.after
  | .start => !isWordChar place.before && isWordChar place.after
  | .stop => isWordChar place.before && !isWordChar place.after

/-- Words are those of ASCII. -/
def satisfies (place : Place) : Assertion → Bool
  | .textStart => place.before.isNone
  | .textEnd => place.after.isNone
  | .lineStart false => place.before.all (· == '\n')
  | .lineStart true =>
    place.before.all fun c => c == '\n' || (c == '\r' && place.after != some '\n')
  | .lineEnd false => place.after.all (· == '\n')
  | .lineEnd true =>
    place.after.all fun c => c == '\r' || (c == '\n' && place.before != some '\r')
  | .word edge _ => place.isAtWordEdge edge

/-- What is certain already before the character after the place is known. -/
def surelySatisfies (before : Option Char) : Assertion → Bool
  | .textStart => before.isNone
  | .lineStart _ => before.all (· == '\n')
  | _ => false

end Place

namespace Pattern

/-- What is left of a pattern on one way to match, part by part. -/
abbrev Rest := List Pattern

def Rest.size (rest : Rest) : Nat := rest.foldr (fun part size => part.size + size) 1

/-- The ways that go on with a character, wait at an assertion or have come to an end, in order of
preference. What has been met before is not followed again, so a round of a repetition that matches
nothing does not start another. -/
def followUpTo (satisfied : Assertion → Bool) : Nat → List Rest → List Rest → List Rest
  | 0, _, _ => []
  | _, _, [] => []
  | fuel + 1, met, rest :: others =>
    if met.contains rest then followUpTo satisfied fuel met others
    else
      let met := rest :: met
      match rest with
      | [] => rest :: followUpTo satisfied fuel met others
      | .one _ :: _ => rest :: followUpTo satisfied fuel met others
      | .assertion a :: after =>
        if satisfied a then followUpTo satisfied fuel met (after :: others)
        else rest :: followUpTo satisfied fuel met others
      | .empty :: after => followUpTo satisfied fuel met (after :: others)
      | .concat p q :: after => followUpTo satisfied fuel met ((p :: q :: after) :: others)
      | .either p q :: after =>
        followUpTo satisfied fuel met ((p :: after) :: (q :: after) :: others)
      | .again greedy p :: after =>
        followUpTo satisfied fuel met <|
          if greedy then (p :: rest) :: after :: others else after :: (p :: rest) :: others

/-- Every part of a rest is met once and adds at most two ways. -/
def follow (satisfied : Assertion → Bool) (rests : List Rest) : List Rest :=
  followUpTo satisfied (rests.foldr (fun rest fuel => 3 * rest.size + fuel) 1) [] rests

/-- What is left after a character. -/
def advance? (c : Char) : Rest → Option Rest
  | .one chars :: rest => if chars.contains c then some rest else none
  | _ => none

/-- The ways that are followed, and whether a match may still start at a later place. -/
structure Search where
  ways : List Rest
  startsLater : Bool

namespace Search

/-- The ways with all that is known of a place. -/
def waysAt (search : Search) (place : Place) : List Rest :=
  follow place.satisfies search.ways

def start (pattern : Pattern) : Search :=
  ⟨follow (Place.surelySatisfies none) [[pattern]], true⟩

/-- Whether the empty text matches inside a character of several bytes. -/
def matchesInside (pattern : Pattern) (c : Char) : Bool :=
  1 < c.utf8Size &&
    (follow (Place.satisfies ⟨some c, some c⟩)
      (follow (Place.surelySatisfies (some c)) [[pattern]])).contains []

/-- Takes the character `c` that follows the character `before`. -/
def step (pattern : Pattern) (search : Search) (before : Option Char) (c : Char) : Search :=
  let ways := search.waysAt ⟨before, some c⟩
  let advanced := (ways.takeWhile (· ≠ [])).filterMap (advance? c)
  let startsLater := search.startsLater && !ways.contains [] && !matchesInside pattern c
  ⟨follow (Place.surelySatisfies (some c)) (advanced ++ if startsLater then [[pattern]] else []),
    startsLater⟩

/-- Whether a way comes to its end where the text ends. -/
def reachesEnd (pattern : Pattern) : Search → Option Char → List Char → Bool
  | search, before, [] => (search.waysAt ⟨before, none⟩).contains []
  | search, before, c :: rest => reachesEnd pattern (search.step pattern before c) (some c) rest

end Search

/-- Whether the match that counts ends where the text ends. -/
def matchesToEnd (pattern : Pattern) (text : String) : Bool :=
  (Search.start pattern).reachesEnd pattern none text.toList

end Pattern
end MerkleDir
