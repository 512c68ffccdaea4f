import MerkleDir.Decimal.Notation
import MerkleDir.Json
import MerkleDir.Text.LowerCase

/-!
# Layers of settings

Settings are laid over settings: tables field by field, and anything else as a whole. Keys are in lower
case. A key at the top may be a path to a field or an item further down.
-/
namespace MerkleDir.Config.Layer

def fields : Json → List (String × Json)
  | .object fields => fields
  | _ => []

def items : Json → List Json
  | .array items => items
  | _ => []

/-- Puts a value in the place of the one with its key, or at the end. -/
def put (key : String) (value : Json) : List (String × Json) → List (String × Json)
  | [] => [(key, value)]
  | (other, old) :: rest =>
    if other = key then (key, value) :: rest else (other, old) :: put key value rest

def get? (key : String) (base : Json) : Option Json := List.lookup key (fields base)

mutual

/-- Lays a value over a field of `base`, which becomes a table if it is none. -/
def assign (key : String) (base : Json) : Json → Json
  | .object incoming =>
    .object (put key (overlay ((get? key base).getD (.object [])) incoming) (fields base))
  | .null => .object (put key .null (fields base))
  | .bool b => .object (put key (.bool b) (fields base))
  | .integer n => .object (put key (.integer n) (fields base))
  | .real x => .object (put key (.real x) (fields base))
  | .string s => .object (put key (.string s) (fields base))
  | .array values => .object (put key (.array values) (fields base))

/-- Lays fields over `base`, one after the other. -/
def overlay (base : Json) : List (String × Json) → Json
  | [] => base
  | (key, value) :: rest => overlay (assign (lowerCase key) base value) rest

end

inductive Step where
  | field (name : String)
  | item (index : Int)
  deriving DecidableEq, Repr

def isNameChar (c : Char) : Bool :=
  c.isAlphanum || c == ' ' || c == '_' || c == '-'

def name? (input : List Char) : Option (Step × List Char) :=
  let name := input.takeWhile isNameChar
  if name = [] then none else some (.field (String.ofList name), input.dropWhile isNameChar)

def isGap (c : Char) : Bool := c == ' ' || c == '\t'

/-- An integer of 64 bits that only a minus sign may precede. -/
def index? (text : List Char) : Option Int :=
  if text.head? = some '+' then none
  else (Decimal.integer? text).filter fun n =>
    -Decimal.signedBound ≤ n ∧ n < Decimal.signedBound

/-- An index up to its closing bracket, with gaps around it. -/
def item? (input : List Char) : Option (Step × List Char) :=
  match input.dropWhile (· ≠ ']') with
  | _ :: rest =>
    let inner := (input.takeWhile (· ≠ ']')).dropWhile isGap
    (index? ((inner.reverse.dropWhile isGap).reverse)).map (.item ·, rest)
  | [] => none

/-- The steps after the first, at most `limit`. -/
def steps? : Nat → List Char → Option (List Step)
  | _, [] => some []
  | 0, _ => none
  | limit + 1, '.' :: rest =>
    (name? rest).bind fun (step, rest) => (steps? limit rest).map (step :: ·)
  | limit + 1, '[' :: rest =>
    (item? rest).bind fun (step, rest) => (steps? limit rest).map (step :: ·)
  | _, _ => none

/-- The steps of a key that is a path: names parted by points, and indices in brackets. -/
def path? (key : String) : Option (List Step) :=
  (name? key.toList).bind fun (step, rest) => (steps? rest.length rest).map (step :: ·)

/-- A negative index counts from the end. -/
def position (index : Int) (size : Nat) : Nat :=
  if 0 ≤ index then index.toNat else size - index.natAbs

/-- Puts a value at a position; items missing before it are null. -/
def putItem (position : Nat) (value : Json) (values : List Json) : List Json :=
  (values ++ List.replicate (position + 1 - values.length) Json.null).set position value

def assignPath (value : Json) : List Step → Json → Json
  | [], _ => value
  | [.field name], base => assign name base value
  | .field name :: rest, base =>
    .object (put name (assignPath value rest ((get? name base).getD Json.null)) (fields base))
  | .item index :: rest, base =>
    let values := items base
    let place := position index values.length
    .array (putItem place (assignPath value rest (values[place]?.getD Json.null)) values)

/-- A key that is no path is the name of a field. -/
def assignTop (base : Json) (field : String × Json) : Json :=
  let key := lowerCase field.1
  match path? key with
  | some steps => assignPath field.2 steps base
  | none => assign key base field.2

/-- Lays a source over what the sources before it have set. -/
def addSource (base : Json) (source : Json) : Json :=
  (fields source).foldl assignTop base

end MerkleDir.Config.Layer
