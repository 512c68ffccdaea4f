import MerkleDir.Decimal.Notation
import MerkleDir.Log.Event
import MerkleDir.Pattern.Reader
import MerkleDir.Text.Alphanumeric
import MerkleDir.Text.Blank
import MerkleDir.Text.Utf8

/-!
# Filter directives

A directive gives a level to what it selects: a target by its beginning, a span by its name and
fields, or both. It is written `target[span{field=value}]=level`, and each part may be missing.
-/
namespace MerkleDir.Log

/-- The greatest rank that is let through; 0 lets nothing through. -/
abbrev Threshold := Nat

def Level.passes (level : Level) (threshold : Threshold) : Bool := level.rank ≤ threshold

namespace Threshold

def trace : Threshold := 5

def error : Threshold := 1

def words : List (String × Threshold) :=
  [("", 1), ("error", 1), ("warn", 2), ("info", 3), ("debug", 4), ("trace", 5), ("off", 0)]

/-- A number of at most 5, with or without a plus sign, or a word in any case. -/
def parse? (text : String) : Option Threshold :=
  let digits := match text.toList with
    | '+' :: rest => rest
    | cs => cs
  match Decimal.natural? digits with
  | some n => if n ≤ 5 then some n else none
  | none => List.lookup (text.map Char.toLower) words

end Threshold

inductive DirectiveError where
  | malformed
  | level
  | pattern (fault : Pattern.Fault)
  deriving DecidableEq, Repr

def DirectiveError.message : DirectiveError → String
  | .malformed => "invalid filter directive"
  | .pattern fault => "invalid field filter: " ++ fault.message
  | .level =>
    "error parsing level filter: expected one of \"off\", \"error\", \"warn\", \"info\", " ++
      "\"debug\", \"trace\", or a number 0-5"

/-- What the value of a field has to be. A pattern is for texts only, and a number with a minus sign
for numbers that may have one. -/
inductive Expected where
  | flag (value : Bool)
  | natural (value : Nat)
  | signed (value : Int)
  | real (value : Binary64)
  | pattern (text : String) (pattern : Pattern)
  deriving DecidableEq, Repr

namespace Expected

/-- A number of 64 bits that only a plus sign may precede. -/
def natural? (text : List Char) : Option Nat :=
  (if Decimal.isNegative text then none else Decimal.natural? (Decimal.unsigned text)).filter
    (· < UInt64.size)

def signed? (text : List Char) : Option Int :=
  (Decimal.integer? text).filter fun n =>
    -Decimal.signedBound ≤ n ∧ n < Decimal.signedBound

/-- The first reading that fits: a truth value, a number without and one with a sign, a real number, a
pattern. -/
def ofText (text : String) : Except DirectiveError Expected :=
  let cs := text.toList
  if text = "true" then .ok (.flag true)
  else if text = "false" then .ok (.flag false)
  else match natural? cs, signed? cs, Decimal.real? cs with
    | some n, _, _ => .ok (.natural n)
    | none, some n, _ => .ok (.signed n)
    | none, none, some x => .ok (.real x)
    | none, none, none =>
      match Pattern.parse text with
      | .ok found => .ok (.pattern text found)
      | .error fault => .error (.pattern fault)

end Expected

/-- A field that a span has to have, with or without a value. -/
structure FieldMatch where
  name : String
  value : Option Expected
  deriving DecidableEq, Repr

structure Directive where
  level : Threshold
  target : Option String
  span : Option String
  fields : List FieldMatch
  deriving DecidableEq, Repr

namespace Directive

/-- A level for everything. -/
def ofLevel (level : Threshold) : Directive := ⟨level, none, none, []⟩

def splitOn (mark : Char) (text : List Char) : List (List Char) :=
  match text with
  | [] => [[]]
  | c :: rest =>
    if c = mark then [] :: splitOn mark rest
    else match splitOn mark rest with
      | first :: others => (c :: first) :: others
      | [] => [[c]]

/-- The pieces of a text between the occurrences of a mark. -/
def pieces (mark : Char) (text : String) : List String :=
  (splitOn mark text.toList).map String.ofList

/-- What stands after a second equals sign is dropped. -/
def fieldMatch (text : String) : Except DirectiveError FieldMatch :=
  match pieces '=' text with
  | name :: value :: _ => (Expected.ofText value).map fun expected => ⟨name, some expected⟩
  | _ => .ok ⟨text, none⟩

/-- Where the reading of a directive is; numbers are offsets of what is being read. -/
inductive State where
  | start
  | levelOrTarget (start : Nat)
  | span (start : Nat)
  | field (start : Nat)
  | fields
  | target
  | level (start : Nat)
  | complete

/-- A word that is no level is a target, and everything of it is let through. -/
def levelOrTarget (d : Directive) (text : String) : Directive :=
  if text = "" then { d with level := Threshold.trace, target := none }
  else match Threshold.parse? text with
    | some level => { d with level, target := none }
    | none => { d with level := Threshold.trace, target := some text }

def withLevel (d : Directive) (text : String) : Except DirectiveError Directive :=
  if text = "" then .ok { d with level := Threshold.trace }
  else match Threshold.parse? text with
    | some level => .ok { d with level }
    | none => .error .level

def withField (d : Directive) (text : String) : Except DirectiveError Directive :=
  if text = "" then .error .malformed
  else (fieldMatch text).map fun field => { d with fields := d.fields ++ [field] }

/-- The bytes of a text between two offsets. -/
def slice (source : Bytes) (start stop : Nat) : String :=
  Utf8.display ((source.take stop).drop start)

def startsName (c : Char) : Bool :=
  c == '-' || c == ':' || c == '_' || Alphanumeric.contains c

/-- Takes the character `c` at offset `i`. -/
def step (source : Bytes) (state : State) (d : Directive) (i : Nat) (c : Char) :
    Except DirectiveError (State × Directive) :=
  match state with
  | .start =>
    if c = '[' then .ok (.span (i + 1), d)
    else if startsName c then .ok (.levelOrTarget i, d)
    else .error .malformed
  | .levelOrTarget start =>
    if c = '=' then .ok (.level (i + 1), { d with target := some (slice source start i) })
    else if c = '[' then .ok (.span (i + 1), { d with target := some (slice source start i) })
    else if c = ',' then .ok (.complete, levelOrTarget d (slice source start source.length))
    else .ok (state, d)
  | .target => if c = '=' then .ok (.level (i + 1), d) else .error .malformed
  | .span start =>
    if c = ']' then .ok (.target, { d with span := some (slice source start i) })
    else if c = '\x7b' then
      let name := slice source start i
      .ok (.field (i + 1), { d with span := if name = "" then none else some name })
    else .ok (state, d)
  | .field start =>
    if c = '\x7d' then (withField d (slice source start i)).map (.fields, ·)
    else if c = ',' then (withField d (slice source start i)).map (.field (i + 1), ·)
    else .ok (state, d)
  | .fields => if c = ']' then .ok (.target, d) else .error .malformed
  | .level start =>
    if c = ',' then (withLevel d (slice source start i)).map (.complete, ·) else .ok (state, d)
  | .complete => .error .malformed

def readFrom (source : Bytes) : State → Directive → Nat → List Char → Except DirectiveError Directive
  | state, d, i, c :: rest =>
    match step source state d i c with
    | .ok (next, d) => readFrom source next d (i + c.utf8Size) rest
    | .error e => .error e
  | .levelOrTarget start, d, _, [] => .ok (levelOrTarget d (slice source start source.length))
  | .level start, d, _, [] => withLevel d (slice source start source.length)
  | .target, d, _, [] => .ok d
  | .complete, d, _, [] => .ok d
  | _, _, _, [] => .error .malformed

/-- Blanks around a directive are skipped, but offsets count from where the skipping ended as if
nothing had been skipped. -/
def parse (text : String) : Except DirectiveError Directive :=
  readFrom (Utf8.encode text) .start ⟨Threshold.trace, none, none, []⟩ 0 (trim text).toList

/-- A directive that selects spans, by name or by fields. -/
def isDynamic (d : Directive) : Bool := d.span.isSome || !d.fields.isEmpty

/-- A directive that selects by target and the names of fields only. -/
def isStatic (d : Directive) : Bool := d.span.isNone && d.fields.all (·.value.isNone)

end Directive
end MerkleDir.Log
