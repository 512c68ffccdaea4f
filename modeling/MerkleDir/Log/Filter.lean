import MerkleDir.Log.Directive

/-!
# Filters

A filter is a set of directives. Of the directives without spans the most specific one that selects
an event decides; beside them, a span that a directive selects lets through what happens inside it.
-/
namespace MerkleDir.Log

/-- The directives without spans and those with spans, in the order in which they were given. -/
structure Filter where
  statics : List Directive
  dynamics : List Directive
  deriving DecidableEq, Repr

namespace Filter

def off : Filter := ⟨[.ofLevel 0], []⟩

/-- A filter always has a directive. One that selects by the names of fields counts as both kinds. -/
def ofDirectives (fallback : Threshold) (directives : List Directive) : Filter :=
  if directives.isEmpty then ⟨[.ofLevel fallback], []⟩
  else ⟨directives.filter (·.isStatic), directives.filter (·.isDynamic)⟩

def texts (text : String) : List String :=
  (Directive.pieces ',' text).filter (· ≠ "")

/-- A directive that cannot be read, and why. -/
structure Ignored where
  text : String
  error : DirectiveError
  deriving DecidableEq, Repr

def Ignored.line (i : Ignored) : String := "ignoring `" ++ i.text ++ "`: " ++ i.error.message

/-- Reads what can be read. -/
def parseLenient (text : String) : Filter × List Ignored :=
  let read := (texts text).map fun t => (t, Directive.parse t)
  (ofDirectives Threshold.error (read.filterMap fun r => r.2.toOption),
    read.filterMap fun r => match r.2 with
      | .ok _ => none
      | .error e => some ⟨r.1, e⟩)

/-- Reads all or nothing. -/
def parse (text : String) : Except DirectiveError Filter := do
  pure (ofDirectives 0 (← (texts text).mapM Directive.parse))

/-- Adds a directive as one kind only. -/
def add (filter : Filter) (directive : Directive) : Filter :=
  if directive.isStatic then { filter with statics := filter.statics ++ [directive] }
  else { filter with dynamics := filter.dynamics ++ [directive] }

def compareLists (a b : List String) : Ordering :=
  match a, b with
  | [], [] => .eq
  | [], _ :: _ => .lt
  | _ :: _, [] => .gt
  | x :: xs, y :: ys => if x < y then .lt else if y < x then .gt else compareLists xs ys

def compareTargets (a b : Option String) : Ordering :=
  match a, b with
  | none, none => .eq
  | none, some _ => .lt
  | some _, none => .gt
  | some x, some y => if x < y then .lt else if y < x then .gt else .eq

/-- No target counts less than any. -/
def targetSize (d : Directive) : Nat := (d.target.map (·.utf8ByteSize + 1)).getD 0

/-- Longer targets are more specific, then more fields; the rest only makes the order total. -/
def specificity (a b : Directive) : Ordering :=
  (compareOfLessAndEq (targetSize a) (targetSize b)).then <|
    (compareOfLessAndEq a.fields.length b.fields.length).then <|
      (compareTargets a.target b.target).then
        (compareLists (a.fields.map (·.name)) (b.fields.map (·.name)))

def selectsTarget (d : Directive) (target : String) : Bool :=
  d.target.all (target.startsWith ·)

/-- The more specific of two directives; of two equally specific ones the later. -/
def moreSpecific (best : Option Directive) (d : Directive) : Option Directive :=
  match best with
  | none => some d
  | some b => if specificity d b == .lt then some b else some d

def decisive (filter : Filter) (selects : Directive → Bool) : Option Directive :=
  (filter.statics.filter selects).foldl moreSpecific none

def passesStatic (filter : Filter) (level : Level) (selects : Directive → Bool) : Bool :=
  (filter.decisive selects).any fun d => level.passes d.level

def fieldNames (event : Event) : List String :=
  "message" :: event.fields.map (·.name)

def selectsEvent (event : Event) (d : Directive) : Bool :=
  selectsTarget d event.target && d.fields.all fun f => (fieldNames event).contains f.name

/-- Whether a directive may apply to a span, whatever its values are. -/
def caresAbout (span : Span) (d : Directive) : Bool :=
  selectsTarget d span.target && d.span.all (· == span.name) &&
    d.fields.all fun f => span.fields.any (·.name == f.name)

def matchesValue : Expected → FieldValue → Bool
  | .natural expected, .number n => expected == n
  | .flag expected, .flag b => expected == b
  | .pattern _ pattern, .text s => pattern.matchesToEnd s
  | .pattern _ pattern, .shown s => pattern.matchesToEnd s
  | _, _ => false

/-- Of the values that are expected of one field the last counts. -/
def expected? (d : Directive) (name : String) : Option Expected :=
  (d.fields.filter (·.name == name)).reverse.findSome? (·.value)

def matchesField (d : Directive) (field : Field) : Bool :=
  (expected? d field.name).all (matchesValue · field.value)

def selectsSame (a b : Directive) : Bool :=
  a.target == b.target && a.span == b.span && a.fields == b.fields

/-- A directive takes the place of an earlier one that selects the same. -/
def latest : List Directive → List Directive
  | [] => []
  | d :: rest => if rest.any (selectsSame d) then latest rest else d :: latest rest

/-- The level that a span opens. -/
def spanThreshold (filter : Filter) (span : Span) : Threshold :=
  ((latest filter.dynamics).filter fun d => caresAbout span d && span.fields.all (matchesField d)).foldl
    (fun n d => max n d.level) 0

def passesSpans (filter : Filter) (level : Level) (spans : List Span) : Bool :=
  spans.any fun s => level.passes (filter.spanThreshold s)

/-- The greatest rank that may be let through at all. The values of fields are not known beforehand. -/
def ceiling (filter : Filter) : Threshold :=
  if filter.dynamics.any (·.fields.any (·.value.isSome)) then Threshold.trace
  else (filter.statics ++ filter.dynamics).foldl (fun n d => max n d.level) 0

/-- Whether a span is made inside those that were made before it. -/
def makesSpan (filter : Filter) (made : List Span) (span : Span) : Bool :=
  Span.level.passes filter.ceiling &&
    (filter.dynamics.any (caresAbout span) || filter.passesSpans Span.level made ||
      filter.passesStatic Span.level (selectsTarget · span.target))

/-- The spans of an event that the filter makes; one that it does not make opens nothing. -/
def visibleSpans (filter : Filter) : List Span → List Span → List Span
  | made, [] => made
  | made, span :: rest =>
    if filter.makesSpan made span then filter.visibleSpans (made ++ [span]) rest
    else filter.visibleSpans made rest

/-- The event as the filter lets it through. -/
def pass? (filter : Filter) (event : Event) : Option Event :=
  let spans := filter.visibleSpans [] event.spans
  if filter.passesStatic event.level (selectsEvent event) || filter.passesSpans event.level spans then
    some { event with spans }
  else none

end Filter
end MerkleDir.Log
