import MerkleDir.Config.Basic
import MerkleDir.Json

/-!
# Configurations as values

A value becomes a configuration field by field: fields stand by name in an object, or by position in
an array. Missing fields have their defaults and unknown ones are ignored. How a single value is taken
is a choice of its own.
-/
namespace MerkleDir.Config

/-- The fields of a section. -/
inductive Record where
  | named (fields : List (String × Json))
  | positional (items : List Json)

/-- The field `name`, which is at `position` if the fields stand in an array. -/
def Record.get? (record : Record) (name : String) (position : Nat) : Option Json :=
  match record with
  | .named fields => Json.field? name (.object fields)
  | .positional items => items[position]?

/-- A field that is missing has its default; one that is there has to be of its type. -/
def Record.read {α : Type} (record : Record) (name : String) (position : Nat) (default : α)
    (decode : Json → Option α) : Option α :=
  match record.get? name position with
  | none => some default
  | some value => decode value

/-- How values are taken; a section is asked for with the number of its fields. -/
structure Reading where
  record? : Nat → Json → Option Record
  bool? : Json → Option Bool
  nat? : Json → Option Nat
  text? : Json → Option String
  word? : Json → Option String

namespace Reading

def path? (r : Reading) (value : Json) : Option Path := (r.text? value).map Path.ofText

def symlinks? (r : Reading) (value : Json) : Option SymlinkPolicy :=
  (r.word? value).bind SymlinkPolicy.ofText?

def leafOrder? (r : Reading) (value : Json) : Option LeafOrder :=
  (r.word? value).bind LeafOrder.ofText?

def entry? (r : Reading) (field : String × Json) : Option (String × String) :=
  (r.text? field.2).map (field.1, ·)

def insertSorted (entry : String × String) : List (String × String) → List (String × String)
  | [] => [entry]
  | other :: rest =>
    if entry.1 < other.1 then entry :: other :: rest
    else if entry.1 = other.1 then entry :: rest
    else other :: insertSorted entry rest

/-- Modules are sorted by name; of two with one name the later counts. -/
def modules? (r : Reading) : Json → Option (List (String × String))
  | .object fields => do
    let entries ← fields.mapM r.entry?
    pure (entries.foldl (fun sorted e => insertSorted e sorted) [])
  | _ => none

def snapshot? (r : Reading) (value : Json) : Option SnapshotOptions := do
  let record ← r.record? 3 value
  let d := SnapshotOptions.default
  let symlinks ← record.read "symlinks" 0 d.symlinks r.symlinks?
  let leafOrder ← record.read "leaf_order" 1 d.leafOrder r.leafOrder?
  let maxLinkDepth ← record.read "max_symlink_depth" 2 d.maxLinkDepth r.nat?
  pure { symlinks, leafOrder, maxLinkDepth }

def debounce? (r : Reading) (value : Json) : Option Nat := do
  let record ← r.record? 1 value
  record.read "debounce_ms" 0 Config.defaultDebounce r.nat?

def logging? (r : Reading) (value : Json) : Option LoggingConfig := do
  let record ← r.record? 7 value
  let d := LoggingConfig.default
  let enabled ← record.read "enabled" 0 d.enabled r.bool?
  let level ← record.read "level" 1 d.level r.text?
  let format ← record.read "format" 2 d.format r.text?
  let output ← record.read "output" 3 d.output r.text?
  let file ← record.read "file" 4 d.file r.path?
  let color ← record.read "color" 5 d.color r.bool?
  let modules ← record.read "modules" 6 d.modules r.modules?
  pure { enabled, level, format, output, file, color, modules }

def config? (r : Reading) (value : Json) : Option Config := do
  let record ← r.record? 3 value
  let snapshot ← record.read "snapshot" 0 .default r.snapshot?
  let debounce ← record.read "watch" 1 Config.defaultDebounce r.debounce?
  let logging ← record.read "logging" 2 .default r.logging?
  pure { snapshot, debounce, logging }

end Reading
end MerkleDir.Config
