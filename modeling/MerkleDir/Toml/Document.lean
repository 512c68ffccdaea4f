import MerkleDir.Json
import MerkleDir.Toml.Statement

/-!
# The value of a TOML document

Statements build a table. A key is given a value once; a header may extend what other headers imply,
and a dotted key what other dotted keys of the same table have made. A date or a time is the string that
writes it in full, and a table may hold one too.
-/
namespace MerkleDir.Toml

/-- How a table came to be: by its own header, by the header of a table below it, or by a dotted
key. -/
inductive Origin where
  | header
  | implied
  | dotted
  deriving DecidableEq, Repr

inductive Item where
  | value (value : Json)
  | time (value : DateTime)
  | table (origin : Origin) (entries : List (String × Item))
  | elements (tables : List (List (String × Item)))

abbrev Entries := List (String × Item)

namespace Entries

def get? (entries : Entries) (key : String) : Option Item := List.lookup key entries

/-- Puts an item in the place of the one with its key, or at the end. -/
def put (key : String) (item : Item) : Entries → Entries
  | [] => [(key, item)]
  | (other, old) :: rest =>
    if other = key then (key, item) :: rest else (other, old) :: put key item rest

/-- Puts an item at the end, wherever the one with its key has been. -/
def putLast (key : String) (item : Item) (entries : Entries) : Entries :=
  entries.filter (·.1 ≠ key) ++ [(key, item)]

/-- Changes the last of several tables. -/
def changeLast (change : Entries → Option Entries) : List Entries → Option (List Entries)
  | [] => none
  | [last] => (change last).map ([·])
  | first :: rest => (changeLast change rest).map (first :: ·)

/-- Assigns a value to a dotted key. A table takes a value directly only if `isOpen`, that is, if a
dotted key has made it or it is the one that is being written. -/
def assign? (value : Item) : KeyPath → Bool → Entries → Option Entries
  | [], _, _ => none
  | [key], isOpen, entries =>
    if isOpen && (entries.get? key).isNone then some (entries.put key value) else none
  | key :: keys, _, entries =>
    match entries.get? key with
    | none => (assign? value keys true []).map fun t => entries.put key (.table .dotted t)
    | some (.table .dotted t) =>
      (assign? value keys true t).map fun t => entries.put key (.table .dotted t)
    | some (.table .implied t) =>
      (assign? value keys false t).map fun t => entries.put key (.table .implied t)
    | some (.table .header _) => none
    | some (.elements ts) =>
      (changeLast (assign? value keys false) ts).map fun ts => entries.put key (.elements ts)
    | some _ => none

/-- Changes the entries around the end of a header's path. Tables on the way are made if need be, and of
several tables the last is meant. -/
def changeAt? (change : String → Entries → Option Entries) : KeyPath → Entries → Option Entries
  | [], _ => none
  | [key], entries => change key entries
  | key :: keys, entries =>
    match entries.get? key with
    | none => (changeAt? change keys []).map fun t => entries.put key (.table .implied t)
    | some (.table origin t) =>
      (changeAt? change keys t).map fun t => entries.put key (.table origin t)
    | some (.elements ts) =>
      (changeLast (changeAt? change keys) ts).map fun ts => entries.put key (.elements ts)
    | some _ => none

end Entries

/-- The key under which a table holds a date or a time. -/
def timeKey : String := "$__toml_private_datetime"

/-- What a table holds in the place of a time: its first entry, whatever the others are. -/
def held? : Entries → Option Item
  | [] => none
  | (key, item) :: _ => if key = timeKey then some item else none

/-- A time is held as a string. -/
def Item.heldTime? : Item → Option DateTime
  | .value (.string text) => DateTime.read? .quoted text.toList
  | _ => none

def timeJson (t : DateTime) : Json := .string t.text

/-- The value of a table with these fields. -/
def tableJson? (entries : Entries) (fields : Option (List (String × Json))) : Option Json :=
  match held? entries with
  | some item => item.heldTime?.map timeJson
  | none => fields.map .object

mutual

def Item.json? : Item → Option Json
  | .value v => some v
  | .time t => some (timeJson t)
  | .table _ entries => tableJson? entries (fieldsJson? entries)
  | .elements tables => (tablesJson? tables).map .array

def fieldsJson? : List (String × Item) → Option (List (String × Json))
  | [] => some []
  | (key, item) :: rest => do
    let value ← item.json?
    let others ← fieldsJson? rest
    pure ((key, value) :: others)

def tablesJson? : List (List (String × Item)) → Option (List Json)
  | [] => some []
  | entries :: rest => do
    let value ← tableJson? entries (fieldsJson? entries)
    let others ← tablesJson? rest
    pure (value :: others)

end

/-- All assignments of one table. -/
def assignAll? : List (KeyPath × Item) → Entries → Option Entries
  | [], entries => some entries
  | (path, value) :: rest, entries => (Entries.assign? value path true entries).bind (assignAll? rest)

/-- A table in braces: nothing is added to it later. -/
def closedTable? (entries : Entries) : Option Item :=
  match held? entries with
  | some item => item.heldTime?.map .time
  | none => (fieldsJson? entries).map fun fields => .value (.object fields)

mutual

/-- What a term stands for; the assignments of a table in braces have to agree. -/
def Term.item? : Term → Option Item
  | .bool b => some (.value (.bool b))
  | .integer n => some (.value (.integer n))
  | .real x => some (.value (.real x))
  | .string s => some (.value (.string s))
  | .time t => some (.time t)
  | .array items => (itemsJson? items).map fun items => .value (.array items)
  | .table assignments =>
    ((assignmentItems? assignments).bind (assignAll? · [])).bind closedTable?

def itemsJson? : List Term → Option (List Json)
  | [] => some []
  | term :: rest => do
    let item ← term.item?
    let first ← item.json?
    let others ← itemsJson? rest
    pure (first :: others)

def assignmentItems? : List (KeyPath × Term) → Option (List (KeyPath × Item))
  | [] => some []
  | (path, term) :: rest => do
    let first ← term.item?
    let others ← assignmentItems? rest
    pure ((path, first) :: others)

end

/-- A table's own header is written once, and never for what a dotted key has made. It puts the table
after the tables that stand there already. -/
def startTable (key : String) (entries : Entries) : Option Entries :=
  match entries.get? key with
  | none => some (entries.putLast key (.table .header []))
  | some (.table .implied t) => some (entries.putLast key (.table .header t))
  | some _ => none

def addElement (key : String) (entries : Entries) : Option Entries :=
  match entries.get? key with
  | none => some (entries.put key (.elements [[]]))
  | some (.elements tables) => some (entries.put key (.elements (tables ++ [[]])))
  | some _ => none

/-- Assigns in the table that a header has opened. -/
def assignIn (path : KeyPath) (value : Item) (key : String) (entries : Entries) : Option Entries :=
  match entries.get? key with
  | some (.table origin t) =>
    (Entries.assign? value path true t).map fun t => entries.put key (.table origin t)
  | some (.elements tables) =>
    (Entries.changeLast (Entries.assign? value path true) tables).map fun ts =>
      entries.put key (.elements ts)
  | _ => none

/-- What has been read of a document: its entries, and the path of the header that is in force. -/
structure Document where
  entries : Entries
  path : KeyPath

namespace Document

def empty : Document := ⟨[], []⟩

def add? (document : Document) : Statement → Option Document
  | .table path => (Entries.changeAt? startTable path document.entries).map (⟨·, path⟩)
  | .element path => (Entries.changeAt? addElement path document.entries).map (⟨·, path⟩)
  | .assignment key term =>
    term.item?.bind fun value =>
      (match document.path with
        | [] => Entries.assign? value key true document.entries
        | path => Entries.changeAt? (assignIn key value) path document.entries).map
        (⟨·, document.path⟩)

def addAll? (document : Document) (statements : List Statement) : Option Document :=
  statements.foldlM add? document

end Document

/-- The value of a text: an object, so the whole of it holds no time. -/
def parse? (text : String) : Option Json :=
  (statements? text).bind fun statements =>
    (Document.empty.addAll? statements).bind fun document =>
      match held? document.entries with
      | some _ => none
      | none => (fieldsJson? document.entries).map .object

end MerkleDir.Toml
