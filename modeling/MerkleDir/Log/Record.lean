import MerkleDir.Json
import MerkleDir.Log.Event
import MerkleDir.Text.Quoted

namespace MerkleDir.Log

namespace FieldValue

def render : FieldValue → String
  | .text s => Quoted.ofText s
  | .shown s => s
  | .number n => toString n
  | .flag b => if b then "true" else "false"
  | .elapsed => ""

def json : FieldValue → Json
  | .text s => .string s
  | .shown s => .string s
  | .number n => .integer n
  | .flag b => .bool b
  | .elapsed => .null

end FieldValue

def Field.text (field : Field) : String := field.name ++ "=" ++ field.value.render

def Field.json (field : Field) : String × Json := (field.name, field.value.json)

def Span.text (span : Span) : String :=
  span.name ++ "\x7b" ++ " ".intercalate (span.fields.map Field.text) ++ "\x7d"

def Span.json (span : Span) : Json :=
  .object (("name", .string span.name) :: span.fields.map Field.json)

/-- Controls with which a terminal can be steered. -/
def steersTerminal (c : Char) : Bool :=
  c == '\x1b' || c == '\x07' || c == '\x08' || c == '\x0c' || c == '\x7f' ||
    (0x80 ≤ c.toNat && c.toNat ≤ 0x9F)

def escapedChar (c : Char) : List Char :=
  if !steersTerminal c then [c]
  else if c.toNat < 0x80 then ['\\', 'x'] ++ Hex.encodeByte (UInt8.ofNat c.toNat)
  else Quoted.unicodeEscape c

/-- The message as a line of text shows it. -/
def escapedMessage (message : String) : String :=
  String.ofList (message.toList.flatMap escapedChar)

namespace Event

def spansText (spans : List Span) : String :=
  match spans with
  | [] => ""
  | spans => String.join (spans.map fun s => s.text ++ ":") ++ " "

def text (event : Event) : String :=
  event.level.text ++ " " ++ spansText event.spans ++ event.target ++ ": " ++
    " ".intercalate (escapedMessage event.message :: event.recorded.map Field.text)

def json (event : Event) : Json :=
  .object [("level", .string event.level.text),
    ("fields", .object (("message", .string event.message) :: event.recorded.map Field.json)),
    ("target", .string event.target),
    ("spans", if event.spans.isEmpty then .null else .array (event.spans.map Span.json))]

end Event
end MerkleDir.Log
