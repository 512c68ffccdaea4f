import MerkleDir.Environment
import MerkleDir.FileSystem.Edit
import MerkleDir.Json

/-!
# Images

An image is a JSON value for all that a run of the program sees: the time, the environment and the file
system. A node is an array that starts with its kind: `["file", seconds, nanos, content]`,
`["link", seconds, nanos, target]`, `["special"]`, or `["directory", entries]` with the entries as an
object.
-/
namespace MerkleDir

structure Image where
  now : Timestamp
  environment : Environment
  fs : FileSystem

namespace Image

def timestamp (seconds nanos : Int) : Timestamp := ⟨seconds, Fin.ofNat _ nanos.toNat⟩

def times : TimeRange := .bits34

def leaf? (kind : String) (modified : Timestamp) (text : String) : Option Node :=
  if kind = "file" then some (.file (times.record modified) (Utf8.encode text))
  else if kind = "link" then some (.link (times.record modified) (Utf8.encode text))
  else none

mutual

def node? : Json → Option Node
  | .array [.string kind, .integer seconds, .integer nanos, .string text] =>
    leaf? kind (timestamp seconds nanos) text
  | .array [.string "special"] => some .special
  | .array [.string "directory", .object fields] =>
    (entries? fields).map fun entries => .directory true entries
  | _ => none

/-- Entries are put where a listing has them. -/
def entries? : List (String × Json) → Option (List (Bytes × Node))
  | [] => some []
  | (name, value) :: rest => do
    let node ← node? value
    let others ← entries? rest
    pure (Node.insertEntry (Utf8.encode name) node others)

end

def binding? (field : String × Json) : Option (String × String) :=
  match field.2 with
  | .string value => some (field.1, value)
  | _ => none

def ofJson? (value : Json) : Option Image :=
  match value.field? "now", value.field? "environment", value.field? "root" with
  | some (.array [.integer seconds, .integer nanos]), some (.object settings), some root => do
    let environment ← settings.mapM binding?
    let root ← node? root
    if h : root.isDirectory = true ∧ root.isWellFormed times = true then
      some ⟨timestamp seconds nanos, environment, ⟨times, root, h.2⟩⟩
    else none
  | _, _, _ => none

def parse? (text : String) : Option Image := (Json.parse? text).bind ofJson?

end Image
end MerkleDir
