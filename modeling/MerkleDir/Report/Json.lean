import MerkleDir.Json
import MerkleDir.Report.Basic

namespace MerkleDir

inductive EncodeError where
  | pathNotText
  | timeBeforeEpoch
  deriving DecidableEq, Repr

def EncodeError.message : EncodeError → String
  | .pathNotText => "path contains invalid UTF-8 characters"
  | .timeBeforeEpoch => "SystemTime must be later than UNIX_EPOCH"

abbrev Encoded := Except EncodeError Json

namespace Json

def ofNat (n : Nat) : Json := .integer n

def ofDigest (digest : Digest) : Json := .string digest.toHex

/-- What a value is called where a text was expected. A number with no point is told from an integer.
-/
def kindText : Json → String
  | .null => "null"
  | .bool value => "boolean `" ++ toString value ++ "`"
  | .integer value => "integer `" ++ toString value ++ "`"
  | .real value =>
    "floating point `" ++ value.text ++ (if value.text.contains '.' then "" else ".0") ++ "`"
  | .string _ => "string"
  | .array _ => "sequence"
  | .object _ => "map"

def ofPath (path : Path) : Encoded :=
  match path.text? with
  | some text => .ok (.string text)
  | none => .error .pathNotText

def ofPaths (paths : List Path) : Encoded := do
  pure (.array (← paths.mapM ofPath))

/-- The fields of an entry's kind: its type, and the target of a followed link. -/
def kindFields : EntryKind → Except EncodeError (List (String × Json))
  | .file => .ok [("type", .string "file")]
  | .symlinkCopy => .ok [("type", .string "symlink_copy")]
  | .followedSymlink target => do
    pure [("type", .string "followed_symlink"), ("target", ← ofPath target)]

def ofTimestamp (t : Timestamp) : Encoded :=
  if t.seconds < 0 then .error .timeBeforeEpoch
  else .ok (.object [("secs_since_epoch", .integer t.seconds), ("nanos_since_epoch", ofNat t.nanos)])

end Json

namespace Digest

/-- Why a value is not read as a digest. -/
inductive DecodeError where
  | notText (found : Json)
  | malformed (cause : ParseError)

def DecodeError.message : DecodeError → String
  | .notText found => "invalid type: " ++ found.kindText ++ ", expected a string"
  | .malformed cause => cause.message

def ofJson : Json → Except DecodeError Digest
  | .string text => (ofHex text).mapError .malformed
  | found => .error (.notText found)

end Digest

namespace SnapshotEntry

def json (entry : SnapshotEntry) : Encoded := do
  let path ← Json.ofPath entry.path
  let kind ← Json.kindFields entry.kind
  let modified ← Json.ofTimestamp entry.modified
  pure (.object [("name", .string entry.name), ("path", path), ("kind", .object kind),
    ("modified", modified), ("digest", .ofDigest entry.digest)])

end SnapshotEntry

namespace EntryReport

def json (entry : EntryReport) : Encoded := do
  let kind ← Json.kindFields entry.kind
  pure (.object (("name", .string entry.name) :: kind ++
    [("modified", .string entry.modified), ("digest", .ofDigest entry.digest)]))

end EntryReport

namespace DirectoryReport

def json (report : DirectoryReport) : Encoded := do
  let path ← Json.ofPath report.path
  let entries ← report.entries.mapM EntryReport.json
  let subdirectories ← Json.ofPaths report.subdirectories
  pure (.object [("path", path), ("name", .string report.name), ("digest", .ofDigest report.digest),
    ("top", .ofDigest report.top), ("levels", .array (report.levels.map Json.ofNat)),
    ("entry_count", .ofNat report.entryCount), ("entries", .array entries),
    ("subdirectories", subdirectories)])

end DirectoryReport

namespace ChangeSet

def json (changes : ChangeSet) : Encoded := do
  let modified ← Json.ofPaths changes.modified
  let added ← Json.ofPaths changes.added
  let removed ← Json.ofPaths changes.removed
  pure (.object [("digest_changed", .bool changes.digestChanged), ("modified", modified),
    ("added", added), ("removed", removed)])

end ChangeSet

namespace DiffReport

def json (report : DiffReport) : Encoded := do
  let left ← Json.ofPath report.left
  let right ← Json.ofPath report.right
  let changes ← report.changes.json
  pure (.object [("left", left), ("right", right), ("left_digest", .ofDigest report.leftDigest),
    ("right_digest", .ofDigest report.rightDigest), ("identical", .bool report.identical),
    ("entries_identical", .bool report.entriesIdentical), ("aligned", .bool report.aligned),
    ("changes", changes)])

end DiffReport
end MerkleDir
