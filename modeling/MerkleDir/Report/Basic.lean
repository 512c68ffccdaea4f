import MerkleDir.ChangeSet
import MerkleDir.Report.Calendar

namespace MerkleDir

structure EntryReport where
  name : String
  kind : EntryKind
  modified : String
  digest : Digest

structure DirectoryReport where
  path : Path
  name : String
  digest : Digest
  top : Digest
  levels : List Nat
  entryCount : Nat
  entries : List EntryReport
  subdirectories : List Path

def EntryReport.ofEntry? (entry : SnapshotEntry) : Option EntryReport :=
  (Calendar.text? entry.modified).map fun modified =>
    ⟨entry.name, entry.kind, modified, entry.digest⟩

/-- A directory has no report if the time of an entry is outside the calendar. -/
def DirectoryReport.ofSnapshot? (snapshot : Snapshot) : Option DirectoryReport :=
  (snapshot.entries.mapM EntryReport.ofEntry?).map fun entries =>
    { path := snapshot.path, name := snapshot.name, digest := snapshot.digest,
      top := snapshot.tree.top, levels := snapshot.tree.levels, entryCount := snapshot.entryCount,
      entries, subdirectories := snapshot.subdirectories }

structure DiffReport where
  left : Path
  right : Path
  leftDigest : Digest
  rightDigest : Digest
  identical : Bool
  entriesIdentical : Bool
  aligned : Bool
  changes : ChangeSet

def DiffReport.ofSnapshots (left right : Snapshot) : Logged DiffReport := do
  let changes ← ChangeSet.between left right
  pure
    { left := left.path, right := right.path, leftDigest := left.digest,
      rightDigest := right.digest, identical := !left.differsFrom right,
      entriesIdentical := !left.tree.differsFrom right.tree,
      aligned := left.tree.levels == right.tree.levels, changes }

end MerkleDir
