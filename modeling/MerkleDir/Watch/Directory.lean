import MerkleDir.ChangeSet

namespace MerkleDir

structure WatchedDirectory where
  root : Path
  options : SnapshotOptions
  current : Snapshot

namespace WatchedDirectory

instance : Inhabited WatchedDirectory := ⟨⟨[]⟩, default, default⟩

def logTarget : String := "treesync::watch"

/-- Takes the first snapshot. -/
def start (algorithm : HashAlgorithm) (fs : FileSystem) (options : SnapshotOptions) (root : Path) :
    Attempt WatchedDirectory := do
  pure ⟨root, options, ← Snapshot.take algorithm fs options root⟩

def changedEvent (root : Path) (changes : ChangeSet) : Log.Event :=
  ⟨.info, logTarget, "Directory changed",
    [⟨"root", .shown root.display⟩, ⟨"modified", .number changes.modified.length⟩,
      ⟨"added", .number changes.added.length⟩, ⟨"removed", .number changes.removed.length⟩], []⟩

def refresh (algorithm : HashAlgorithm) (fs : FileSystem) (dir : WatchedDirectory) :
    Logged (WatchedDirectory × Except SnapshotError ChangeSet) := do
  match ← (Snapshot.take algorithm fs dir.options dir.root).run with
  | .error e => pure (dir, .error e)
  | .ok fresh => do
    let changes ← ChangeSet.between dir.current fresh
    unless changes.isEmpty do
      .record (changedEvent dir.root changes)
    pure ({ dir with current := fresh }, .ok changes)

end WatchedDirectory
end MerkleDir
