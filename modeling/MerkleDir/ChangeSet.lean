import MerkleDir.Snapshot.Basic

/-!
# Change sets

What was modified, added and removed between two snapshots. Trees of one shape are descended, and
each leaf found is checked by name, because an insertion shifts the leaves after it; otherwise all
entries are compared by name.
-/
namespace MerkleDir

structure ChangeSet where
  digestChanged : Bool
  modified : List Path
  added : List Path
  removed : List Path
  deriving DecidableEq, Repr

namespace ChangeSet

def unchanged : ChangeSet := ⟨false, [], [], []⟩

instance : Inhabited ChangeSet := ⟨unchanged⟩

def isEmpty (changes : ChangeSet) : Bool :=
  changes.modified.isEmpty && changes.added.isEmpty && changes.removed.isEmpty

/-- Whether a snapshot has an entry of that name with another digest. -/
def isModified (previous : Snapshot) (entry : SnapshotEntry) : Bool :=
  (previous.entry? entry.fileName).any (·.digest != entry.digest)

def isMissing (snapshot : Snapshot) (entry : SnapshotEntry) : Bool :=
  (snapshot.entry? entry.fileName).isNone

/-- Sorts the entries that may have changed by what happened to their names. -/
def ofCandidates (previous current : Snapshot) (fresh stale : List SnapshotEntry) : ChangeSet :=
  { digestChanged := true
    modified := (fresh.filter (isModified previous)).map (·.path)
    added := (fresh.filter (isMissing previous)).map (·.path)
    removed := (stale.filter (isMissing current)).map (·.path) }

def countsDiffer (e : SnapshotError) : Log.Event :=
  ⟨.debug, "treesync::watch", "Entry counts differ, comparing entries by name",
    [⟨"error", .shown e.message⟩], []⟩

/-- The entries of each snapshot at the leaves that the two trees tell apart. -/
def changedBothWays (previous current : Snapshot) :
    Attempt (List SnapshotEntry × List SnapshotEntry) := do
  let fresh ← previous.changedEntries current
  let stale ← current.changedEntries previous
  pure (fresh, stale)

/-- Nothing is compared when the digests of the two snapshots are equal. -/
def between (previous current : Snapshot) : Logged ChangeSet :=
  if previous.differsFrom current then do
    match ← (changedBothWays previous current).run with
    | .ok (fresh, stale) => pure (ofCandidates previous current fresh stale)
    | .error e => do
      .record (countsDiffer e)
      pure (ofCandidates previous current current.entries previous.entries)
  else pure unchanged

end ChangeSet
end MerkleDir
