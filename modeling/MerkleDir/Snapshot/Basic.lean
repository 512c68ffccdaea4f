import MerkleDir.Snapshot.Store

/-!
# Directory snapshots

A snapshot records the leaves directly in one directory, each with the digest of its raw name and
time, an index of those digests, a Merkle tree over them and a digest of the whole. Entries are kept
in ascending order of raw names.
-/
namespace MerkleDir

structure Snapshot where
  path : Path
  name : String
  options : SnapshotOptions
  entries : List SnapshotEntry
  byDigest : DigestIndex
  subdirectories : List Path
  tree : MerkleTree
  digest : Digest

namespace Snapshot

def logTarget : String := "treesync::snapshot"

def treeLogTarget : String := "treesync::tree::builder"

/-- A snapshot before anything has been enumerated. -/
def initial (options : SnapshotOptions) : Snapshot :=
  ⟨⟨[]⟩, "", options, [], .empty, [], .unbuilt [], .empty⟩

instance : Inhabited Snapshot := ⟨initial .default⟩

def hashLeaf (algorithm : HashAlgorithm) (root : Path) (leaf : Leaf) : SnapshotEntry :=
  { fileName := leaf.fileName, name := leaf.name, path := leaf.path, kind := leaf.kind,
    modified := leaf.modified,
    digest := .entry algorithm leaf.fileName (Path.relativeParent root leaf.path) leaf.modified }

/-- The canonical path in its display form, without separators at the end. -/
def canonicalText (fs : FileSystem) (path : Path) : Except SnapshotError Path :=
  match fs.canonicalize path with
  | .error e => .error (.filesystem path (.os e))
  | .ok canonical => .ok (.ofText (Path.normalizeText canonical.display))

theorem canonicalText_of_canonicalLocation {fs : FileSystem} {path : Path} {location : Location}
    (h : fs.canonicalLocation path = .ok location) : canonicalText fs path =
      .ok (.ofText (Path.normalizeText (FileSystem.absolutePath location).display)) := by
  rw [canonicalText, FileSystem.canonicalize, h]
  rfl

/-- The name of a directory is its final component, if need be that of its canonical path. -/
def directoryName (fs : FileSystem) (path : Path) : Except SnapshotError String :=
  match path.fileName? with
  | some name => .ok (displayName name)
  | none =>
    match canonicalText fs path with
    | .error e => .error e
    | .ok canonical =>
      match canonical.fileName? with
      | some name => .ok (displayName name)
      | none => .ok canonical.display

def hashedEntry (entry : SnapshotEntry) : Log.Event :=
  ⟨.trace, logTarget, "Hashed entry",
    [⟨"entry", .shown entry.name⟩, ⟨"digest", .shown entry.digest.toHex⟩], []⟩

def collision (shadowed : Bytes) (entry : SnapshotEntry) : Log.Event :=
  ⟨.debug, logTarget, "Digest collision between entries",
    [⟨"digest", .shown entry.digest.toHex⟩, ⟨"shadowed", .shown (Utf8.display shadowed)⟩,
      ⟨"entry", .shown entry.name⟩], []⟩

def builtEvent (tree : MerkleTree) : Log.Event :=
  if tree.isEmpty then ⟨.trace, treeLogTarget, "Built empty tree", [], []⟩
  else ⟨.debug, treeLogTarget, "Merkle tree built",
    [⟨"depth", .number tree.upper.length⟩, ⟨"node_count", .number tree.nodeCount⟩,
      ⟨"top", .shown tree.top.toHex⟩], []⟩

def buildTree (algorithm : HashAlgorithm) (leaves : List Digest) : Logged MerkleTree :=
  let tree := MerkleTree.ofLeaves algorithm leaves
  Logged.within
    ⟨"build_from_self", treeLogTarget, [⟨"leaf_count", .number leaves.length⟩]⟩
    ⟨tree, [builtEvent tree]⟩

def completedEvent (snapshot : Snapshot) : Log.Event :=
  ⟨.info, logTarget, "Snapshot completed",
    [⟨"entry_count", .number snapshot.entries.length⟩,
      ⟨"subdirectory_count", .number snapshot.subdirectories.length⟩,
      ⟨"digest", .shown snapshot.digest.toHex⟩, ⟨"duration_ms", .elapsed⟩], []⟩

/-- The walk of a directory; a failure is reported. -/
def walkReported (fs : FileSystem) (options : SnapshotOptions) (root : Path) :
    Attempt (List WalkItem) :=
  tryCatch (walk fs options root) fun e => do
    .record ⟨.error, logTarget, "Directory enumeration failed: " ++ e.message, [], []⟩
    throw e

/-- The entries that a walk has found, in its order. -/
def walkedEntries (algorithm : HashAlgorithm) (root : Path) (items : List WalkItem) :
    List SnapshotEntry :=
  (items.filterMap WalkItem.leaf?).map (hashLeaf algorithm root)

/-- Enters the digests of entries into an index. An entry that takes the slot of another is reported.
-/
def indexEntries (index : DigestIndex) : List SnapshotEntry → Logged DigestIndex
  | [] => pure index
  | entry :: rest => do
    if let some shadowed := index.lookup? entry.digest then
      .record (collision shadowed entry)
    indexEntries (index.insert entry.digest entry.fileName) rest

def ofWalk (algorithm : HashAlgorithm) (fs : FileSystem) (options : SnapshotOptions) (root : Path)
    (items : List WalkItem) : Attempt Snapshot := do
  let walked := walkedEntries algorithm root items
  let store := EntryStore.ofEntries walked
  let subdirectories := items.filterMap WalkItem.directory?
  (⟨(), walked.map hashedEntry⟩ : Logged Unit)
  let byDigest ← (indexEntries .empty store.entries : Logged DigestIndex)
  let name ← ExceptT.mk (pure (directoryName fs root))
  let leaves := (store.leafEntries options.leafOrder).map (·.digest)
  let tree ← (buildTree algorithm leaves : Logged MerkleTree)
  let snapshot : Snapshot :=
    { path := root, name, options, entries := store.entries, byDigest, subdirectories, tree,
      digest := .directory algorithm tree.top name }
  .record (completedEvent snapshot)
  pure snapshot

/-- A snapshot of the directory at `root`. -/
def take (algorithm : HashAlgorithm) (fs : FileSystem) (options : SnapshotOptions) (root : Path) :
    Attempt Snapshot :=
  ExceptT.mk (Logged.within ⟨"enumerate", logTarget, [⟨"dir", .shown root.display⟩]⟩
    (ExceptT.run do
      ofWalk algorithm fs options root (← walkReported fs options root)))

section Outcome

variable {algorithm : HashAlgorithm} {fs : FileSystem} {options : SnapshotOptions} {root : Path}

theorem result_walkReported :
    Logged.result (walkReported fs options root) = Logged.result (walk fs options root) := by
  rw [walkReported, Logged.result_tryCatch]
  cases Logged.result (walk fs options root) <;> rfl

/-- The snapshot of a directory of that name in which a walk has found `items`. -/
def assembled (algorithm : HashAlgorithm) (options : SnapshotOptions) (root : Path)
    (items : List WalkItem) (name : String) : Snapshot :=
  let store := EntryStore.ofEntries (walkedEntries algorithm root items)
  let tree := MerkleTree.ofLeaves algorithm ((store.leafEntries options.leafOrder).map (·.digest))
  { path := root, name, options, entries := store.entries,
    byDigest := (indexEntries .empty store.entries).value,
    subdirectories := items.filterMap WalkItem.directory?, tree,
    digest := .directory algorithm tree.top name }

theorem result_ofWalk (items : List WalkItem) :
    Logged.result (ofWalk algorithm fs options root items) =
      (directoryName fs root).map (assembled algorithm options root items) := by
  simp only [ofWalk, Logged.result_bind, Logged.result_lift, Logged.result_mk,
    Attempt.result_record, Logged.value_pure, Logged.result_pure]
  cases directoryName fs root <;> rfl

theorem result_take : Logged.result (take algorithm fs options root) =
    Logged.result (walkReported fs options root) >>= fun items =>
      Logged.result (ofWalk algorithm fs options root items) :=
  Logged.result_bind (walkReported fs options root) (ofWalk algorithm fs options root)

theorem take_of_walk_error {e : SnapshotError}
    (h : Logged.result (walk fs options root) = .error e) :
    Logged.result (take algorithm fs options root) = .error e := by
  rw [result_take, result_walkReported, h]
  rfl

/-- A snapshot is taken if the directory can be walked and has a name. -/
theorem take_eq_ok_iff {s : Snapshot} : Logged.result (take algorithm fs options root) = .ok s ↔
    ∃ items name, Logged.result (walk fs options root) = .ok items ∧
      directoryName fs root = .ok name ∧ s = assembled algorithm options root items name := by
  rw [result_take, ← Logged.result_bind, Logged.result_bind_eq_ok]
  simp only [result_walkReported, result_ofWalk]
  constructor
  · rintro ⟨items, hitems, h⟩
    cases hname : directoryName fs root with
    | error e => simp [hname, Except.map] at h
    | ok name => exact ⟨items, name, hitems, rfl, by simpa [hname, Except.map, eq_comm] using h⟩
  · rintro ⟨items, name, hitems, hname, rfl⟩
    exact ⟨items, hitems, by rw [hname]; rfl⟩

end Outcome

/-- Takes the snapshot anew under its own options. A failure leaves it as it was. -/
def enumerate (algorithm : HashAlgorithm) (fs : FileSystem) (snapshot : Snapshot) (root : Path) :
    Logged (Snapshot × Except SnapshotError (List Path)) := do
  match ← (take algorithm fs snapshot.options root).run with
  | .ok next => pure (next, .ok next.subdirectories)
  | .error e => pure (snapshot, .error e)

def entryCount (snapshot : Snapshot) : Nat := snapshot.entries.length

def entry? (snapshot : Snapshot) (fileName : Bytes) : Option SnapshotEntry :=
  snapshot.entries.find? (·.fileName == fileName)

/-- The entry whose name is in the slot of a digest. -/
def entryByDigest? (snapshot : Snapshot) (digest : Digest) : Option SnapshotEntry :=
  (snapshot.byDigest.lookup? digest).bind snapshot.entry?

def differsFrom (snapshot other : Snapshot) : Bool := snapshot.digest != other.digest

def setSymlinkPolicy (snapshot : Snapshot) (policy : SymlinkPolicy) : Snapshot :=
  { snapshot with options := { snapshot.options with symlinks := policy } }

/-- The leaves of `other` that the trees tell apart. -/
def changedDigests (snapshot other : Snapshot) : Attempt (List Digest) :=
  match snapshot.tree.changedLeaves other.tree with
  | .error e => .fail (.shape e)
  | .ok digests => do
    unless snapshot.tree.isEmpty do
      .record ⟨.trace, treeLogTarget, "Collected changed leaves",
        [⟨"changed_leaves", .number digests.length⟩], []⟩
    pure digests

/-- The entries of `other` at the leaves that the trees tell apart. -/
def changedEntries (snapshot other : Snapshot) : Attempt (List SnapshotEntry) := do
  pure ((← snapshot.changedDigests other).filterMap other.entryByDigest?)

end Snapshot
end MerkleDir
