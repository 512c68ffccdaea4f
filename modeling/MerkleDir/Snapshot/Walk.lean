import MerkleDir.Log.Event
import MerkleDir.Snapshot.Error
import MerkleDir.Snapshot.Options

/-!
# Walking one directory

The direct children of a directory become leaves or deferred subdirectories, in the order of the
listing. Links are treated as the policy says; a followed link is resolved one link at a time, up to
a limit.
-/
namespace MerkleDir

inductive EntryKind where
  | file
  | symlinkCopy
  | followedSymlink (target : Path)
  deriving DecidableEq, Repr

/-- A leaf as the walk finds it, not yet hashed. -/
structure Leaf where
  fileName : Bytes
  path : Path
  modified : Timestamp
  kind : EntryKind
  deriving DecidableEq, Repr

def Leaf.name (leaf : Leaf) : String := displayName leaf.fileName

inductive WalkItem where
  | leaf (leaf : Leaf)
  | directory (path : Path)
  deriving DecidableEq, Repr

namespace WalkItem

def leaf? : WalkItem → Option Leaf
  | .leaf l => some l
  | .directory _ => none

def directory? : WalkItem → Option Path
  | .leaf _ => none
  | .directory p => some p

end WalkItem

@[simp] theorem mapError_eq_ok {ε δ α : Type} {f : ε → δ} {x : Except ε α} {a : α} :
    x.mapError f = .ok a ↔ x = .ok a := by
  cases x with
  | error e => exact ⟨nofun, nofun⟩
  | ok b => exact ⟨fun h => Except.ok.inj h ▸ rfl, fun h => Except.ok.inj h ▸ rfl⟩

/-- The outcome of a step that may fail, with the events it made. -/
abbrev Attempt (α : Type) := ExceptT SnapshotError Logged α

namespace Attempt

def fail {α : Type} (e : SnapshotError) : Attempt α := throw e

def record (event : Log.Event) : Attempt Unit := (Logged.record event : Logged Unit)

/-- A failure of the file system at `path`. -/
def ofOs {α : Type} (path : Path) : Except OsError α → Attempt α
  | .ok a => pure a
  | .error e => fail (.filesystem path (.os e))

@[simp] theorem result_fail {α : Type} (e : SnapshotError) :
    Logged.result (fail e : Attempt α) = .error e := rfl

@[simp] theorem result_record (event : Log.Event) : Logged.result (record event) = .ok () := rfl

@[simp] theorem result_ofOs {α : Type} (path : Path) (x : Except OsError α) :
    Logged.result (ofOs path x) = x.mapError fun e => .filesystem path (.os e) := by
  cases x <;> rfl

end Attempt

namespace Walk

def logTarget : String := "treesync::tree::walker"

def ignoringLink (path : Path) : Log.Event :=
  ⟨.trace, logTarget, "Ignoring symlink", [⟨"path", .shown path.display⟩], []⟩

def danglingLink (link target : Path) : Log.Event :=
  ⟨.warn, logTarget, "Skipping dangling symlink",
    [⟨"link", .shown link.display⟩, ⟨"target", .shown target.display⟩], []⟩

def unsupported (path : Path) : Log.Event :=
  ⟨.warn, logTarget, "Skipping entry",
    [⟨"error", .shown (SnapshotError.unsupportedKind path).message⟩], []⟩

/-- A relative target starts from the directory that holds the link. -/
def linkTarget (link : Path) (target : Bytes) : Path :=
  match link.parent? with
  | some parent => parent.join target
  | none => ⟨target⟩

/-- Follows the link at `current`, reached from the entry `fileName` at `link`; `steps` links may be
read before `limit` is exceeded. -/
def follow (fs : FileSystem) (limit : Nat) (fileName : Bytes) (link : Path) :
    Nat → Path → Attempt (Option WalkItem)
  | 0, _ => .fail (.linkDepthExceeded link limit)
  | steps + 1, current => do
    let target := linkTarget current (← .ofOs current (fs.readLink current))
    match fs.lstat target with
    | .error .notFound => do
      .record (danglingLink link target)
      pure none
    | .error e => .fail (.filesystem target (.os e))
    | .ok (.link _ _) => follow fs limit fileName link steps target
    | .ok (.file modified _) =>
      pure (some (.leaf ⟨fileName, link, modified, .followedSymlink target⟩))
    | .ok (.directory _ _) => pure (some (.directory link))
    | .ok .special => do
      .record (unsupported target)
      pure none

/-- What an entry of the listing becomes. The metadata of a file is read once more through its path,
which may be too long for that. -/
def classify (fs : FileSystem) (options : SnapshotOptions) (root : Path)
    (entry : Bytes × Node) : Attempt (Option WalkItem) :=
  let path := root.join entry.1
  match entry.2 with
  | .link _ _ =>
    match options.symlinks with
    | .ignore => do
      .record (ignoringLink path)
      pure none
    | .copy => do
      match ← .ofOs path (fs.lstat path) with
      | .link modified _ => pure (some (.leaf ⟨entry.1, path, modified, .symlinkCopy⟩))
      | _ => pure none
    | .follow => follow fs options.maxLinkDepth entry.1 path options.maxLinkDepth path
  | .file modified _ =>
    match fs.lstat path with
    | .ok _ => pure (some (.leaf ⟨entry.1, path, modified, .file⟩))
    | .error e => .fail (.filesystem path (.listing path e))
  | .directory _ _ => pure (some (.directory path))
  | .special => do
    .record (unsupported path)
    pure none

end Walk

/-- The leaves and subdirectories directly in `root`; the first failure ends the walk. -/
def walk (fs : FileSystem) (options : SnapshotOptions) (root : Path) : Attempt (List WalkItem) := do
  match ← .ofOs root (fs.stat root) with
  | .directory _ _ =>
    match fs.list root with
    | .error e => .fail (.filesystem root (.listing root e))
    | .ok entries => do
      let items ← entries.mapM (Walk.classify fs options root)
      pure (items.filterMap id)
  | _ => .fail (.notADirectory root)

theorem exists_stat_of_walk {fs : FileSystem} {options : SnapshotOptions} {root : Path}
    {items : List WalkItem} (h : Logged.result (walk fs options root) = .ok items) :
    ∃ node, fs.stat root = .ok node := by
  obtain ⟨node, hnode, -⟩ := Logged.result_bind_eq_ok.mp h
  rw [Attempt.result_ofOs, mapError_eq_ok] at hnode
  exact ⟨node, hnode⟩

end MerkleDir
