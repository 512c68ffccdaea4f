import MerkleDir.Watch.Directory

/-!
# Watch sessions

A session registers a directory with the operating system and then refreshes it each time changes
have been announced and have settled. Changes that a refresh finds are handed to the caller; a failed
refresh ends the session.
-/
namespace MerkleDir.WatchSession

/-- The directory could not be registered. -/
structure RegistrationError where
  path : Path
  error : OsError
  deriving DecidableEq, Repr

def RegistrationError.message (e : RegistrationError) : String :=
  e.error.message ++ " about [" ++ e.path.quoted ++ "]"

/-- A path as seen from the root, where the session runs. -/
def absolute (path : Path) : Path := (Path.mk [Path.slash]).join path.bytes

/-- A directory has to be readable to be registered. -/
def register (fs : FileSystem) (root : Path) : Except RegistrationError Unit :=
  let path := absolute root
  match fs.stat path with
  | .ok (.directory false _) => .error ⟨path, .permissionDenied⟩
  | .ok _ => .ok ()
  | .error e => .error ⟨path, e⟩

/-- What a session has done: the directory as it was left, the change sets handed out, and the
failure that ended it. -/
structure Outcome where
  directory : WatchedDirectory
  calls : List ChangeSet
  failure : Option SnapshotError

/-- One refresh for each of the file systems that the session gets to see. -/
def run (algorithm : HashAlgorithm) (dir : WatchedDirectory) : List FileSystem → Logged Outcome
  | [] => pure ⟨dir, [], none⟩
  | fs :: later => do
    match ← dir.refresh algorithm fs with
    | (dir, .error e) => pure ⟨dir, [], some e⟩
    | (dir, .ok changes) => do
      let rest ← run algorithm dir later
      pure (if changes.isEmpty then rest else { rest with calls := changes :: rest.calls })

def startedEvent (root : Path) (debounce : Nat) : Log.Event :=
  ⟨.info, WatchedDirectory.logTarget, "Watching directory",
    [⟨"root", .shown root.display⟩, ⟨"debounce_ms", .number debounce⟩], []⟩

end MerkleDir.WatchSession
