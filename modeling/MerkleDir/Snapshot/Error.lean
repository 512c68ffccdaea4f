import MerkleDir.FileSystem.Basic
import MerkleDir.MerkleTree

namespace MerkleDir

/-- The reason why a path could not be read. -/
inductive ReadFailure where
  | os (error : OsError)
  | listing (path : Path) (error : OsError)
  | reported (text : String)
  deriving DecidableEq, Repr

def ReadFailure.message : ReadFailure → String
  | .os e => e.message
  | .listing path e => "IO error for operation on " ++ path.display ++ ": " ++ e.message
  | .reported text => text

inductive SnapshotError where
  | filesystem (path : Path) (reason : ReadFailure)
  | unsupportedKind (path : Path)
  | linkDepthExceeded (path : Path) (limit : Nat)
  | invalidPath (text : String)
  | shape (mismatch : MerkleTree.ShapeMismatch)
  deriving DecidableEq, Repr

namespace SnapshotError

def notADirectory (path : Path) : SnapshotError :=
  .invalidPath ("Not a directory: " ++ path.quoted)

def message : SnapshotError → String
  | .filesystem path reason => "Filesystem error at " ++ path.quoted ++ ": " ++ reason.message
  | .unsupportedKind path => "Unsupported entry kind: " ++ path.quoted
  | .linkDepthExceeded path limit =>
    "Symlink chain at " ++ path.quoted ++ " exceeds the maximum resolution depth of " ++
      toString limit
  | .invalidPath text => "Invalid path: " ++ text
  | .shape mismatch => "Tree error: " ++ mismatch.message

end SnapshotError
end MerkleDir
