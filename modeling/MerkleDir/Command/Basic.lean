import MerkleDir.Path
import MerkleDir.Snapshot.Options

namespace MerkleDir

inductive OutputFormat where
  | text
  | json
  deriving DecidableEq, Repr

namespace OutputFormat

def name : OutputFormat → String
  | .text => "text"
  | .json => "json"

end OutputFormat

inductive Command where
  | scan (path : Path) (recursive : Bool) (format : OutputFormat)
  | diff (left right : Path) (format : OutputFormat)
  | watch (path : Path) (debounce : Option Nat)
  | config
  deriving DecidableEq, Repr

namespace Command

def name : Command → String
  | .scan _ _ _ => "scan"
  | .diff _ _ _ => "diff"
  | .watch _ _ => "watch"
  | .config => "config"

end Command

/-- A command line as a whole. -/
structure Invocation where
  command : Command
  config : Option Path
  verbose : Bool
  logLevel : Option String
  logFormat : Option String
  logOutput : Option String
  logFile : Option Path
  symlinks : Option SymlinkPolicy
  deriving DecidableEq, Repr

end MerkleDir
