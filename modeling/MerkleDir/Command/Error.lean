import MerkleDir.Report.Json
import MerkleDir.Watch.Session

namespace MerkleDir

inductive CommandError where
  | config (text : String)
  | snapshot (cause : SnapshotError)
  | watch (text : String)
  | output (text : String)
  | calendar
  deriving DecidableEq, Repr

namespace CommandError

def message : CommandError → String
  | .config text => "Configuration error: " ++ text
  | .snapshot cause => "Snapshot error: " ++ cause.message
  | .watch text => "Watch error: " ++ text
  | .output text => "Output error: " ++ text
  | .calendar => "Time outside the calendar"

def line : CommandError → String
  | .snapshot (.filesystem path reason) =>
    "error: cannot read " ++ path.display ++ ": " ++ reason.message
  | e => "error: " ++ e.message

end CommandError
end MerkleDir
