import MerkleDir.Command.Basic
import MerkleDir.Command.Scan
import MerkleDir.Config.Render
import MerkleDir.Report.Text

namespace MerkleDir

namespace Command

def logTarget : String := "treesync::cli::route"

def encoded (json : Encoded) : CommandAttempt String :=
  match json with
  | .ok value => pure value.pretty
  | .error e => .fail (.output e.message)

/-- A scan that is not recursive has one report, which stands alone. -/
def scanOutput (recursive : Bool) (format : OutputFormat) (reports : List DirectoryReport) :
    CommandAttempt String :=
  match format, recursive, reports with
  | .text, _, _ => pure (scanText reports)
  | .json, false, report :: _ => encoded report.json
  | .json, _, _ => encoded ((reports.mapM DirectoryReport.json).map Json.array)

def diffOutput (format : OutputFormat) (report : DiffReport) : CommandAttempt String :=
  match format with
  | .text => pure report.text
  | .json => encoded report.json

/-- What a command prints while it runs and how it ends. -/
structure Execution where
  printed : List String
  result : Except CommandError String

def snapshot (algorithm : HashAlgorithm) (fs : FileSystem) (config : Config) (path : Path) :
    CommandAttempt Snapshot :=
  .ofSnapshot (Snapshot.take algorithm fs config.snapshot path)

/-- The output of a command that prints nothing before its end. -/
def output (algorithm : HashAlgorithm) (fs : FileSystem) (config : Config) :
    Command → CommandAttempt String
  | .scan path recursive format => do
    scanOutput recursive format (← Scan.reports algorithm fs config.snapshot recursive path)
  | .diff left right format => do
    let left ← snapshot algorithm fs config left
    let right ← snapshot algorithm fs config right
    diffOutput format (← (DiffReport.ofSnapshots left right : Logged DiffReport))
  | .config =>
    match config.render with
    | .ok text => pure text
    | .error e => .fail (.config e.message)
  | .watch path _ => pure ("Stopped watching " ++ path.display)

def watchFailure (printed : List String) (e : CommandError) : Logged Execution :=
  pure ⟨printed, .error e⟩

/-- Prints the first digest, and then each set of changes that a refresh finds. -/
def watchSession (algorithm : HashAlgorithm) (fs : FileSystem) (later : List FileSystem)
    (config : Config) (path : Path) (debounce : Nat) : Logged Execution := do
  match ← (WatchedDirectory.start algorithm fs config.snapshot path).run with
  | .error e => watchFailure [] (.snapshot e)
  | .ok dir => do
    let first := dir.current.digest.toHex ++ "  " ++ path.display
    match WatchSession.register fs path with
    | .error e => watchFailure [first] (.watch e.message)
    | .ok () => do
      .record (WatchSession.startedEvent path debounce)
      let outcome ← WatchSession.run algorithm dir later
      let printed := first :: outcome.calls.map ChangeSet.text
      match outcome.failure with
      | some e => watchFailure printed (.snapshot e)
      | none => pure ⟨printed, .ok ("Stopped watching " ++ path.display)⟩

def watchDebounce (config : Config) (debounce : Option Nat) : Nat :=
  debounce.getD config.debounce

/-- Runs a command; `later` are the file systems that a watch gets to see. -/
def run (algorithm : HashAlgorithm) (fs : FileSystem) (later : List FileSystem) (config : Config)
    (command : Command) : Logged Execution :=
  match command with
  | .watch path debounce =>
    let debounce := watchDebounce config debounce
    if debounce = 0 then watchFailure [] (.config "debounce_ms must be greater than 0")
    else watchSession algorithm fs later config path debounce
  | command => do
    pure ⟨[], ← (output algorithm fs config command).run⟩

def isOk (result : Except CommandError String) : Bool :=
  match result with
  | .ok _ => true
  | .error _ => false

def finishedEvent (command : Command) (result : Except CommandError String) : Log.Event :=
  ⟨.info, logTarget, "Command finished",
    [⟨"command", .text command.name⟩, ⟨"ok", .flag (isOk result)⟩,
      ⟨"duration_ms", .elapsed⟩], []⟩

def execute (algorithm : HashAlgorithm) (fs : FileSystem) (later : List FileSystem) (config : Config)
    (command : Command) : Logged Execution := do
  let execution ← command.run algorithm fs later config
  .record (command.finishedEvent execution.result)
  pure execution

end Command
end MerkleDir
