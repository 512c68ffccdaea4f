import MerkleDir.Arguments.Invocation
import MerkleDir.Command.Run
import MerkleDir.Config.Load
import MerkleDir.Log.Setup

/-!
# The program

A run of the program from its arguments to its exit: the configuration is loaded, the command line laid
over it, the log set up, and then the command is run.
-/
namespace MerkleDir

namespace Config

def overrideLogging (logging : LoggingConfig) (invocation : Invocation) : LoggingConfig :=
  { logging with
    level := invocation.logLevel.getD (if invocation.verbose then "debug" else logging.level)
    format := invocation.logFormat.getD logging.format
    output := invocation.logOutput.getD logging.output
    file := invocation.logFile.getD logging.file }

/-- The options of a command line take precedence; a level of its own over `verbose`. -/
def override (config : Config) (invocation : Invocation) : Config :=
  { config with
    snapshot := { config.snapshot with
      symlinks := invocation.symlinks.getD config.snapshot.symlinks }
    logging := overrideLogging config.logging invocation }

end Config

namespace Program

/-- Why a run does not succeed, by the stage at which it ends. -/
inductive Failure where
  | usage (cause : Arguments.UsageError)
  | load (cause : LoadError)
  | options (faults : List ConfigFault)
  | log (cause : Log.SetupError)
  | command (cause : CommandError)
  deriving DecidableEq, Repr

namespace Failure

/-- To ask for help is no fault. -/
def exitCode : Failure → Nat
  | .usage .displayHelp => 0
  | .usage _ => 2
  | _ => 1

/-- The lines that tell of the failure. -/
def text : Failure → String
  | .usage _ => "error: invalid command line"
  | .load e =>
    "error: Failed to load configuration: " ++ (CommandError.config e.message).message
  | .options faults => "error: Invalid command-line options:\n" ++ Config.faultLines faults
  | .log e => "Failed to initialize logging: " ++ (CommandError.config e.message).message
  | .command e => e.line

end Failure

/-- What a run leaves behind: lines on standard output and on standard error, and the file system. -/
structure Outcome where
  printed : List String
  noted : List String
  failure : Option Failure
  fs : FileSystem

namespace Outcome

def lines (texts : List String) : String := String.join (texts.map (· ++ "\n"))

def exitCode (outcome : Outcome) : Nat := (outcome.failure.map Failure.exitCode).getD 0

def stdout (outcome : Outcome) : String := lines outcome.printed

def stderr (outcome : Outcome) : String :=
  lines (outcome.noted ++ (outcome.failure.map Failure.text).toList)

end Outcome

/-- The configuration that a command line asks for. -/
def configure (fs : FileSystem) (env : Environment) (invocation : Invocation) :
    Except Failure Config :=
  match (Config.load fs env invocation.config).value with
  | .error e => .error (.load e)
  | .ok loaded =>
    let config := loaded.override invocation
    match config.faults with
    | [] => .ok config
    | faults => .error (.options faults)

def startEvent : Log.Event := ⟨.info, "treesync", "treesync starting", [], []⟩

def failedEvent (e : CommandError) : Log.Event :=
  ⟨.error, "treesync", "Command failed: " ++ e.message, [], []⟩

/-- Runs a command, with the events at its start and at a failure. -/
def session (algorithm : HashAlgorithm) (fs : FileSystem) (later : List FileSystem) (config : Config)
    (command : Command) : Logged Command.Execution := do
  .record startEvent
  let execution ← command.execute algorithm fs later config
  match execution.result with
  | .ok _ => pure ()
  | .error e => .record (failedEvent e)
  pure execution

/-- The states that `changes` lead through, one after the other. -/
def states : FileSystem → List (FileSystem → FileSystem) → List FileSystem
  | _, [] => []
  | fs, change :: rest => change fs :: states (change fs) rest

def appendLog (fs : FileSystem) (now : Timestamp) (path : Path) (lines : List String) : FileSystem :=
  (fs.appendFile path now (Utf8.encode (Outcome.lines lines))).toOption.getD fs

/-- The lines that a command leaves on standard output; no output is no line. -/
def printedLines (execution : Command.Execution) : List String :=
  execution.printed ++ match execution.result with
    | .ok text => if text = "" then [] else [text]
    | .error _ => []

def failureOf (execution : Command.Execution) : Option Failure :=
  match execution.result with
  | .ok _ => none
  | .error e => some (.command e)

/-- Sends the lines of the log to where they go. -/
def deliver (setup : Log.Setup) (now : Timestamp) (logged : List String) (outcome : Outcome) :
    Outcome :=
  match setup.output with
  | .stdout => { outcome with printed := logged ++ outcome.printed }
  | .stderr => { outcome with noted := outcome.noted ++ logged }
  | .file => { outcome with fs := appendLog outcome.fs now setup.file logged }

/-- A run after its arguments have been read. Each of `changes` befalls the file system once the output
of the one before it has been printed. -/
def perform (algorithm : HashAlgorithm) (now : Timestamp) (env : Environment) (fs : FileSystem)
    (changes : List (FileSystem → FileSystem)) (invocation : Invocation) : Outcome :=
  match configure fs env invocation with
  | .error failure => ⟨[], [], some failure, fs⟩
  | .ok config =>
    let ignored := (Log.ignored config.logging env).map Log.Filter.Ignored.line
    match Log.setUp fs now config.logging env with
    | (fs, .error e) => ⟨[], ignored, some (.log e), fs⟩
    | (fs, .ok setup) =>
      let later := states fs changes
      let execution := session algorithm fs later config invocation.command
      let last := ((later.take execution.value.printed.length).getLast?).getD fs
      deliver setup now (setup.lines execution.events)
        ⟨printedLines execution.value, ignored, failureOf execution.value, last⟩

def run (algorithm : HashAlgorithm) (now : Timestamp) (env : Environment) (fs : FileSystem)
    (changes : List (FileSystem → FileSystem)) (arguments : List Bytes) : Outcome :=
  match Invocation.parse arguments with
  | .error e => ⟨[], [], some (.usage e), fs⟩
  | .ok invocation => perform algorithm now env fs changes invocation

end Program
end MerkleDir
