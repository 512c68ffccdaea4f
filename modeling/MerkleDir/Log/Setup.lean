import MerkleDir.Config.Basic
import MerkleDir.Environment
import MerkleDir.FileSystem.Edit
import MerkleDir.Log.Filter
import MerkleDir.Log.Record

namespace MerkleDir

namespace Log

inductive SetupError where
  | directive (error : DirectiveError)
  | environmentDirective (error : DirectiveError)
  | setting (error : LogSettingError)
  | directory (error : OsError)
  | file (path : Path) (error : OsError)
  deriving DecidableEq, Repr

def SetupError.message : SetupError → String
  | .directive e => "Invalid log directive: " ++ e.message
  | .environmentDirective e => "Invalid log directive from env: " ++ e.message
  | .setting e => e.message
  | .directory e => "Failed to create log directory: " ++ e.message
  | .file path e => "Failed to open log file " ++ path.quoted ++ ": " ++ e.message

/-- A log as it was set up. -/
structure Setup where
  filter : Filter
  format : LogFormat
  output : LogOutput
  file : Path

def addModule (filter : Filter) (entry : String × String) : Except SetupError Filter :=
  match Directive.parse (entry.1 ++ "=" ++ entry.2) with
  | .ok d => .ok (filter.add d)
  | .error e => .error (.directive e)

/-- An item counts if it has one equals sign. -/
def addEnvironmentModule (filter : Filter) (item : String) : Except SetupError Filter :=
  match Directive.pieces '=' item with
  | [name, level] =>
    match Directive.parse (trim name ++ "=" ++ trim level) with
    | .ok d => .ok (filter.add d)
    | .error e => .error (.environmentDirective e)
  | _ => .ok filter

def environmentModules (env : Environment) : List String :=
  match env.get? "TREESYNC_LOG_MODULES" with
  | some text => Directive.pieces ',' text
  | none => []

/-- A filter from the environment takes the place of all settings, if it can be read. -/
def environmentFilter? (env : Environment) : Option Filter :=
  (env.get? "TREESYNC_LOG").bind fun text => (Filter.parse text).toOption

/-- Whether the level of the configuration is read at all. -/
def readsLevel (config : LoggingConfig) (env : Environment) : Bool :=
  config.enabled && (environmentFilter? env).isNone && config.level != "off"

def filterOf (config : LoggingConfig) (env : Environment) : Except SetupError Filter :=
  if readsLevel config env then do
    let filter := (Filter.parseLenient config.level).1
    let filter ← config.modules.foldlM addModule filter
    (environmentModules env).foldlM addEnvironmentModule filter
  else if config.enabled then .ok ((environmentFilter? env).getD .off)
  else .ok .off

/-- The parts of the level that are not understood. -/
def ignored (config : LoggingConfig) (env : Environment) : List Filter.Ignored :=
  if readsLevel config env then (Filter.parseLenient config.level).2 else []

/-- A format in the environment counts only if it is one. -/
def formatOf (config : LoggingConfig) (env : Environment) : Except SetupError LogFormat :=
  match (env.get? "TREESYNC_LOG_FORMAT").bind fun text => (LogFormat.parse text).toOption with
  | some format => .ok format
  | none => (LogFormat.parse config.format).mapError .setting

/-- An output in the environment counts even if it is none. -/
def outputOf (config : LoggingConfig) (env : Environment) : Except SetupError LogOutput :=
  (LogOutput.parse ((env.get? "TREESYNC_LOG_OUTPUT").getD config.output)).mapError .setting

/-- The file is created if need be, at time `now`. -/
def openFile (fs : FileSystem) (now : Timestamp) (path : Path) : Except SetupError FileSystem := do
  let fs ← match path.parent? with
    | some parent =>
      if parent.bytes = [] then .ok fs else (fs.makeDirectories parent).mapError .directory
    | none => .ok fs
  (fs.appendFile path now []).mapError (.file path)

/-- The directories that were made for a log file stay even if the file cannot be opened. -/
def directoriesFor (fs : FileSystem) (path : Path) : FileSystem :=
  match path.parent? with
  | some parent => if parent.bytes = [] then fs else (fs.makeDirectories parent).toOption.getD fs
  | none => fs

/-- Filter, format, output and file are settled in this order. -/
def setUp (fs : FileSystem) (now : Timestamp) (config : LoggingConfig) (env : Environment) :
    FileSystem × Except SetupError Setup :=
  let settled : Except SetupError Setup := do
    let filter ← filterOf config env
    let format ← formatOf config env
    let output ← outputOf config env
    pure ⟨filter, format, output, config.file⟩
  match settled with
  | .error e => (fs, .error e)
  | .ok setup =>
    if setup.output = .file then
      match openFile fs now config.file with
      | .ok fs => (fs, .ok setup)
      | .error e => (directoriesFor fs config.file, .error e)
    else (fs, .ok setup)

namespace Setup

/-- The lines that a log gets for a list of events. -/
def lines (setup : Setup) (events : List Event) : List String :=
  (events.filterMap setup.filter.pass?).map fun e => match setup.format with
    | .json => e.json.compact
    | .text => e.text

end Setup
end Log
end MerkleDir
