import MerkleDir.Path
import MerkleDir.Snapshot.Options

namespace MerkleDir

/-- `modules` gives single modules levels of their own. -/
structure LoggingConfig where
  enabled : Bool
  level : String
  format : String
  output : String
  file : Path
  color : Bool
  modules : List (String × String)
  deriving DecidableEq, Repr

structure Config where
  snapshot : SnapshotOptions
  debounce : Nat
  logging : LoggingConfig
  deriving DecidableEq, Repr

namespace LoggingConfig

def default : LoggingConfig :=
  { enabled := true, level := "info", format := "text", output := "stderr",
    file := .ofText "treesync.log", color := true, modules := [] }

instance : Inhabited LoggingConfig := ⟨default⟩

end LoggingConfig

namespace Config

def defaultDebounce : Nat := 200

def default : Config := ⟨.default, defaultDebounce, .default⟩

instance : Inhabited Config := ⟨default⟩

end Config

/-- Where log records go. -/
inductive LogOutput where
  | stdout
  | stderr
  | file
  deriving DecidableEq, Repr

inductive LogFormat where
  | json
  | text
  deriving DecidableEq, Repr

/-- A setting of the log that has no meaning. -/
inductive LogSettingError where
  | format (text : String)
  | output (text : String)
  deriving DecidableEq, Repr

def LogSettingError.message : LogSettingError → String
  | .format text => "Invalid log format: " ++ text ++ " (must be 'json' or 'text')"
  | .output text =>
    "Invalid log output: " ++ text ++ " (must be 'stdout', 'stderr' or 'file')"

def LogFormat.parse (text : String) : Except LogSettingError LogFormat :=
  if text = "json" then .ok .json
  else if text = "text" then .ok .text
  else .error (.format text)

def LogOutput.parse (text : String) : Except LogSettingError LogOutput :=
  if text = "stdout" then .ok .stdout
  else if text = "stderr" then .ok .stderr
  else if text = "file" then .ok .file
  else .error (.output text)

/-- A fault of a configuration. -/
inductive ConfigFault where
  | linkDepth
  | debounce
  | logging (cause : LogSettingError)
  deriving DecidableEq, Repr

def ConfigFault.message : ConfigFault → String
  | .linkDepth => "Snapshot: max_symlink_depth must be at least 1"
  | .debounce => "Watch: debounce_ms must be greater than 0"
  | .logging (.format text) => "Logging: " ++ (LogSettingError.format text).message
  | .logging (.output text) =>
    "Logging: Configuration error: " ++ (LogSettingError.output text).message

/-- The format is tested before the output, and only the first fault of the two counts. -/
def LoggingConfig.fault? (logging : LoggingConfig) : Option LogSettingError :=
  match LogFormat.parse logging.format with
  | .error e => some e
  | .ok _ =>
    match LogOutput.parse logging.output with
    | .error e => some e
    | .ok _ => none

namespace Config

def faults (config : Config) : List ConfigFault :=
  (if config.snapshot.maxLinkDepth = 0 then [.linkDepth] else []) ++
    (if config.debounce = 0 then [.debounce] else []) ++
    (config.logging.fault?.map ConfigFault.logging).toList

def isValid (config : Config) : Bool := config.faults.isEmpty

def faultLines (faults : List ConfigFault) : String :=
  "\n".intercalate (faults.map ConfigFault.message)

end Config
end MerkleDir
