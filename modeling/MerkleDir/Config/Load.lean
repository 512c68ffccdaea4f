import MerkleDir.Config.File
import MerkleDir.Config.Lenient
import MerkleDir.Config.Variables
import MerkleDir.Log.Event

/-!
# Loading a configuration

The sources of a configuration, later ones over earlier ones: defaults, the user's global file, a file
that is asked for, and the environment. What they come to has to be valid.
-/
namespace MerkleDir.Config

/-- Settings that hold unless a source says otherwise. -/
def defaultSource : Json :=
  .object [
    ("snapshot", .object [("symlinks", .string "follow"), ("leaf_order", .string "name")]),
    ("logging", .object [("level", .string "info")])]

/-- Where users have their files if `HOME` does not say. -/
def fallbackHome : String := "/root"

def homeDirectory (env : Environment) : Path :=
  .ofText (((env.get? "HOME").filter (· ≠ "")).getD fallbackHome)

/-- A relative `XDG_CONFIG_HOME` does not count. -/
def configDirectory (env : Environment) : Path :=
  match ((env.get? "XDG_CONFIG_HOME").map Path.ofText).filter Path.isAbsolute with
  | some dir => dir
  | none => (homeDirectory env).join (Utf8.encode ".config")

def globalPath (env : Environment) : Path :=
  ((configDirectory env).join (Utf8.encode "treesync")).join (Utf8.encode "config.toml")

def isPresent (fs : FileSystem) (path : Path) : Bool :=
  match fs.stat path with
  | .ok _ => true
  | .error _ => false

/-- The configuration that a merged value stands for. -/
def ofSettings (settings : Json) : Except LoadError Config :=
  match Reading.lenient.config? settings with
  | none => .error .mistyped
  | some config =>
    match config.faults with
    | [] => .ok config
    | faults => .error (.invalid faults)

/-- Lays sources over the defaults, the first of them lowest. -/
def merge (sources : List Json) : Json := sources.foldl Layer.addSource defaultSource

def ofSources (sources : List Json) : Except LoadError Config := ofSettings (merge sources)

/-- A single file, without the global one and the environment. -/
def loadFile (fs : FileSystem) (path : Path) : Except LoadError Config := do
  let file ← fileSource fs path
  ofSources [file]

/-- The sources of a configuration but for the defaults. -/
def sources (fs : FileSystem) (env : Environment) (file : Option Path) :
    Except LoadError (List Json) := do
  let global ← if isPresent fs (globalPath env) then optionalSource fs (globalPath env)
    else pure (.object [])
  let file ← match file with
    | some path => fileSource fs path
    | none => pure (.object [])
  pure [global, file, Variables.source env]

def globalEvent (path : Path) : Log.Event :=
  ⟨.debug, "treesync::config", "Using global configuration file",
    [⟨"config_path", .shown path.display⟩], []⟩

def load (fs : FileSystem) (env : Environment) (file : Option Path) :
    Logged (Except LoadError Config) := do
  if isPresent fs (globalPath env) then .record (globalEvent (globalPath env))
  pure ((sources fs env file).bind ofSources)

end MerkleDir.Config
