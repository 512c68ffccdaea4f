import MerkleDir.Config.Basic
import MerkleDir.Decimal.Notation
import MerkleDir.Toml.Writer

namespace MerkleDir

inductive RenderError where
  | outOfRange
  | pathNotText
  deriving DecidableEq, Repr

def RenderError.message : RenderError → String
  | .outOfRange => "Failed to render config: out-of-range value for u64 type"
  | .pathNotText => "Failed to render config: path contains invalid UTF-8 characters"

namespace Config

def setting (name value : String) : String := name ++ " = " ++ value ++ "\n"

def renderBool (b : Bool) : String := if b then "true" else "false"

def renderNat (n : Nat) : Except RenderError String :=
  if n < Decimal.signedBound then .ok (toString n) else .error .outOfRange

def renderPath (path : Path) : Except RenderError String :=
  match path.text? with
  | some text => .ok (Toml.string text)
  | none => .error .pathNotText

def renderSnapshot (options : SnapshotOptions) : Except RenderError String := do
  let depth ← renderNat options.maxLinkDepth
  pure ("[snapshot]\n" ++ setting "symlinks" (Toml.string options.symlinks.text) ++
    setting "leaf_order" (Toml.string options.leafOrder.text) ++ setting "max_symlink_depth" depth)

/-- Modules have no order of their own and are rendered as they are listed. -/
def renderModules (modules : List (String × String)) : String :=
  "[logging.modules]\n" ++
    String.join (modules.map fun m => setting (Toml.key m.1) (Toml.string m.2))

def renderLogging (logging : LoggingConfig) : Except RenderError String := do
  let file ← renderPath logging.file
  pure ("[logging]\n" ++ setting "enabled" (renderBool logging.enabled) ++
    setting "level" (Toml.string logging.level) ++ setting "format" (Toml.string logging.format) ++
    setting "output" (Toml.string logging.output) ++ setting "file" file ++
    setting "color" (renderBool logging.color) ++ "\n" ++ renderModules logging.modules)

def render (config : Config) : Except RenderError String := do
  let snapshot ← renderSnapshot config.snapshot
  let debounce ← renderNat config.debounce
  let logging ← renderLogging config.logging
  pure (snapshot ++ "\n[watch]\n" ++ setting "debounce_ms" debounce ++ "\n" ++ logging)

end Config
end MerkleDir
