import MerkleDir.Config.Basic
import MerkleDir.FileSystem.Edit
import MerkleDir.Toml.Document

/-!
# Configuration files

The extension of a file tells how it is written. A path that leads to no file is tried again with each
extension at its end.
-/
namespace MerkleDir

/-- What is wrong with a configuration or its sources. -/
inductive LoadError where
  | notFound (path : Path)
  | unknownFormat (path : Path)
  | unreadable (path : Path) (cause : OsError)
  | notText (path : Path)
  | malformed (path : Path)
  | mistyped
  | invalid (faults : List ConfigFault)
  deriving DecidableEq, Repr

def LoadError.message : LoadError → String
  | .notFound path => "configuration file " ++ path.quoted ++ " not found"
  | .unknownFormat path =>
    "configuration file " ++ path.quoted ++ " is not of a registered file format"
  | .unreadable path cause => "cannot read " ++ path.quoted ++ ": " ++ cause.message
  | .notText path => "configuration file " ++ path.quoted ++ " is not valid UTF-8"
  | .malformed path => "configuration file " ++ path.quoted ++ " cannot be parsed"
  | .mistyped => "a setting has a value of the wrong type"
  | .invalid faults => "Configuration validation failed:\n" ++ Config.faultLines faults

namespace Config

inductive FileFormat where
  | toml
  | json
  deriving DecidableEq, Repr

namespace FileFormat

def all : List FileFormat := [.toml, .json]

def extension : FileFormat → Bytes
  | .toml => Utf8.encode "toml"
  | .json => Utf8.encode "json"

/-- The value of a text; it has to be an object. -/
def parse? (format : FileFormat) (text : String) : Option Json :=
  match format with
  | .toml => Toml.parse? text
  | .json =>
    match Json.parse? text with
    | some (.object fields) => some (Json.object fields).distinct
    | _ => none

end FileFormat

/-- What follows the last point of a file name, unless nothing precedes that point. -/
def extension (path : Path) : Bytes :=
  match path.fileName? with
  | none => []
  | some name =>
    let reversed := name.reverse
    let stem := (reversed.dropWhile (· ≠ Path.dot)).drop 1
    if stem = [] then [] else (reversed.takeWhile (· ≠ Path.dot)).reverse

/-- The path with a further extension, if it ends in a name. -/
def withExtension? (path : Path) (extension : Bytes) : Option Path :=
  path.fileName?.map fun _ =>
    ⟨path.head ++ Path.joinSlash (Path.dropRedundantEnd path.segments) ++ Path.dot :: extension⟩

def isFile (fs : FileSystem) (path : Path) : Bool :=
  match fs.stat path with
  | .ok (.file _ _) => true
  | _ => false

def candidate? (fs : FileSystem) (path : Path) (format : FileFormat) : Option (Path × FileFormat) :=
  ((withExtension? path format.extension).filter (isFile fs)).map (·, format)

/-- The file that a path means, and how it is written. -/
def findFile (fs : FileSystem) (path : Path) : Except LoadError (Path × FileFormat) :=
  if isFile fs path then
    match FileFormat.all.find? (·.extension == extension path) with
    | some format => .ok (path, format)
    | none => .error (.unknownFormat path)
  else
    match FileFormat.all.findSome? (candidate? fs path) with
    | some found => .ok found
    | none => .error (.notFound path)

/-- The text of the file that a path means. -/
def fileText (fs : FileSystem) (path : Path) : Except LoadError (String × Path × FileFormat) :=
  match findFile fs path with
  | .error e => .error e
  | .ok (path, format) =>
    match fs.fileContent path with
    | .error e => .error (.unreadable path e)
    | .ok content =>
      match Utf8.decode? content with
      | some text => .ok (text, path, format)
      | none => .error (.notText path)

def parseText (found : String × Path × FileFormat) : Except LoadError Json :=
  match found.2.2.parse? found.1 with
  | some value => .ok value
  | none => .error (.malformed found.2.1)

/-- The source that a file is. -/
def fileSource (fs : FileSystem) (path : Path) : Except LoadError Json :=
  (fileText fs path).bind parseText

/-- A file that need not be there sets nothing if it has no text; a text has to be well-formed. -/
def optionalSource (fs : FileSystem) (path : Path) : Except LoadError Json :=
  match fileText fs path with
  | .ok found => parseText found
  | .error _ => .ok (.object [])

end Config
end MerkleDir
