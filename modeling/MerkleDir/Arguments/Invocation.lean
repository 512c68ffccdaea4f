import MerkleDir.Arguments.Grammar
import MerkleDir.Command.Basic

/-!
# Reading a command line

The global options may stand before or after the name of the command; what stands after it wins.
-/
namespace MerkleDir

namespace Arguments

def globalOptions : List Argument :=
  [⟨"config", some .path⟩, ⟨"verbose", none⟩, ⟨"log-level", some .text⟩, ⟨"log-format", some .text⟩,
    ⟨"log-output", some .text⟩, ⟨"log-file", some .path⟩, ⟨"symlinks", some .policy⟩, ⟨"help", none⟩]

def formatOption : Argument := ⟨"format", some (.choice ["text", "json"])⟩

def mainGrammar : Grammar :=
  ⟨globalOptions, [], ["scan", "diff", "watch", "config", "help"]⟩

def scanGrammar : Grammar :=
  ⟨⟨"recursive", none⟩ :: formatOption :: globalOptions, [⟨"path", some .path⟩], []⟩

def diffGrammar : Grammar :=
  ⟨formatOption :: globalOptions, [⟨"left", some .path⟩, ⟨"right", some .path⟩], []⟩

def watchGrammar : Grammar :=
  ⟨⟨"debounce-ms", some .natural⟩ :: globalOptions, [⟨"path", some .path⟩], []⟩

def configGrammar : Grammar := ⟨globalOptions, [], []⟩

def subgrammar (name : String) : Grammar :=
  if name = "scan" then scanGrammar
  else if name = "diff" then diffGrammar
  else if name = "watch" then watchGrammar
  else configGrammar

abbrev Found := List (String × Value)

def Found.path? (found : Found) (name : String) : Option Path :=
  match List.lookup name found with
  | some (.path p) => some p
  | _ => none

def Found.text? (found : Found) (name : String) : Option String :=
  match List.lookup name found with
  | some (.text t) => some t
  | _ => none

def Found.natural? (found : Found) (name : String) : Option Nat :=
  match List.lookup name found with
  | some (.natural n) => some n
  | _ => none

def Found.policy? (found : Found) (name : String) : Option SymlinkPolicy :=
  match List.lookup name found with
  | some (.policy p) => some p
  | _ => none

def Found.has (found : Found) (name : String) : Bool := found.any (·.1 == name)

def Found.pathOrEmpty (found : Found) (name : String) : Path := (found.path? name).getD ⟨[]⟩

def Found.format (found : Found) : OutputFormat :=
  if found.text? "format" = some "json" then .json else .text

def commandOf (name : String) (found : Found) : Command :=
  if name = "scan" then .scan (found.pathOrEmpty "path") (found.has "recursive") found.format
  else if name = "diff" then .diff (found.pathOrEmpty "left") (found.pathOrEmpty "right") found.format
  else if name = "watch" then .watch (found.pathOrEmpty "path") (found.natural? "debounce-ms")
  else .config

end Arguments

open Arguments in
/-- The arguments of the command are read to their end before a value that is still pending for the
program itself. -/
def Invocation.parse (arguments : List Bytes) : Except UsageError Invocation := do
  let (reading, rest) ← read mainGrammar (.start mainGrammar) arguments
  match rest with
  | none =>
    let settled ← reading.settle
    if settled.found.isEmpty then .error .displayHelpOnMissingArgumentOrSubcommand
    else .error .missingSubcommand
  | some (name, rest) =>
    let found ← readAll (subgrammar name) rest
    let settled ← reading.settle
    let all : Found := found ++ settled.found
    pure
      { command := commandOf name found
        config := all.path? "config"
        verbose := all.has "verbose"
        logLevel := all.text? "log-level"
        logFormat := all.text? "log-format"
        logOutput := all.text? "log-output"
        logFile := all.path? "log-file"
        symlinks := all.policy? "symlinks" }

end MerkleDir
