import MerkleDir.Decimal.Notation
import MerkleDir.Path
import MerkleDir.Snapshot.Options

/-!
# The grammar of command-line arguments

A command takes long options, with a value or without, and positional values in a fixed order. A
value is read by its kind. Reading stops at the first fault.
-/
namespace MerkleDir.Arguments

/-- The kinds of fault that a command line can have. -/
inductive UsageError where
  | invalidValue
  | unknownArgument
  | invalidSubcommand
  | valueValidation
  | tooManyValues
  | argumentConflict
  | missingRequiredArgument
  | missingSubcommand
  | invalidUtf8
  | displayHelp
  | displayHelpOnMissingArgumentOrSubcommand
  deriving DecidableEq, Repr

inductive ValueKind where
  | path
  | text
  | choice (words : List String)
  | natural
  | policy
  deriving DecidableEq, Repr

inductive Value where
  | present
  | path (path : Path)
  | text (text : String)
  | natural (n : Nat)
  | policy (policy : SymlinkPolicy)
  deriving DecidableEq, Repr

/-- A number of 64 bits in decimal digits, with or without a plus sign. -/
def natural? (text : String) : Option Nat :=
  let digits := match text.toList with
    | '+' :: rest => rest
    | digits => digits
  (Decimal.natural? digits).filter (· < UInt64.size)

def readText (kind : ValueKind) (text : String) : Except UsageError Value :=
  match kind with
  | .path => .ok (.path (.ofText text))
  | .text => .ok (.text text)
  | .choice words => if words.contains text then .ok (.text text) else .error .invalidValue
  | .natural =>
    match natural? text with
    | some n => .ok (.natural n)
    | none => .error .valueValidation
  | .policy =>
    match SymlinkPolicy.parse text with
    | .ok policy => .ok (.policy policy)
    | .error _ => .error .valueValidation

/-- A path is any bytes but none; every other value has to be text. -/
def readValue (kind : ValueKind) (bytes : Bytes) : Except UsageError Value :=
  match kind with
  | .path => if bytes = [] then .error .invalidValue else .ok (.path ⟨bytes⟩)
  | kind =>
    match Utf8.decode? bytes with
    | some text => readText kind text
    | none => .error .invalidUtf8

/-- What an option or position is for. An option without a kind takes no value. -/
structure Argument where
  name : String
  kind : Option ValueKind
  deriving DecidableEq, Repr

structure Grammar where
  options : List Argument
  positionals : List Argument
  subcommands : List String

namespace Grammar

def option? (grammar : Grammar) (name : String) : Option Argument :=
  grammar.options.find? (·.name == name)

end Grammar

/-- The values found so far, with the argument whose value is awaited or not yet read. -/
structure Reading where
  found : List (String × Value)
  pending : Option (Argument × Option Bytes)
  awaitsValue : Bool
  positionals : List Argument
  onlyPositionals : Bool

namespace Reading

def start (grammar : Grammar) : Reading := ⟨[], none, false, grammar.positionals, false⟩

/-- An argument is given at most once. -/
def store (reading : Reading) (argument : Argument) (value : Except UsageError Value) :
    Except UsageError Reading :=
  if reading.found.any (·.1 == argument.name) then .error .argumentConflict
  else match value with
    | .ok value => .ok { reading with found := reading.found ++ [(argument.name, value)] }
    | .error e => .error e

/-- Reads the value that is pending; an option whose value never came has none. -/
def settle (reading : Reading) : Except UsageError Reading :=
  match reading.pending with
  | none => .ok reading
  | some (_, none) => .error .invalidValue
  | some (argument, some bytes) =>
    ({ reading with pending := none }).store argument
      (match argument.kind with
        | some kind => readValue kind bytes
        | none => .ok .present)

def withPending (reading : Reading) (argument : Argument) (bytes : Option Bytes) : Reading :=
  { reading with pending := some (argument, bytes), awaitsValue := bytes.isNone }

end Reading

def dash : UInt8 := 45

def equalsSign : UInt8 := 61

/-- Splits `--name=value` after its dashes. -/
def splitOption (bytes : Bytes) : Bytes × Option Bytes :=
  match bytes.dropWhile (· ≠ equalsSign) with
  | [] => (bytes, none)
  | _ :: value => (bytes.takeWhile (· ≠ equalsSign), some value)

def isHelp (argument : Argument) : Bool := argument.name == "help"

/-- Takes an option written with two dashes. -/
def takeLong (grammar : Grammar) (reading : Reading) (bytes : Bytes) : Except UsageError Reading :=
  let (name, value) := splitOption bytes
  match (Utf8.decode? name).bind grammar.option? with
  | none => .error .unknownArgument
  | some argument =>
    match argument.kind, value with
    | some kind, some value => do
      let settled ← reading.settle
      let next ← settled.store argument (readValue kind value)
      pure { next with awaitsValue := false }
    | some _, none => do
      let settled ← reading.settle
      pure (settled.withPending argument none)
    | none, some _ => .error .tooManyValues
    | none, none => do
      let settled ← reading.settle
      if isHelp argument then .error .displayHelp
      else
        let next ← settled.store argument (.ok .present)
        pure { next with awaitsValue := false }

/-- The only short option asks for help. -/
def takeShort (reading : Reading) (bytes : Bytes) : Except UsageError Reading :=
  if bytes.head? = some 104 then do
    let _ ← reading.settle
    .error .displayHelp
  else .error .unknownArgument

/-- A positional value without a position left. -/
def surplus (grammar : Grammar) (reading : Reading) (bytes : Bytes) : UsageError :=
  let isSubcommand := (Utf8.decode? bytes).any grammar.subcommands.contains
  if grammar.subcommands.isEmpty ∨ (reading.onlyPositionals ∧ isSubcommand) then .unknownArgument
  else .invalidSubcommand

def takePositional (grammar : Grammar) (reading : Reading) (bytes : Bytes) :
    Except UsageError Reading :=
  match reading.positionals with
  | [] => .error (surplus grammar reading bytes)
  | argument :: rest => do
    let settled ← reading.settle
    pure { settled.withPending argument (some bytes) with positionals := rest }

/-- Takes an argument that is no subcommand. -/
def take (grammar : Grammar) (reading : Reading) (bytes : Bytes) : Except UsageError Reading :=
  if reading.onlyPositionals then takePositional grammar reading bytes
  else match bytes with
    | [a, b] =>
      if a = dash ∧ b = dash then .ok { reading with onlyPositionals := true, awaitsValue := false }
      else takeOther bytes
    | bytes => takeOther bytes
where
  takeOther (bytes : Bytes) : Except UsageError Reading :=
    match bytes with
    | a :: b :: rest =>
      if a = dash ∧ b = dash then takeLong grammar reading rest
      else if a = dash then takeShort reading (b :: rest)
      else takeValue bytes
    | bytes => takeValue bytes
  takeValue (bytes : Bytes) : Except UsageError Reading :=
    match reading.awaitsValue, reading.pending with
    | true, some (argument, _) => .ok (reading.withPending argument (some bytes))
    | _, _ => takePositional grammar reading bytes

/-- `help` names subcommands of the commands it names; none of these has any. -/
def help (grammar : Grammar) (arguments : List Bytes) : UsageError :=
  match arguments with
  | [] => .displayHelp
  | [name] =>
    if (Utf8.decode? name).any grammar.subcommands.contains then .displayHelp
    else .invalidSubcommand
  | _ => .invalidSubcommand

/-- What the arguments of one command leave to a subcommand: its name and its arguments. -/
abbrev Rest := Option (String × List Bytes)

def subcommand? (grammar : Grammar) (reading : Reading) (bytes : Bytes) : Option String :=
  if reading.onlyPositionals ∨ reading.awaitsValue then none
  else (Utf8.decode? bytes).filter grammar.subcommands.contains

/-- Reads arguments up to the name of a subcommand. -/
def read (grammar : Grammar) : Reading → List Bytes → Except UsageError (Reading × Rest)
  | reading, [] => .ok (reading, none)
  | reading, bytes :: rest =>
    match subcommand? grammar reading bytes with
    | some name =>
      if name = "help" then .error (help grammar rest) else .ok (reading, some (name, rest))
    | none =>
      match take grammar reading bytes with
      | .ok next => read grammar next rest
      | .error e => .error e

/-- Reads the arguments of a command that has no subcommands. -/
def readAll (grammar : Grammar) (arguments : List Bytes) :
    Except UsageError (List (String × Value)) := do
  let (reading, _) ← read grammar (.start grammar) arguments
  let settled ← reading.settle
  if settled.positionals.isEmpty then pure settled.found else .error .missingRequiredArgument

end MerkleDir.Arguments
