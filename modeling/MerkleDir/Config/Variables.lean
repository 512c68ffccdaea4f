import MerkleDir.Config.Layer
import MerkleDir.Environment

/-!
# Settings from environment variables

A variable whose name starts with the program's name and two underscores sets the field that the rest
of its name leads to, each further pair of underscores being a step down.
-/
namespace MerkleDir.Config.Variables

def leading : String := "treesync__"

/-- Every pair of underscores, from the left, becomes a point. -/
def pointed : List Char → List Char
  | '_' :: '_' :: rest => '.' :: pointed rest
  | c :: rest => c :: pointed rest
  | [] => []

/-- The key that a variable sets. -/
def key? (name : String) : Option String :=
  let lower := (lowerCase name).toList
  let start := leading.toList
  if start.isPrefixOf lower then some (String.ofList (pointed (lower.drop start.length))) else none

def integer? (text : String) : Option Int :=
  (Decimal.integer? text.toList).filter fun n =>
    -Decimal.signedBound ≤ n ∧ n < Decimal.signedBound

/-- A truth value in any case, else an integer of 64 bits, else a real number, else a string. -/
def value (text : String) : Json :=
  let lower := text.map Char.toLower
  if lower = "true" then .bool true
  else if lower = "false" then .bool false
  else match integer? text with
    | some n => .integer n
    | none =>
      match Decimal.real? text.toList with
      | some x => .real x
      | none => .string text

def field? (entry : String × String) : Option (String × Json) :=
  (key? entry.1).map (·, value entry.2)

/-- The source that the environment is. -/
def source (env : Environment) : Json := .object (env.filterMap field?)

end MerkleDir.Config.Variables
