import MerkleDir.Toml.DateTime

/-!
# TOML as it is written

A document is a list of statements, each a header or an assignment to a dotted key. Whether they agree
with each other is not settled here.
-/
namespace MerkleDir.Toml

/-- The parts of a dotted key. -/
abbrev KeyPath := List String

inductive Term where
  | bool (value : Bool)
  | integer (value : Int)
  | real (value : Binary64)
  | string (text : String)
  | time (value : DateTime)
  | array (items : List Term)
  | table (assignments : List (KeyPath × Term))

inductive Statement where
  | table (path : KeyPath)
  | element (path : KeyPath)
  | assignment (path : KeyPath) (value : Term)

end MerkleDir.Toml
