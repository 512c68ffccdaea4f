namespace MerkleDir

/-- Links are resolved, hashed as entries of their own, or passed over. -/
inductive SymlinkPolicy where
  | follow
  | copy
  | ignore
  deriving DecidableEq, Repr, Inhabited

namespace SymlinkPolicy

def all : List SymlinkPolicy := [.follow, .copy, .ignore]

def text : SymlinkPolicy → String
  | .follow => "follow"
  | .copy => "copy"
  | .ignore => "ignore"

def ofText? (text : String) : Option SymlinkPolicy :=
  all.find? (·.text == text)

/-- The text in lower case, where it names no policy. -/
structure Unknown where
  text : String
  deriving DecidableEq, Repr

def Unknown.message (e : Unknown) : String :=
  "Invalid symlink policy: " ++ e.text ++ " (must be 'follow', 'copy' or 'ignore')"

/-- Reads a policy in any case of ASCII letters; `copy` has a second name. -/
def parse (text : String) : Except Unknown SymlinkPolicy :=
  let lower := text.map Char.toLower
  if lower = "copy-as-leaf" then .ok .copy
  else match ofText? lower with
    | some policy => .ok policy
    | none => .error ⟨lower⟩

end SymlinkPolicy

/-- Leaves are ordered by raw name, or as the directory lists them. -/
inductive LeafOrder where
  | name
  | enumeration
  deriving DecidableEq, Repr, Inhabited

namespace LeafOrder

def all : List LeafOrder := [.name, .enumeration]

def text : LeafOrder → String
  | .name => "name"
  | .enumeration => "enumeration"

def ofText? (text : String) : Option LeafOrder :=
  all.find? (·.text == text)

end LeafOrder

structure SnapshotOptions where
  symlinks : SymlinkPolicy
  leafOrder : LeafOrder
  maxLinkDepth : Nat
  deriving DecidableEq, Repr

namespace SnapshotOptions

def default : SnapshotOptions := ⟨.follow, .name, 32⟩

instance : Inhabited SnapshotOptions := ⟨default⟩

end SnapshotOptions
end MerkleDir
