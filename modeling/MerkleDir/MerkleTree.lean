import MerkleDir.EntryDigest

/-!
# Merkle trees

A binary tree over a sequence of leaves, built bottom-up. A level pairs the nodes below it; a node
without a partner is paired with itself. Two trees of one shape are compared from the top downwards,
and nothing below equal nodes is visited.
-/
namespace MerkleDir

structure MerkleTree where
  leaves : List Digest
  upper : List (List Digest)
  top : Digest
  isBuilt : Bool

namespace MerkleTree

/-- A sequence without leaves needs no building. -/
def unbuilt (leaves : List Digest) : MerkleTree :=
  ⟨leaves, [], .empty, leaves.isEmpty⟩

instance : Inhabited MerkleTree := ⟨unbuilt []⟩

/-- The inputs of the nodes above a level. -/
def pairInputs : List Digest → List Bytes
  | left :: right :: rest => parentInput left right :: pairInputs rest
  | [last] => [parentInput last last]
  | [] => []

def pairUp (algorithm : HashAlgorithm) (level : List Digest) : List Digest :=
  (pairInputs level).map (Digest.make algorithm)

theorem length_pairInputs (level : List Digest) :
    (pairInputs level).length = (level.length + 1) / 2 := by
  fun_induction pairInputs level with
  | case1 _ _ _ ih => simp only [List.length_cons, ih]; omega
  | case2 => simp
  | case3 => rfl

theorem length_pairUp (algorithm : HashAlgorithm) (level : List Digest) :
    (pairUp algorithm level).length = (level.length + 1) / 2 := by
  simp only [pairUp, List.length_map, length_pairInputs]

/-- The levels above `level`, up to the one that holds a single node. -/
def upperLevels (algorithm : HashAlgorithm) (level : List Digest) : List (List Digest) :=
  if _h : 1 < level.length then
    let next := pairUp algorithm level
    next :: upperLevels algorithm next
  else []
  termination_by level.length
  decreasing_by rw [length_pairUp]; omega

/-- The node at the end of the last level. -/
def topOf (leaves : List Digest) (upper : List (List Digest)) : Digest :=
  ((upper.getLast?.getD leaves).head?).getD .empty

def ofLeaves (algorithm : HashAlgorithm) (leaves : List Digest) : MerkleTree :=
  let upper := upperLevels algorithm leaves
  ⟨leaves, upper, topOf leaves upper, true⟩

def build (algorithm : HashAlgorithm) (tree : MerkleTree) : MerkleTree :=
  ofLeaves algorithm tree.leaves

def isEmpty (tree : MerkleTree) : Bool := tree.leaves.isEmpty

def levels (tree : MerkleTree) : List Nat :=
  if tree.isEmpty then [] else tree.leaves.length :: tree.upper.map List.length

def nodeCount (tree : MerkleTree) : Nat :=
  tree.upper.foldr (fun level count => level.length + count) tree.leaves.length

def level? (tree : MerkleTree) (k : Nat) : Option (List Digest) :=
  match k with
  | 0 => if tree.isEmpty then none else some tree.leaves
  | k + 1 => tree.upper[k]?

/-- The inputs of all nodes above the leaves, level by level. -/
def inputLevels (tree : MerkleTree) : List (List Bytes) :=
  (tree.leaves :: tree.upper).dropLast.map pairInputs

/-- The input of node `index` of the level above `level`. -/
def input? (tree : MerkleTree) (level index : Nat) : Option Bytes :=
  (tree.inputLevels[level]?).bind (·[index]?)

def differsFrom (tree other : MerkleTree) : Bool := tree.top != other.top

/-- The two trees have other shapes, or one of them is not built. -/
structure ShapeMismatch where
  left : List Nat
  right : List Nat
  deriving DecidableEq, Repr

def showCounts (counts : List Nat) : String :=
  "[" ++ ", ".intercalate (counts.map toString) ++ "]"

def ShapeMismatch.message (e : ShapeMismatch) : String :=
  "Structural mismatch: left tree levels " ++ showCounts e.left ++
    ", right tree levels " ++ showCounts e.right

def hasSameShape (tree other : MerkleTree) : Bool :=
  tree.levels == other.levels && tree.isBuilt && other.isBuilt

/-- The nodes of a level of `width` nodes that lie below node `index` of the next; a node paired with
itself has one child only. -/
def children (width index : Nat) : List Nat :=
  [2 * index, 2 * index + 1].filter (· < width)

/-- Visits node `index` of `level` in both trees. Equal nodes are passed over with all that is below
them; leaves that differ are put at the end of `out`, as `other` has them. A node outside its level
cannot be read, so there is no result then. -/
def descend (tree other : MerkleTree) (level index : Nat) (out : List Digest) :
    Option (List Digest) :=
  match tree.level? level, other.level? level with
  | some ours, some theirs =>
    match ours[index]?, theirs[index]? with
    | some a, some b =>
      if a == b then some out
      else match level with
        | 0 => some (out ++ [b])
        | below + 1 =>
          (children ((tree.level? below).elim 0 List.length) index).foldlM
            (fun out child => descend tree other below child out) out
    | _, _ => none
  | _, _ => some out

/-- Appends the leaves of `other` that the descent reaches to `out`, and tells whether there are any.
Where the shapes differ, `out` stays as it is. -/
def collectChangedLeaves (tree other : MerkleTree) (out : List Digest) :
    Option (Except ShapeMismatch Bool × List Digest) :=
  if tree.hasSameShape other then
    if tree.isEmpty then some (.ok false, out)
    else (tree.descend other tree.upper.length 0 out).map fun found =>
      (.ok (decide (out.length < found.length)), found)
  else some (.error ⟨tree.levels, other.levels⟩, out)

/-- The leaves of `other` that the descent reaches, in their order. Built trees have every node that
it reads. -/
def changedLeaves (tree other : MerkleTree) : Except ShapeMismatch (List Digest) :=
  match tree.collectChangedLeaves other [] with
  | some (.ok _, found) => .ok found
  | some (.error e, _) => .error e
  | none => .ok []

def debugText (tree : MerkleTree) : String :=
  "MerkleTree \x7b levels: " ++ showCounts tree.levels ++ ", top: " ++ tree.top.debugText ++
    ", built: " ++ toString tree.isBuilt ++ " \x7d"

end MerkleTree
end MerkleDir
