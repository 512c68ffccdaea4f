import MerkleDir.Hash.Blake3
import MerkleDir.Text.Quoted

/-!
# Digests

A digest is a block of 32 bytes, or the empty digest, which stands for "nothing hashed yet" and has
a block of zeros. Digests are compared by their blocks; their text form is lower-case hexadecimal,
and the empty text for the empty digest.
-/
namespace MerkleDir

inductive Digest where
  | empty
  | ofBlock (block : Block)

namespace Digest

instance : Inhabited Digest := ⟨.empty⟩

def block : Digest → Block
  | .empty => Vector.replicate 32 0
  | .ofBlock b => b

def bytes (d : Digest) : Bytes := d.block.toList

def isEmpty : Digest → Bool
  | .empty => true
  | .ofBlock _ => false

/-- The empty digest equals 32 zero bytes. -/
instance : BEq Digest := ⟨fun a b => a.block == b.block⟩

theorem beq_iff_block {a b : Digest} : (a == b) = true ↔ a.block = b.block :=
  beq_iff_eq (a := a.block)

instance : EquivBEq Digest where
  rfl := beq_iff_block.mpr rfl
  symm h := beq_iff_block.mpr (beq_iff_block.mp h).symm
  trans h h' := beq_iff_block.mpr ((beq_iff_block.mp h).trans (beq_iff_block.mp h'))

theorem length_bytes (d : Digest) : d.bytes.length = 32 := by simp [bytes]

theorem bytes_inj {a b : Digest} : a.bytes = b.bytes ↔ a.block = b.block :=
  Vector.toList_inj

def make (algorithm : HashAlgorithm) (input : Bytes) : Digest :=
  .ofBlock (algorithm.hash input)

/-- Blocks are ordered as sequences of unsigned bytes. -/
def compare (a b : Digest) : Ordering := Bytes.compare a.bytes b.bytes

instance : Ord Digest := ⟨compare⟩

/-- What takes in lengths and bytes to make one value of them. -/
structure Hasher (State : Type) where
  takeLength : State → Nat → State
  takeBytes : State → Bytes → State

/-- A digest is hashed as its block is: first how long it is, then its bytes. -/
def feed {State : Type} (hasher : Hasher State) (state : State) (d : Digest) : State :=
  hasher.takeBytes (hasher.takeLength state d.bytes.length) d.bytes

def toHex : Digest → String
  | .empty => ""
  | .ofBlock b => Hex.encode b.toList

inductive ParseError where
  | invalidHex (cause : Hex.DecodeError)
  | invalidLength (actual : Nat)
  deriving DecidableEq, Repr

def ofBytes (bytes : Bytes) : Except ParseError Digest :=
  if h : bytes.length = 32 then .ok (.ofBlock ⟨bytes.toArray, by simp [h]⟩)
  else .error (.invalidLength bytes.length)

/-- The empty text is the empty digest; any other text holds 64 hexadecimal digits. -/
def ofHex (text : String) : Except ParseError Digest :=
  match Utf8.encode text with
  | [] => .ok .empty
  | digits =>
    match Hex.decode digits with
    | .error cause => .error (.invalidHex cause)
    | .ok bytes => ofBytes bytes

namespace ParseError

/-- An offending byte is quoted as the character of its value. -/
def message : ParseError → String
  | .invalidHex .oddLength => "Invalid digest hex: Odd number of digits"
  | .invalidHex (.invalidDigit byte position) =>
    "Invalid digest hex: Invalid character " ++ Quoted.ofChar (Char.ofNat byte.toNat) ++
      " at position " ++ toString position
  | .invalidLength actual =>
    "Invalid digest length: expected 32 bytes, got " ++ toString actual

end ParseError

def debugText : Digest → String
  | .empty => "Digest(empty)"
  | d => "Digest(" ++ d.toHex ++ ")"

/-- Sorts by block; digests with equal blocks keep their order. -/
def sort (digests : List Digest) : List Digest :=
  digests.mergeSort fun a b => a.compare b != .gt

/-- The digests of a list with each block once. -/
def distinct (digests : List Digest) : List Digest :=
  digests.foldl (fun seen d => if seen.contains d then seen else seen ++ [d]) []

end Digest
end MerkleDir
