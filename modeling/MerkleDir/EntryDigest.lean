import MerkleDir.Digest
import MerkleDir.Timestamp

/-!
# What is hashed

The inputs of the three kinds of digest: a parent node hashes the blocks of its two children, an
entry its raw name, its relative parent and its time, a directory the hex of its top and its name.
-/
namespace MerkleDir

def parentInput (left right : Digest) : Bytes :=
  left.bytes ++ right.bytes

theorem parentInput_inj {a b c d : Digest} :
    parentInput a b = parentInput c d ↔ a.block = c.block ∧ b.block = d.block := by
  refine ⟨fun h => ?_, fun h => ?_⟩
  · obtain ⟨hac, hbd⟩ := List.append_inj h (by simp only [Digest.length_bytes])
    exact ⟨Digest.bytes_inj.mp hac, Digest.bytes_inj.mp hbd⟩
  · rw [parentInput, parentInput, Digest.bytes_inj.mpr h.1, Digest.bytes_inj.mpr h.2]

def entryInput (name : Bytes) (relativeParent : String) (modified : Timestamp) : Bytes :=
  name ++ Utf8.encode relativeParent ++ Utf8.encode modified.text

def directoryInput (top : Digest) (name : String) : Bytes :=
  Utf8.encode top.toHex ++ Utf8.encode name

namespace Digest

def parent (algorithm : HashAlgorithm) (left right : Digest) : Digest :=
  make algorithm (parentInput left right)

def entry (algorithm : HashAlgorithm) (name : Bytes) (relativeParent : String)
    (modified : Timestamp) : Digest :=
  make algorithm (entryInput name relativeParent modified)

def directory (algorithm : HashAlgorithm) (top : Digest) (name : String) : Digest :=
  make algorithm (directoryInput top name)

end Digest
end MerkleDir
