import MerkleDir.Hash.Algorithm

/-!
# BLAKE3

The default algorithm. Input is cut into chunks of 1024 bytes, a chunk into blocks of 64; chunks are
the leaves of a binary tree whose left subtrees are the largest complete ones. The last compression
carries the root flag and gives the 32 bytes of output.
-/
namespace MerkleDir.Blake3

abbrev Words (n : Nat) := Vector UInt32 n

def initial : Words 8 :=
  #v[0x6A09E667, 0xBB67AE85, 0x3C6EF372, 0xA54FF53A,
    0x510E527F, 0x9B05688C, 0x1F83D9AB, 0x5BE0CD19]

def chunkStart : UInt32 := 1
def chunkEnd : UInt32 := 2
def parentFlag : UInt32 := 4
def rootFlag : UInt32 := 8

def blockSize : Nat := 64
def chunkSize : Nat := 1024

def rotateRight (x : UInt32) (n : UInt32) : UInt32 :=
  (x >>> n) ||| (x <<< (32 - n))

/-- Mixes two message words into four words of the state. -/
def mix (v : Words 16) (a b c d : Fin 16) (x y : UInt32) : Words 16 :=
  let va := v[a] + v[b] + x
  let vd := rotateRight (v[d] ^^^ va) 16
  let vc := v[c] + vd
  let vb := rotateRight (v[b] ^^^ vc) 12
  let va := va + vb + y
  let vd := rotateRight (vd ^^^ va) 8
  let vc := vc + vd
  let vb := rotateRight (vb ^^^ vc) 7
  (((v.set a va).set b vb).set c vc).set d vd

/-- Columns first, then diagonals. -/
def round (v : Words 16) (m : Words 16) : Words 16 :=
  let v := mix v 0 4 8 12 m[0] m[1]
  let v := mix v 1 5 9 13 m[2] m[3]
  let v := mix v 2 6 10 14 m[4] m[5]
  let v := mix v 3 7 11 15 m[6] m[7]
  let v := mix v 0 5 10 15 m[8] m[9]
  let v := mix v 1 6 11 12 m[10] m[11]
  let v := mix v 2 7 8 13 m[12] m[13]
  mix v 3 4 9 14 m[14] m[15]

/-- The order in which the next round takes the message words. -/
def schedule (m : Words 16) : Words 16 :=
  #v[m[2], m[6], m[3], m[10], m[7], m[0], m[4], m[13],
    m[1], m[11], m[12], m[5], m[9], m[14], m[15], m[8]]

def rounds : Nat → Words 16 → Words 16 → Words 16
  | 0, v, _ => v
  | n + 1, v, m => rounds n (round v m) (schedule m)

/-- What one compression takes. -/
structure Node where
  chaining : Words 8
  block : Words 16
  counter : UInt64
  size : UInt32
  flags : UInt32

namespace Node

def compress (node : Node) : Words 8 :=
  let h := node.chaining
  let i := initial
  let start : Words 16 := #v[h[0], h[1], h[2], h[3], h[4], h[5], h[6], h[7],
    i[0], i[1], i[2], i[3], node.counter.toUInt32, (node.counter >>> 32).toUInt32,
    node.size, node.flags]
  let v := rounds 7 start node.block
  Vector.ofFn fun k : Fin 8 => v[k.castLE (by decide : 8 ≤ 16)] ^^^ v[k.natAdd 8]

def root (node : Node) : Words 8 :=
  { node with flags := node.flags ||| rootFlag }.compress

end Node

/-- Up to four bytes as a little-endian word. -/
def littleEndian (bytes : Bytes) : UInt32 :=
  (bytes.take 4).foldr (fun b w => (w <<< 8) ||| b.toUInt32) 0

def wordsFrom : Nat → Bytes → List UInt32
  | 0, _ => []
  | n + 1, bytes => littleEndian bytes :: wordsFrom n (bytes.drop 4)

theorem length_wordsFrom (n : Nat) (bytes : Bytes) : (wordsFrom n bytes).length = n := by
  induction n generalizing bytes with
  | zero => rfl
  | succ n ih => simp [wordsFrom, ih]

/-- A block of at most 64 bytes, filled up with zeros. -/
def blockWords (bytes : Bytes) : Words 16 :=
  ⟨(wordsFrom 16 bytes).toArray, by simp [length_wordsFrom]⟩

/-- The last compression of a chunk; the earlier ones feed its chaining value. -/
def chunkNode (counter : UInt64) (chaining : Words 8) (start : UInt32) (bytes : Bytes) : Node :=
  if bytes.length ≤ blockSize then
    ⟨chaining, blockWords bytes, counter, bytes.length.toUInt32, start ||| chunkEnd⟩
  else
    let node : Node := ⟨chaining, blockWords (bytes.take blockSize), counter, 64, start⟩
    chunkNode counter node.compress 0 (bytes.drop blockSize)
  termination_by bytes.length
  decreasing_by simp [blockSize] at *; omega

/-- The largest power of two below `n`, searched upwards from `p`. -/
def powerBelow (n p : Nat) (h : 0 < p) : Nat :=
  if p * 2 < n then powerBelow n (p * 2) (by omega) else p
  termination_by n - p

theorem powerBelow_pos (n p : Nat) (h : 0 < p) : 0 < powerBelow n p h := by
  fun_induction powerBelow n p h with
  | case1 _ _ _ ih => exact ih
  | case2 => assumption

theorem powerBelow_lt (n p : Nat) (h : 0 < p) (hp : p < n) : powerBelow n p h < n := by
  fun_induction powerBelow n p h with
  | case1 _ _ _ ih => exact ih (by assumption)
  | case2 => assumption

def chunkCount (size : Nat) : Nat := (size + chunkSize - 1) / chunkSize

/-- The number of chunks that go left of the root of a tree over `size` bytes. -/
def leftChunks (size : Nat) : Nat := powerBelow (chunkCount size) 1 (by decide)

theorem leftChunks_pos (size : Nat) : 0 < leftChunks size := powerBelow_pos ..

theorem leftChunks_lt {size : Nat} (h : chunkSize < size) : leftChunks size * chunkSize < size := by
  have hc : 1 < chunkCount size := by simp only [chunkCount, chunkSize] at *; omega
  have hp := powerBelow_lt (chunkCount size) 1 (by decide) hc
  change leftChunks size < chunkCount size at hp
  simp only [chunkCount, chunkSize] at *
  omega

def parentNode (left right : Words 8) : Node :=
  ⟨initial, ⟨left.toArray ++ right.toArray, by simp⟩, 0, 64, parentFlag⟩

/-- The root of the tree over `bytes`, whose first chunk has number `counter`. -/
def treeNode (counter : Nat) (bytes : Bytes) : Node :=
  if h : bytes.length ≤ chunkSize then
    chunkNode counter.toUInt64 initial chunkStart bytes
  else
    let count := leftChunks bytes.length
    have := leftChunks_pos bytes.length
    have := leftChunks_lt (Nat.lt_of_not_le h)
    parentNode (treeNode counter (bytes.take (count * chunkSize))).compress
      (treeNode (counter + count) (bytes.drop (count * chunkSize))).compress
  termination_by bytes.length
  decreasing_by
    all_goals simp only [List.length_take, List.length_drop, chunkSize] at *
    all_goals omega

def wordBytes (w : UInt32) : Vector UInt8 4 :=
  #v[w.toUInt8, (w >>> 8).toUInt8, (w >>> 16).toUInt8, (w >>> 24).toUInt8]

def hash (bytes : Bytes) : Block :=
  ((treeNode 0 bytes).root.map wordBytes).flatten

end MerkleDir.Blake3

namespace MerkleDir.HashAlgorithm

def blake3 : HashAlgorithm := ⟨Blake3.hash⟩

end MerkleDir.HashAlgorithm
