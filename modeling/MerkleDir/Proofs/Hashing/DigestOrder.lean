import MerkleDir.Proofs.Hashing.Inputs

/-!
# The order of digests

Digests are ordered, told apart and hashed by their blocks. A block is written with two digits for
each byte, and the digits are in the order of their values, so the text forms are in the order of the
blocks.
-/
namespace MerkleDir

namespace Bytes

theorem compare_eq_lt_iff {a b : Bytes} :
    compare a b = .lt ↔ a.map UInt8.toNat < b.map UInt8.toNat := by
  fun_induction compare a b with
  | case1 => simp
  | case2 => simp
  | case3 => simp
  | case4 x xs y ys hxy =>
    exact iff_of_true rfl (List.cons_lt_cons_iff.mpr (Or.inl (UInt8.lt_iff_toNat_lt.mp hxy)))
  | case5 x xs y ys hxy hyx =>
    have hlt := UInt8.lt_iff_toNat_lt.mp hyx
    simp [List.cons_lt_cons_iff, hlt.not_gt, hlt.ne']
  | case6 x xs y ys hxy hyx ih =>
    have heq : x = y := UInt8.le_antisymm (UInt8.not_lt.mp hyx) (UInt8.not_lt.mp hxy)
    simp [heq, ih]

theorem compare_cons_self (x : UInt8) (a b : Bytes) : compare (x :: a) (x :: b) = compare a b := by
  rw [compare, if_neg (UInt8.lt_irrefl x), if_neg (UInt8.lt_irrefl x)]

theorem compare_cons_of_lt {x y : UInt8} (h : x < y) (a b : Bytes) :
    compare (x :: a) (y :: b) = .lt := by
  rw [compare, if_pos h]

theorem compare_ne_gt_trans {a b c : Bytes} (hab : compare a b ≠ .gt) (hbc : compare b c ≠ .gt) :
    compare a c ≠ .gt := by
  cases hab' : compare a b with
  | gt => exact absurd hab' hab
  | eq => rwa [compare_eq_iff.mp hab']
  | lt =>
    cases hbc' : compare b c with
    | gt => exact absurd hbc' hbc
    | eq => rwa [← compare_eq_iff.mp hbc']
    | lt =>
      rw [compare_trans hab' hbc']
      exact nofun

end Bytes

namespace Hex

def digitByte (n : Nat) : UInt8 := UInt8.ofNat (digit n).toNat

theorem digitByte_lt_iff {m n : Nat} (hm : m < 16) (hn : n < 16) :
    digitByte m < digitByte n ↔ m < n := by
  have hall : ∀ m < 16, ∀ n < 16, digitByte m < digitByte n ↔ m < n := by decide
  exact hall m hm n hn

theorem encode_encode_cons (b : UInt8) (bytes : Bytes) : Utf8.encode (encode (b :: bytes)) =
    digitByte (b.toNat / 16) :: digitByte (b.toNat % 16) :: Utf8.encode (encode bytes) := by
  rw [encode_encode, encode_encode]
  rfl

theorem compare_encode_of_lt {x y : UInt8} (h : x < y) (a b : Bytes) :
    Bytes.compare (Utf8.encode (encode (x :: a))) (Utf8.encode (encode (y :: b))) = .lt := by
  have hlt := UInt8.lt_iff_toNat_lt.mp h
  have hx := x.toNat_lt
  have hy := y.toNat_lt
  rw [encode_encode_cons, encode_encode_cons]
  rcases lt_or_eq_of_le (Nat.div_le_div_right (c := 16) hlt.le) with hhigh | hhigh
  · exact Bytes.compare_cons_of_lt ((digitByte_lt_iff (by omega) (by omega)).mpr hhigh) _ _
  · rw [hhigh, Bytes.compare_cons_self]
    exact Bytes.compare_cons_of_lt ((digitByte_lt_iff (by omega) (by omega)).mpr (by omega)) _ _

theorem compare_encode (a b : Bytes) :
    Bytes.compare (Utf8.encode (encode a)) (Utf8.encode (encode b)) = Bytes.compare a b := by
  fun_induction Bytes.compare a b with
  | case1 => rfl
  | case2 y b => rw [encode_encode_cons]; rfl
  | case3 x a => rw [encode_encode_cons]; rfl
  | case4 x a y b hxy => exact compare_encode_of_lt hxy a b
  | case5 x a y b hxy hyx => rw [← Bytes.compare_swap, compare_encode_of_lt hyx b a]; rfl
  | case6 x a y b hxy hyx ih =>
    obtain rfl : x = y := UInt8.le_antisymm (UInt8.not_lt.mp hyx) (UInt8.not_lt.mp hxy)
    rw [encode_encode_cons, encode_encode_cons, Bytes.compare_cons_self, Bytes.compare_cons_self, ih]

end Hex

namespace Utf8

def compare (s t : String) : Ordering := Bytes.compare (encode s) (encode t)

def sort (texts : List String) : List String :=
  texts.mergeSort fun s t => compare s t != .gt

end Utf8

namespace Digest

section Order

variable {x y z : Digest}

theorem compare_eq_iff : x.compare y = .eq ↔ (x == y) = true := by
  rw [compare, Bytes.compare_eq_iff, bytes_inj, beq_iff_block]

theorem compare_swap (x y : Digest) : (x.compare y).swap = y.compare x := Bytes.compare_swap _ _

theorem compare_eq_gt_iff : x.compare y = .gt ↔ y.compare x = .lt := by
  rw [← compare_swap x y]
  cases x.compare y <;> decide

/-- Digests that are equal are hashed alike by every hasher, and no others. -/
theorem feed_eq_iff : (∀ (State : Type) (hasher : Hasher State) (state : State),
    x.feed hasher state = y.feed hasher state) ↔ (x == y) = true := by
  rw [beq_iff_block, ← bytes_inj]
  constructor
  · exact fun h => h Bytes ⟨fun state _ => state, fun _ bytes => bytes⟩ []
  · intro h State hasher state
    rw [feed, feed, h]

theorem compare_toHex (b c : Block) :
    Utf8.compare (ofBlock b).toHex (ofBlock c).toHex = (ofBlock b).compare (ofBlock c) :=
  Hex.compare_encode b.toList c.toList

end Order

theorem isAtMost_iff {x y : Digest} : (x.compare y != .gt) = true ↔ x.compare y ≠ .gt := bne_iff_ne

theorem isAtMost_trans (x y z : Digest) (hxy : (x.compare y != .gt) = true)
    (hyz : (y.compare z != .gt) = true) : (x.compare z != .gt) = true := by
  rw [isAtMost_iff] at *
  exact Bytes.compare_ne_gt_trans hxy hyz

theorem isAtMost_total (x y : Digest) :
    (x.compare y != .gt || y.compare x != .gt) = true := by
  rw [Bool.or_eq_true, isAtMost_iff, isAtMost_iff]
  by_cases h : x.compare y = .gt
  · rw [compare_eq_gt_iff.mp h]
    exact Or.inr nofun
  · exact Or.inl h

section Sorting

variable (digests : List Digest)

theorem sort_perm : (sort digests).Perm digests := List.mergeSort_perm _ _

theorem pairwise_sort : (sort digests).Pairwise fun x y => x.compare y ≠ .gt :=
  (List.pairwise_mergeSort isAtMost_trans isAtMost_total digests).imp isAtMost_iff.mp

theorem filter_sort (d : Digest) :
    (sort digests).filter (· == d) = digests.filter (· == d) := by
  have hequal : (digests.filter (· == d)).Pairwise fun x y => (x.compare y != .gt) = true := by
    refine List.pairwise_of_forall_mem_list fun x hx y hy => ?_
    have hxy : (x == y) = true :=
      BEq.trans (List.mem_filter.mp hx).2 (BEq.symm (List.mem_filter.mp hy).2)
    rw [compare_eq_iff.mpr hxy]
    rfl
  have hsublist := (List.sublist_mergeSort isAtMost_trans isAtMost_total hequal
    List.filter_sublist).filter (· == d)
  rw [List.filter_filter] at hsublist
  simp only [Bool.and_self] at hsublist
  exact (hsublist.eq_of_length ((sort_perm digests).filter _).length_eq.symm).symm

theorem map_toHex_sort (blocks : List Block) :
    (sort (blocks.map ofBlock)).map toHex = Utf8.sort ((blocks.map ofBlock).map toHex) := by
  refine List.map_mergeSort fun x hx y hy => ?_
  obtain ⟨b, -, rfl⟩ := List.mem_map.mp hx
  obtain ⟨c, -, rfl⟩ := List.mem_map.mp hy
  rw [compare_toHex]

end Sorting

/-- Of two digests one is less or they are equal, never two of these; a lesser digest is less than all
that are greater; equal digests are hashed alike; and the order is that of the blocks as words over
numbers. For digests that are not empty it is the order of their text forms, so that sorting them
sorts the texts, and sorting only moves digests, none past an equal one. -/
theorem order_consistent :
    (∀ x y : Digest,
      (x.compare y = .lt ∧ (x == y) = false ∧ y.compare x ≠ .lt) ∨
      (x.compare y ≠ .lt ∧ (x == y) = true ∧ y.compare x ≠ .lt) ∨
      (x.compare y ≠ .lt ∧ (x == y) = false ∧ y.compare x = .lt)) ∧
    (∀ x y z : Digest, x.compare y = .lt → y.compare z = .lt → x.compare z = .lt) ∧
    (∀ x y : Digest, (x == y) = true ↔ ∀ (State : Type) (hasher : Hasher State) (state : State),
      x.feed hasher state = y.feed hasher state) ∧
    (∀ x y : Digest,
      (x.compare y = .lt ↔ x.bytes.map UInt8.toNat < y.bytes.map UInt8.toNat) ∧
      (x.compare y = .eq ↔ x.bytes = y.bytes) ∧
      (x.compare y = .gt ↔ y.bytes.map UInt8.toNat < x.bytes.map UInt8.toNat)) ∧
    (∀ b c : Block, (ofBlock b).compare (ofBlock c) =
      Utf8.compare (ofBlock b).toHex (ofBlock c).toHex) ∧
    (∀ blocks : List Block, (sort (blocks.map ofBlock)).map toHex =
      Utf8.sort ((blocks.map ofBlock).map toHex)) ∧
    ∀ digests : List Digest, (sort digests).Perm digests ∧
      ((sort digests).Pairwise fun x y => x.compare y ≠ .gt) ∧
      ∀ d, (sort digests).filter (· == d) = digests.filter (· == d) := by
  refine ⟨fun x y => ?_, fun x y z => Bytes.compare_trans, fun x y => feed_eq_iff.symm,
    fun x y => ⟨Bytes.compare_eq_lt_iff, Bytes.compare_eq_iff, ?_⟩,
    fun b c => (compare_toHex b c).symm, map_toHex_sort,
    fun digests => ⟨sort_perm digests, pairwise_sort digests, filter_sort digests⟩⟩
  · rw [← compare_swap x y, ← Bool.not_eq_true, ← compare_eq_iff]
    cases x.compare y <;> decide
  · rw [compare_eq_gt_iff]
    exact Bytes.compare_eq_lt_iff

/-- The empty digest, one whose first byte is 1 and whose last is 255, and one that starts with 2. -/
theorem compare_ofThree :
    empty.compare (ofBlock ((Vector.replicate 32 0).set 0 1 |>.set 31 255)) = .lt ∧
      (ofBlock ((Vector.replicate 32 0).set 0 1 |>.set 31 255)).compare
        (ofBlock ((Vector.replicate 32 0).set 0 2)) = .lt ∧
      empty.compare (ofBlock ((Vector.replicate 32 0).set 0 2)) = .lt := by
  have hlow : empty.compare (ofBlock ((Vector.replicate 32 0).set 0 1 |>.set 31 255)) = .lt := by
    decide
  have hhigh : (ofBlock ((Vector.replicate 32 0).set 0 1 |>.set 31 255)).compare
      (ofBlock ((Vector.replicate 32 0).set 0 2)) = .lt := by
    decide
  exact ⟨hlow, hhigh, order_consistent.2.1 _ _ _ hlow hhigh⟩

end Digest
end MerkleDir
