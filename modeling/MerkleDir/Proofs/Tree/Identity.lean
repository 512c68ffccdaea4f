import MerkleDir.Proofs.Tree.Binding
import MerkleDir.Proofs.Tree.Comparison

namespace MerkleDir.MerkleTree

variable {algorithm : HashAlgorithm} {l r : List Digest}

def parents (tree : MerkleTree) : List Digest := tree.upper.flatten

theorem upperLevels_eq_map (leaves : List Digest) :
    upperLevels algorithm leaves =
      (leaves :: upperLevels algorithm leaves).dropLast.map (pairUp algorithm) := by
  fun_induction upperLevels algorithm leaves with
  | case1 level h next ih =>
    rw [List.dropLast_cons_of_ne_nil (List.cons_ne_nil _ _), List.map_cons, ← ih]
  | case2 level h => rfl

theorem parents_ofLeaves (leaves : List Digest) :
    (ofLeaves algorithm leaves).parents =
      (ofLeaves algorithm leaves).inputs.map (Digest.make algorithm) := by
  have hlevels : (ofLeaves algorithm leaves).upper =
      (ofLeaves algorithm leaves).inputLevels.map (List.map (Digest.make algorithm)) := by
    simp only [ofLeaves, inputLevels, List.map_map]
    exact upperLevels_eq_map leaves
  rw [parents, inputs, hlevels, List.map_flatten]

theorem top_mem (hne : l ≠ []) :
    (ofLeaves algorithm l).top ∈ l ++ (ofLeaves algorithm l).parents := by
  have htop := top_ofLeaves algorithm hne
  cases hk : Nat.clog 2 l.length with
  | zero =>
    rw [hk] at htop
    exact List.mem_append_left _ (List.mem_of_getElem? htop)
  | succ k =>
    rw [hk] at htop
    have hwidth := (Nat.lt_clog_iff_pow_lt one_lt_two).mp (show k < Nat.clog 2 l.length by omega)
    have hlevel : (ofLeaves algorithm l).upper[k]? = some (levelOver algorithm l (k + 1)) := by
      rw [ofLeaves, getElem?_upperLevels, if_pos hwidth]
    exact List.mem_append_right _
      (List.mem_flatten.mpr ⟨_, List.mem_of_getElem? hlevel, List.mem_of_getElem? htop⟩)

/-- What two builds may not mix up: the inputs of parents, leaves with parents, and a digest with
the block of the empty one. -/
structure KeepsApart (algorithm : HashAlgorithm) (l r : List Digest) : Prop where
  injective : Set.InjOn algorithm.hash
    {x | x ∈ (ofLeaves algorithm l).inputs ++ (ofLeaves algorithm r).inputs}
  leaves : ∀ d ∈ l ++ r, ∀ p ∈ (ofLeaves algorithm l).parents ++ (ofLeaves algorithm r).parents,
    d.block ≠ p.block
  nonzero : ∀ d ∈ (l ++ (ofLeaves algorithm l).parents) ++ (r ++ (ofLeaves algorithm r).parents),
    d.block ≠ Vector.replicate 32 0

namespace KeepsApart

theorem symm (h : KeepsApart algorithm l r) : KeepsApart algorithm r l where
  injective := by simpa only [List.mem_append, or_comm] using h.injective
  leaves := fun d hd p hp => by
    rw [List.mem_append, or_comm, ← List.mem_append] at hd hp
    exact h.leaves d hd p hp
  nonzero := fun d hd => by
    rw [List.mem_append, or_comm, ← List.mem_append] at hd
    exact h.nonzero d hd

variable (h : KeepsApart algorithm l r)

include h

theorem distinguishes : Distinguishes algorithm l r := by
  have hapart {m n : List Digest} (hm : m ⊆ l ++ r)
      (hn : (ofLeaves algorithm n).parents ⊆
        (ofLeaves algorithm l).parents ++ (ofLeaves algorithm r).parents) :
      LeavesApart algorithm m n := by
    intro d hd x hx
    refine h.leaves d (hm hd) (.make algorithm x) (hn ?_)
    rw [parents_ofLeaves]
    exact List.mem_map_of_mem hx
  constructor
  · exact fun x hx y hy => h.injective (List.mem_append_left _ hx) (List.mem_append_right _ hy)
  · exact fun x hx y hy => h.injective (List.mem_append_left _ hx) (List.mem_append_left _ hy)
  · exact fun x hx y hy => h.injective (List.mem_append_right _ hx) (List.mem_append_right _ hy)
  · exact hapart (List.subset_append_left _ _) (List.subset_append_right _ _)
  · exact hapart (List.subset_append_right _ _) (List.subset_append_left _ _)

theorem map_ofBlock : (l.map Digest.block).map .ofBlock = l := by
  rw [List.map_map]
  refine (List.map_congr_left fun d hd => ?_).trans (List.map_id l)
  cases d with
  | ofBlock b => rfl
  | empty =>
    have hzero := h.nonzero .empty (List.mem_append_left _ (List.mem_append_left _ hd))
    exact absurd rfl hzero

theorem nodup_blocks (hl : l.Nodup) : (l.map Digest.block).Nodup :=
  .of_map _ (by rwa [h.map_ofBlock])

/-- Only the empty tree has the block of zeros at its top. -/
theorem top_block_ne (hne : l ≠ []) :
    (ofLeaves algorithm l).top.block ≠ (ofLeaves algorithm []).top.block := by
  rw [top_ofLeaves_nil]
  exact h.nonzero _ (List.mem_append_left _ (top_mem hne))

end KeepsApart

/-- Two tops are equal only over the same leaves in the same order, be the shapes what they may. -/
theorem differsFrom_ofLeaves_eq_false_iff (hl : l.Nodup) (hr : r.Nodup)
    (h : KeepsApart algorithm l r) :
    (ofLeaves algorithm l).differsFrom (ofLeaves algorithm r) = false ↔ l = r := by
  rw [differsFrom, bne, Bool.not_eq_false', Digest.beq_iff_block]
  refine ⟨fun htop => ?_, fun heq => by rw [heq]⟩
  rcases eq_or_ne l [] with rfl | hlne <;> rcases eq_or_ne r [] with rfl | hrne
  · rfl
  · exact absurd htop.symm (h.symm.top_block_ne hrne)
  · exact absurd htop (h.top_block_ne hlne)
  · have hblocks := blocks_eq_of_top_eq h.distinguishes hlne hrne (h.nodup_blocks hl)
      (h.symm.nodup_blocks hr) htop
    rw [← h.map_ofBlock, hblocks, h.symm.map_ofBlock]

def weighted : HashAlgorithm :=
  ⟨fun input => Vector.ofFn fun i => input.getD i 0 + 3 * input.getD (32 + i) 0 + 100⟩

def fourLeaves : List Digest := threeLeaves 3 ++ [repeated 4]

theorem keepsApart_fourLeaves : KeepsApart weighted (threeLeaves 3) fourLeaves where
  injective := by
    have hinputs : ∀ x ∈ (ofLeaves weighted (threeLeaves 3)).inputs ++
          (ofLeaves weighted fourLeaves).inputs,
        ∀ y ∈ (ofLeaves weighted (threeLeaves 3)).inputs ++ (ofLeaves weighted fourLeaves).inputs,
        weighted.hash x = weighted.hash y → x = y := by decide +kernel
    exact fun x hx y hy => hinputs x hx y hy
  leaves := by decide +kernel
  nonzero := by decide +kernel

theorem differsFrom_fourLeaves :
    (ofLeaves weighted (threeLeaves 3)).differsFrom (ofLeaves weighted fourLeaves) = true := by
  have hthree : (threeLeaves 3).Nodup := .of_map Digest.block (by decide +kernel)
  have hfour : fourLeaves.Nodup := .of_map Digest.block (by decide +kernel)
  rw [← Bool.not_eq_false, differsFrom_ofLeaves_eq_false_iff hthree hfour keepsApart_fourLeaves]
  exact fun h => absurd (congrArg List.length h) (by decide)

end MerkleDir.MerkleTree
