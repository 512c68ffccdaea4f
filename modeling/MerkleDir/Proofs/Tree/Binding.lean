import MerkleDir.Proofs.Tree.Levels

/-!
# The top binds the leaves

Two trees with one top have one sequence of leaves, whatever their shapes, if different inputs have
different digests, no leaf is the digest of a parent, and no leaf occurs twice. The last condition
cannot go: a last leaf is paired with itself, and so would be a repetition of it.
-/
namespace MerkleDir.MerkleTree

variable {algorithm : HashAlgorithm} {l r : List Digest}

def inputs (tree : MerkleTree) : List Bytes := tree.inputLevels.flatten

theorem mem_inputs_of_input? {tree : MerkleTree} {k i : Nat} {x : Bytes}
    (h : tree.input? k i = some x) : x ∈ tree.inputs := by
  obtain ⟨level, hlevel, hx⟩ := Option.bind_eq_some_iff.mp h
  exact List.mem_flatten.mpr ⟨level, List.mem_of_getElem? hlevel, List.mem_of_getElem? hx⟩

theorem mem_inputs_ofLeaves {leaves : List Digest} {k i : Nat} (hk : 2 ^ k < leaves.length)
    {x : Bytes} (hx : (pairInputs (levelOver algorithm leaves k))[i]? = some x) :
    x ∈ (ofLeaves algorithm leaves).inputs :=
  mem_inputs_of_input? ((input?_ofLeaves hk i).trans hx)

/-- An input in the one tree and a different one in the other have different digests. -/
def Separates (algorithm : HashAlgorithm) (l r : List Digest) : Prop :=
  ∀ x ∈ (ofLeaves algorithm l).inputs, ∀ y ∈ (ofLeaves algorithm r).inputs,
    algorithm.hash x = algorithm.hash y → x = y

/-- Node `i` of level `k` over `l` and node `j` of level `m` over `r` exist and have one digest. -/
def SameNode (algorithm : HashAlgorithm) (l r : List Digest) (k i m j : Nat) : Prop :=
  ∃ a b, (levelOver algorithm l k)[i]? = some a ∧ (levelOver algorithm r m)[j]? = some b ∧
    a.block = b.block

theorem input_of_sameNode (hsep : Separates algorithm l r) {k i m j : Nat}
    (hk : 2 ^ k < l.length) (hm : 2 ^ m < r.length)
    (h : SameNode algorithm l r (k + 1) i (m + 1) j) :
    ∃ x, (pairInputs (levelOver algorithm l k))[i]? = some x ∧
      (pairInputs (levelOver algorithm r m))[j]? = some x := by
  obtain ⟨a, b, ha, hb, hab⟩ := h
  rw [levelOver, getElem?_pairUp] at ha hb
  obtain ⟨x, hx, rfl⟩ := Option.map_eq_some_iff.mp ha
  obtain ⟨y, hy, rfl⟩ := Option.map_eq_some_iff.mp hb
  have hxy := hsep x (mem_inputs_ofLeaves hk hx) y (mem_inputs_ofLeaves hm hy) hab
  exact ⟨x, hx, hxy ▸ hy⟩

theorem children_of_sameNode (hsep : Separates algorithm l r) {k i m j : Nat}
    (hk : 2 ^ k < l.length) (hm : 2 ^ m < r.length)
    (h : SameNode algorithm l r (k + 1) i (m + 1) j) :
    ∃ a b, (levelOver algorithm l k)[2 * i]? = some a ∧
      (levelOver algorithm r m)[2 * j]? = some b ∧ a.block = b.block ∧
      (((levelOver algorithm l k)[2 * i + 1]?).getD a).block =
        (((levelOver algorithm r m)[2 * j + 1]?).getD b).block := by
  obtain ⟨x, hx, hy⟩ := input_of_sameNode hsep hk hm h
  rw [getElem?_pairInputs] at hx hy
  obtain ⟨a, ha, hax⟩ := Option.map_eq_some_iff.mp hx
  obtain ⟨b, hb, hby⟩ := Option.map_eq_some_iff.mp hy
  obtain ⟨hfirst, hsecond⟩ := parentInput_inj.mp (hax.trans hby.symm)
  exact ⟨a, b, ha, hb, hfirst, hsecond⟩

/-- Nodes with one digest have one digest at the start of what they cover, `s` levels below. -/
theorem sameNode_leftmost (hsep : Separates algorithm l r) {s k i m j : Nat}
    (hk : k + s ≤ Nat.clog 2 l.length) (hm : m + s ≤ Nat.clog 2 r.length)
    (h : SameNode algorithm l r (k + s) i (m + s) j) :
    SameNode algorithm l r k (i * 2 ^ s) m (j * 2 ^ s) := by
  induction s generalizing i j with
  | zero => simpa using h
  | succ s ih =>
    have hkw := (Nat.lt_clog_iff_pow_lt one_lt_two).mp (show k + s < Nat.clog 2 l.length by omega)
    have hmw := (Nat.lt_clog_iff_pow_lt one_lt_two).mp (show m + s < Nat.clog 2 r.length by omega)
    obtain ⟨a, b, ha, hb, hab, -⟩ := children_of_sameNode hsep hkw hmw h
    have hbelow := ih (by omega) (by omega) ⟨a, b, ha, hb, hab⟩
    rwa [show i * 2 ^ (s + 1) = 2 * i * 2 ^ s by ring,
      show j * 2 ^ (s + 1) = 2 * j * 2 ^ s by ring]

theorem eq_of_sameNode (hsep : Separates algorithm l l) (hnodup : (l.map Digest.block).Nodup)
    {k i j : Nat} (hk : k ≤ Nat.clog 2 l.length) (h : SameNode algorithm l l k i k j) : i = j := by
  rw [← Nat.zero_add k] at h
  obtain ⟨a, b, ha, hb, hab⟩ := sameNode_leftmost hsep (by omega) (by omega) h
  have hmap (p : Nat) : (l.map Digest.block)[p]? =
      ((levelOver algorithm l 0)[p]?).map Digest.block := by rw [List.getElem?_map]; rfl
  have hi := hmap (i * 2 ^ k)
  have hj := hmap (j * 2 ^ k)
  rw [ha, Option.map_some, hab] at hi
  rw [hb, Option.map_some] at hj
  obtain ⟨hlt, -⟩ := List.getElem?_eq_some_iff.mp hi
  have hpos := (List.getElem?_inj hlt hnodup).mp (hi.trans hj.symm)
  exact Nat.eq_of_mul_eq_mul_right (by positivity) hpos

def blocksAt (algorithm : HashAlgorithm) (leaves : List Digest) (k : Nat) : List Block :=
  (levelOver algorithm leaves k).map Digest.block

theorem length_blocksAt (leaves : List Digest) (k : Nat) :
    (blocksAt algorithm leaves k).length = (levelOver algorithm leaves k).length := by
  simp [blocksAt]

theorem sameNode_iff_blocksAt {k i m j : Nat} : SameNode algorithm l r k i m j ↔
    ∃ b, (blocksAt algorithm l k)[i]? = some b ∧ (blocksAt algorithm r m)[j]? = some b := by
  simp only [SameNode, blocksAt, List.getElem?_map, Option.map_eq_some_iff]
  constructor
  · rintro ⟨a, b, ha, hb, hab⟩
    exact ⟨b.block, ⟨a, ha, hab⟩, b, hb, rfl⟩
  · rintro ⟨-, ⟨a, ha, rfl⟩, b, hb, hba⟩
    exact ⟨a, b, ha, hb, hba.symm⟩

theorem sameNode_of_blocksAt_eq {k m i : Nat} (h : blocksAt algorithm l k = blocksAt algorithm r m)
    (hi : i < (levelOver algorithm l k).length) : SameNode algorithm l r k i m i := by
  rw [← length_blocksAt] at hi
  exact sameNode_iff_blocksAt.mpr ⟨_, List.getElem?_eq_getElem hi, by
    rw [← h, List.getElem?_eq_getElem hi]⟩

/-- A level is not wider than another below the same nodes: its last node would be a repetition. -/
theorem length_le_of_blocksAt_eq (hsep : Separates algorithm l r) (hself : Separates algorithm r r)
    (hnodup : (r.map Digest.block).Nodup) {k : Nat} (hl : 2 ^ k < l.length) (hr : 2 ^ k < r.length)
    (h : blocksAt algorithm l (k + 1) = blocksAt algorithm r (k + 1)) :
    (levelOver algorithm r k).length ≤ (levelOver algorithm l k).length := by
  by_contra hlt
  have hwidth := congrArg List.length h
  simp only [length_blocksAt, levelOver, length_pairUp] at hwidth
  obtain ⟨m, hm⟩ : ∃ m, (levelOver algorithm l k).length = 2 * m + 1 :=
    ⟨(levelOver algorithm l k).length / 2, by omega⟩
  have hi : m < (levelOver algorithm l (k + 1)).length := by
    rw [levelOver, length_pairUp]
    omega
  obtain ⟨a, b, ha, hb, hab, hsecond⟩ :=
    children_of_sameNode hsep hl hr (sameNode_of_blocksAt_eq h hi)
  have hnone : (levelOver algorithm l k)[2 * m + 1]? = none :=
    List.getElem?_eq_none (by omega)
  have hsome : (levelOver algorithm r k)[2 * m + 1]? = some _ :=
    List.getElem?_eq_getElem (by omega)
  rw [hnone, hsome, Option.getD_none, Option.getD_some] at hsecond
  have hdepth := (Nat.lt_clog_iff_pow_lt one_lt_two).mpr hr
  have heq := eq_of_sameNode hself hnodup hdepth.le ⟨b, _, hb, hsome, hab.symm.trans hsecond⟩
  omega

theorem blocksAt_eq_of_succ (hsep : Separates algorithm l r) {k : Nat}
    (hl : 2 ^ k < l.length) (hr : 2 ^ k < r.length)
    (hlen : (levelOver algorithm l k).length = (levelOver algorithm r k).length)
    (h : blocksAt algorithm l (k + 1) = blocksAt algorithm r (k + 1)) :
    blocksAt algorithm l k = blocksAt algorithm r k := by
  apply List.ext_getElem? fun i => ?_
  rcases Nat.lt_or_ge i (levelOver algorithm l k).length with hi | hi
  · have hup : i / 2 < (levelOver algorithm l (k + 1)).length := by
      rw [levelOver, length_pairUp]
      omega
    obtain ⟨a, b, ha, hb, hfirst, hsecond⟩ :=
      children_of_sameNode hsep hl hr (sameNode_of_blocksAt_eq h hup)
    simp only [blocksAt, List.getElem?_map]
    rcases Nat.mod_two_eq_zero_or_one i with hpar | hpar
    · rw [show i = 2 * (i / 2) by omega, ha, hb, Option.map_some, Option.map_some, hfirst]
    · have hi' : 2 * (i / 2) + 1 < (levelOver algorithm l k).length := by omega
      rw [List.getElem?_eq_getElem hi', List.getElem?_eq_getElem (hlen ▸ hi')] at hsecond
      rw [show i = 2 * (i / 2) + 1 by omega, List.getElem?_eq_getElem hi',
        List.getElem?_eq_getElem (hlen ▸ hi'), Option.map_some, Option.map_some]
      exact congrArg some hsecond
  · rw [List.getElem?_eq_none (by rw [length_blocksAt]; omega),
      List.getElem?_eq_none (by rw [length_blocksAt]; omega)]

theorem Separates.symm (h : Separates algorithm l r) : Separates algorithm r l :=
  fun x hx y hy hxy => (h y hy x hx hxy.symm).symm

def LeavesApart (algorithm : HashAlgorithm) (l r : List Digest) : Prop :=
  ∀ d ∈ l, ∀ x ∈ (ofLeaves algorithm r).inputs, d.block ≠ algorithm.hash x

/-- The node in which the shorter of two trees ends is not a leaf of it. -/
theorem depth_le_of_sameNode (hsep : Separates algorithm l r) (hleaves : LeavesApart algorithm l r)
    (h : SameNode algorithm l r (Nat.clog 2 l.length) 0 (Nat.clog 2 r.length) 0) :
    Nat.clog 2 r.length ≤ Nat.clog 2 l.length := by
  by_contra hlt
  obtain ⟨m, hm⟩ : ∃ m, Nat.clog 2 r.length = m + 1 + Nat.clog 2 l.length :=
    ⟨Nat.clog 2 r.length - Nat.clog 2 l.length - 1, by omega⟩
  have hstart : SameNode algorithm l r 0 0 (m + 1) 0 := by
    have hpath := sameNode_leftmost (k := 0) (m := m + 1) (s := Nat.clog 2 l.length) hsep
      (by omega) (by omega) (by rwa [Nat.zero_add, ← hm])
    rwa [Nat.zero_mul] at hpath
  obtain ⟨a, b, ha, hb, hab⟩ := hstart
  rw [levelOver, getElem?_pairUp] at hb
  obtain ⟨x, hx, rfl⟩ := Option.map_eq_some_iff.mp hb
  have hwidth := (Nat.lt_clog_iff_pow_lt one_lt_two).mp (show m < Nat.clog 2 r.length by omega)
  exact hleaves a (List.mem_of_getElem? ha) x (mem_inputs_ofLeaves hwidth hx) hab

structure Distinguishes (algorithm : HashAlgorithm) (l r : List Digest) : Prop where
  separates : Separates algorithm l r
  left : Separates algorithm l l
  right : Separates algorithm r r
  leavesLeft : LeavesApart algorithm l r
  leavesRight : LeavesApart algorithm r l

theorem blocksAt_clog_eq (hl : l ≠ []) (hr : r ≠ [])
    (h : SameNode algorithm l r (Nat.clog 2 l.length) 0 (Nat.clog 2 r.length) 0) :
    blocksAt algorithm l (Nat.clog 2 l.length) = blocksAt algorithm r (Nat.clog 2 r.length) := by
  obtain ⟨a, ha⟩ := List.length_eq_one_iff.mp (length_levelOver_clog algorithm hl)
  obtain ⟨b, hb⟩ := List.length_eq_one_iff.mp (length_levelOver_clog algorithm hr)
  obtain ⟨c, d, hc, hd, hcd⟩ := h
  rw [ha, List.getElem?_cons_zero, Option.some_inj] at hc
  rw [hb, List.getElem?_cons_zero, Option.some_inj] at hd
  rw [blocksAt, blocksAt, ha, hb, hc, hd, List.map_singleton, List.map_singleton, hcd]

/-- Trees of one depth that are equal at the top are so at every level. -/
theorem blocksAt_eq_of_clog_eq (h : Distinguishes algorithm l r)
    (hnl : (l.map Digest.block).Nodup) (hnr : (r.map Digest.block).Nodup)
    (hdepth : Nat.clog 2 l.length = Nat.clog 2 r.length)
    (htop : blocksAt algorithm l (Nat.clog 2 l.length) =
      blocksAt algorithm r (Nat.clog 2 l.length)) {s k : Nat} (hk : k + s = Nat.clog 2 l.length) :
    blocksAt algorithm l k = blocksAt algorithm r k := by
  -- downwards, over the distance from the top
  induction s generalizing k with
  | zero =>
    obtain rfl : k = Nat.clog 2 l.length := by omega
    exact htop
  | succ s ih =>
    have hup := ih (show k + 1 + s = Nat.clog 2 l.length by omega)
    have hwl := (Nat.lt_clog_iff_pow_lt one_lt_two).mp (show k < Nat.clog 2 l.length by omega)
    have hwr := (Nat.lt_clog_iff_pow_lt one_lt_two).mp (show k < Nat.clog 2 r.length by omega)
    have hlen := le_antisymm
      (length_le_of_blocksAt_eq h.separates.symm h.left hnl hwr hwl hup.symm)
      (length_le_of_blocksAt_eq h.separates h.right hnr hwl hwr hup)
    exact blocksAt_eq_of_succ h.separates hwl hwr hlen hup

/-- Two built trees with one top have the same leaves. -/
theorem blocks_eq_of_top_eq (h : Distinguishes algorithm l r) (hl : l ≠ []) (hr : r ≠ [])
    (hnl : (l.map Digest.block).Nodup) (hnr : (r.map Digest.block).Nodup)
    (htop : (ofLeaves algorithm l).top.block = (ofLeaves algorithm r).top.block) :
    l.map Digest.block = r.map Digest.block := by
  have hsame : SameNode algorithm l r (Nat.clog 2 l.length) 0 (Nat.clog 2 r.length) 0 :=
    ⟨_, _, top_ofLeaves _ hl, top_ofLeaves _ hr, htop⟩
  have hsame' : SameNode algorithm r l (Nat.clog 2 r.length) 0 (Nat.clog 2 l.length) 0 :=
    ⟨_, _, top_ofLeaves _ hr, top_ofLeaves _ hl, htop.symm⟩
  have hdepth : Nat.clog 2 l.length = Nat.clog 2 r.length :=
    le_antisymm (depth_le_of_sameNode h.separates.symm h.leavesRight hsame')
      (depth_le_of_sameNode h.separates h.leavesLeft hsame)
  have hlevel := blocksAt_clog_eq hl hr hsame
  rw [← hdepth] at hlevel
  exact blocksAt_eq_of_clog_eq h hnl hnr hdepth hlevel (Nat.zero_add _)

theorem top_ofLeaves_nil : (ofLeaves algorithm []).top = .empty := by
  simp [ofLeaves, topOf, upperLevels]

theorem top_ofLeaves_ofBlock {leaves : List Digest} (hne : leaves ≠ [])
    (h : ∀ d ∈ leaves, ∃ b, d = .ofBlock b) :
    ∃ b, (ofLeaves algorithm leaves).top = .ofBlock b := by
  have htop := top_ofLeaves algorithm hne
  cases hk : Nat.clog 2 leaves.length with
  | zero =>
    rw [hk] at htop
    exact h _ (List.mem_of_getElem? htop)
  | succ k =>
    rw [hk, levelOver, getElem?_pairUp] at htop
    obtain ⟨x, -, hx⟩ := Option.map_eq_some_iff.mp htop
    exact ⟨_, hx.symm⟩

end MerkleDir.MerkleTree
