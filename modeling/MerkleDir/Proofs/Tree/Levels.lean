import Mathlib
import MerkleDir.MerkleTree

/-!
# Levels of a built tree

Level `k` over `n` leaves holds the nodes `i` with `i * 2 ^ k < n`, and there are `Nat.clog 2 n`
levels above the leaves. Node `i` of the next level is made of the nodes `2 * i` and `2 * i + 1`, or
of the first of them twice.
-/
namespace MerkleDir.MerkleTree

variable {algorithm : HashAlgorithm}

/-- Level `k` over `leaves`, as if pairing never stopped. -/
def levelOver (algorithm : HashAlgorithm) (leaves : List Digest) : Nat → List Digest
  | 0 => leaves
  | k + 1 => pairUp algorithm (levelOver algorithm leaves k)

theorem levelOver_pairUp (leaves : List Digest) (k : Nat) :
    levelOver algorithm (pairUp algorithm leaves) k = levelOver algorithm leaves (k + 1) := by
  induction k with
  | zero => rfl
  | succ k ih => rw [levelOver, ih]; rfl

theorem getElem?_pairInputs (level : List Digest) (i : Nat) :
    (pairInputs level)[i]? =
      (level[2 * i]?).map fun left => parentInput left ((level[2 * i + 1]?).getD left) := by
  fun_induction pairInputs level generalizing i with
  | case1 left right rest ih =>
    cases i with
    | zero => simp
    | succ i => simpa [Nat.mul_succ] using ih i
  | case2 last => cases i <;> simp [Nat.mul_succ]
  | case3 => simp

theorem getElem?_pairUp (algorithm : HashAlgorithm) (level : List Digest) (i : Nat) :
    (pairUp algorithm level)[i]? = ((pairInputs level)[i]?).map (Digest.make algorithm) := by
  simp [pairUp]

/-- Node `i` of level `k` covers the leaves from `i * 2 ^ k` on. -/
theorem lt_length_levelOver (algorithm : HashAlgorithm) (leaves : List Digest) (k i : Nat) :
    i < (levelOver algorithm leaves k).length ↔ i * 2 ^ k < leaves.length := by
  induction k generalizing i with
  | zero => simp [levelOver]
  | succ k ih =>
    have hi := ih (2 * i)
    rw [show 2 * i * 2 ^ k = i * 2 ^ (k + 1) by ring] at hi
    rw [← hi, levelOver, length_pairUp]
    omega

theorem length_levelOver_congr {l r : List Digest} (h : l.length = r.length) (k : Nat) :
    (levelOver algorithm l k).length = (levelOver algorithm r k).length := by
  induction k with
  | zero => exact h
  | succ k ih => simp only [levelOver, length_pairUp, ih]

theorem isSome_getElem?_levelOver (algorithm : HashAlgorithm) {leaves : List Digest} {k i : Nat}
    (h : i * 2 ^ k < leaves.length) : ∃ d, (levelOver algorithm leaves k)[i]? = some d :=
  ⟨_, List.getElem?_eq_getElem ((lt_length_levelOver algorithm leaves k i).mpr h)⟩

theorem getElem?_upperLevels (leaves : List Digest) (k : Nat) :
    (upperLevels algorithm leaves)[k]? =
      if 2 ^ k < leaves.length then some (levelOver algorithm leaves (k + 1)) else none := by
  fun_induction upperLevels algorithm leaves generalizing k with
  | case1 level h next ih =>
    cases k with
    | zero => simp [h, levelOver, next]
    | succ k =>
      rw [List.getElem?_cons_succ, ih, levelOver_pairUp, length_pairUp]
      have hp : 2 ^ k < (level.length + 1) / 2 ↔ 2 ^ (k + 1) < level.length := by
        rw [pow_succ]
        omega
      simp only [hp]
  | case2 level h =>
    have hp : ¬ 2 ^ k < level.length := by
      have := Nat.one_le_two_pow (n := k)
      omega
    simp [hp]

theorem length_upperLevels (algorithm : HashAlgorithm) (leaves : List Digest) :
    (upperLevels algorithm leaves).length = Nat.clog 2 leaves.length := by
  have h (k : Nat) : k < (upperLevels algorithm leaves).length ↔ k < Nat.clog 2 leaves.length := by
    rw [Nat.lt_clog_iff_pow_lt one_lt_two, ← not_le, ← List.getElem?_eq_none_iff,
      getElem?_upperLevels]
    simp
  exact le_antisymm (Nat.le_of_not_lt fun hlt => lt_irrefl _ ((h _).mp hlt))
    (Nat.le_of_not_lt fun hlt => lt_irrefl _ ((h _).mpr hlt))

theorem map_length_upperLevels_congr {l r : List Digest} (h : l.length = r.length) :
    (upperLevels algorithm l).map List.length = (upperLevels algorithm r).map List.length := by
  apply List.ext_getElem?
  intro k
  simp only [List.getElem?_map, getElem?_upperLevels, h]
  split_ifs
  · simp [length_levelOver_congr h]
  · rfl

theorem levels_ofLeaves {leaves : List Digest} (hne : leaves ≠ []) :
    (ofLeaves algorithm leaves).levels =
      leaves.length :: (upperLevels algorithm leaves).map List.length := by
  simp [levels, isEmpty, ofLeaves, hne]

theorem levels_ofLeaves_nil : (ofLeaves algorithm []).levels = [] := rfl

theorem levels_ofLeaves_eq_iff {l r : List Digest} :
    (ofLeaves algorithm l).levels = (ofLeaves algorithm r).levels ↔ l.length = r.length := by
  rcases eq_or_ne l [] with rfl | hl <;> rcases eq_or_ne r [] with rfl | hr
  · simp
  · simpa [levels_ofLeaves hr, levels_ofLeaves_nil] using (List.length_pos_iff.mpr hr).ne
  · simp [levels_ofLeaves hl, levels_ofLeaves_nil, hl]
  · rw [levels_ofLeaves hl, levels_ofLeaves hr]
    exact ⟨fun h => (List.cons.inj h).1,
      fun h => by rw [h, map_length_upperLevels_congr h]⟩

theorem hasSameShape_ofLeaves (l r : List Digest) :
    (ofLeaves algorithm l).hasSameShape (ofLeaves algorithm r) = decide (l.length = r.length) := by
  rw [Bool.eq_iff_iff]
  simp only [hasSameShape, Bool.and_eq_true, beq_iff_eq, decide_eq_true_eq]
  exact ⟨fun h => levels_ofLeaves_eq_iff.mp h.1.1,
    fun h => ⟨⟨levels_ofLeaves_eq_iff.mpr h, rfl⟩, rfl⟩⟩

theorem level?_ofLeaves (algorithm : HashAlgorithm) {leaves : List Digest} (hne : leaves ≠ [])
    {k : Nat} (hk : k ≤ Nat.clog 2 leaves.length) :
    (ofLeaves algorithm leaves).level? k = some (levelOver algorithm leaves k) := by
  cases k with
  | zero => simp [level?, isEmpty, ofLeaves, hne, levelOver]
  | succ k =>
    have hp := (Nat.lt_clog_iff_pow_lt one_lt_two).mp (Nat.lt_of_succ_le hk)
    simp [level?, ofLeaves, getElem?_upperLevels, hp]

theorem length_levelOver_clog (algorithm : HashAlgorithm) {leaves : List Digest}
    (hne : leaves ≠ []) :
    (levelOver algorithm leaves (Nat.clog 2 leaves.length)).length = 1 := by
  have hpos := List.length_pos_iff.mpr hne
  have hle := Nat.le_pow_clog one_lt_two leaves.length
  have h0 := lt_length_levelOver algorithm leaves (Nat.clog 2 leaves.length) 0
  have h1 := lt_length_levelOver algorithm leaves (Nat.clog 2 leaves.length) 1
  omega

theorem getLast?_upperLevels (leaves : List Digest) :
    (upperLevels algorithm leaves).getLast?.getD leaves =
      levelOver algorithm leaves (Nat.clog 2 leaves.length) := by
  rw [List.getLast?_eq_getElem?, length_upperLevels]
  cases hd : Nat.clog 2 leaves.length with
  | zero =>
    have hle := Nat.le_pow_clog one_lt_two leaves.length
    have hp : ¬ 1 < leaves.length := by simpa [hd] using hle
    simp [getElem?_upperLevels, hp, levelOver]
  | succ d =>
    have hp := (Nat.lt_clog_iff_pow_lt one_lt_two).mp (show d < Nat.clog 2 leaves.length by omega)
    simp [getElem?_upperLevels, hp]

theorem top_ofLeaves (algorithm : HashAlgorithm) {leaves : List Digest} (hne : leaves ≠ []) :
    (levelOver algorithm leaves (Nat.clog 2 leaves.length))[0]? =
      some (ofLeaves algorithm leaves).top := by
  have hl := length_levelOver_clog algorithm hne
  obtain ⟨d, hd⟩ := List.length_eq_one_iff.mp hl
  simp only [ofLeaves, topOf, getLast?_upperLevels, hd, List.head?_cons, Option.getD_some,
    List.getElem?_cons_zero]

theorem inputLevels_ofLeaves (leaves : List Digest) (k : Nat) :
    (ofLeaves algorithm leaves).inputLevels[k]? =
      if 2 ^ k < leaves.length then some (pairInputs (levelOver algorithm leaves k)) else none := by
  have hlen := length_upperLevels algorithm leaves
  simp only [inputLevels, ofLeaves, List.getElem?_map, List.getElem?_dropLast, List.length_cons,
    hlen, Nat.add_sub_cancel, Nat.lt_clog_iff_pow_lt one_lt_two]
  split_ifs with hp
  · cases k with
    | zero => simp [levelOver]
    | succ k =>
      have hk : 2 ^ k < leaves.length := by
        rw [pow_succ] at hp
        omega
      simp [getElem?_upperLevels, hk]
  · rfl

theorem input?_ofLeaves {leaves : List Digest} {k : Nat} (h : 2 ^ k < leaves.length) (i : Nat) :
    (ofLeaves algorithm leaves).input? k i = (pairInputs (levelOver algorithm leaves k))[i]? := by
  simp [input?, inputLevels_ofLeaves, h]

end MerkleDir.MerkleTree
