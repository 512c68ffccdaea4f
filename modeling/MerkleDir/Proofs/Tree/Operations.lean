import MerkleDir.Proofs.Table
import MerkleDir.Proofs.Tree.Comparison

/-!
# Trees that a program makes

A program makes trees, copies them and builds them anew, from their own leaves or from others. Each of
its trees is either not built or the tree over the leaves that were last supplied, with nothing left
of the levels of an earlier build. A comparison of two such trees never looks outside a level.
-/
namespace MerkleDir.MerkleTree

variable {algorithm : HashAlgorithm}

/-- Node `i` of the level above `below`: made of two nodes, or of the last node twice. -/
def parentAt (algorithm : HashAlgorithm) (below : List Digest) (i : Nat) : Option Digest :=
  (below[2 * i]?).map fun left => .parent algorithm left ((below[2 * i + 1]?).getD left)

/-- The tree comes to its top `depth` levels above the leaves. -/
structure Rises (algorithm : HashAlgorithm) (tree : MerkleTree) (depth : Nat) : Prop where
  levels : tree.levels = (List.range (depth + 1)).map fun k => tree.leaves.length ⌈/⌉ 2 ^ k
  width : ∀ k ≤ depth, ∃ level, tree.level? k = some level ∧
    level.length = tree.leaves.length ⌈/⌉ 2 ^ k
  node : ∀ k below above, tree.level? k = some below → tree.level? (k + 1) = some above →
    ∀ i, above[i]? = parentAt algorithm below i
  top : tree.level? depth = some [tree.top]
  above : ∀ k > depth, tree.level? k = none

/-- A tree is not built, or has no leaves, or rises in as few levels as it can. -/
structure IsWellFormed (algorithm : HashAlgorithm) (tree : MerkleTree) : Prop where
  unbuilt : tree.isBuilt = false → tree.leaves ≠ [] ∧ tree.upper = [] ∧ tree.top = .empty
  empty : tree.leaves = [] → tree.isBuilt = true ∧ tree.levels = [] ∧ tree.upper = [] ∧
    tree.top = .empty
  built : tree.isBuilt = true → tree.leaves ≠ [] →
    ∃ depth, IsLeast {d | tree.leaves.length ⌈/⌉ 2 ^ d = 1} depth ∧ Rises algorithm tree depth

theorem lt_ceilDiv_two_pow {n k i : Nat} : i < n ⌈/⌉ 2 ^ k ↔ i * 2 ^ k < n := by
  rw [← not_le, ceilDiv_le_iff_le_mul (Nat.two_pow_pos k), not_le, Nat.mul_comm]

theorem length_levelOver (algorithm : HashAlgorithm) (leaves : List Digest) (k : Nat) :
    (levelOver algorithm leaves k).length = leaves.length ⌈/⌉ 2 ^ k :=
  eq_of_forall_lt_iff fun i => (lt_length_levelOver algorithm leaves k i).trans
    lt_ceilDiv_two_pow.symm

theorem isLeast_clog {n : Nat} (hn : 0 < n) : IsLeast {d | n ⌈/⌉ 2 ^ d = 1} (Nat.clog 2 n) := by
  have hone (d : Nat) : n ⌈/⌉ 2 ^ d = 1 ↔ n ≤ 2 ^ d := by
    have hpos : 0 < n ⌈/⌉ 2 ^ d := lt_ceilDiv_two_pow.mpr (by omega)
    have hle : n ⌈/⌉ 2 ^ d ≤ 1 ↔ n ≤ 2 ^ d := by
      rw [ceilDiv_le_iff_le_mul (Nat.two_pow_pos d), Nat.mul_one]
    omega
  refine ⟨(hone _).mpr (Nat.le_pow_clog one_lt_two n), fun d hd => ?_⟩
  exact (Nat.clog_le_iff_le_pow one_lt_two).mpr ((hone d).mp hd)

theorem levelOver_top {leaves : List Digest} (hne : leaves ≠ []) :
    levelOver algorithm leaves (Nat.clog 2 leaves.length) = [(ofLeaves algorithm leaves).top] := by
  obtain ⟨d, hd⟩ := List.length_eq_one_iff.mp (length_levelOver_clog algorithm hne)
  have htop := top_ofLeaves algorithm hne
  rw [hd, List.getElem?_cons_zero, Option.some_inj] at htop
  rw [hd, htop]

theorem level?_ofLeaves_eq_none {leaves : List Digest} {k : Nat}
    (hk : Nat.clog 2 leaves.length < k) : (ofLeaves algorithm leaves).level? k = none := by
  obtain ⟨k, rfl⟩ := Nat.exists_eq_add_one_of_ne_zero (Nat.ne_of_gt (Nat.zero_lt_of_lt hk))
  have hpow : ¬ 2 ^ k < leaves.length := by
    rw [← Nat.lt_clog_iff_pow_lt one_lt_two]
    omega
  rw [level?, ofLeaves, getElem?_upperLevels, if_neg hpow]

theorem getElem?_pairUp_eq_parentAt (below : List Digest) (i : Nat) :
    (pairUp algorithm below)[i]? = parentAt algorithm below i := by
  rw [getElem?_pairUp, getElem?_pairInputs, Option.map_map]
  rfl

theorem map_length_upperLevels (leaves : List Digest) :
    (upperLevels algorithm leaves).map List.length =
      (List.range (Nat.clog 2 leaves.length)).map fun k => leaves.length ⌈/⌉ 2 ^ (k + 1) := by
  apply List.ext_getElem?
  intro k
  rw [List.getElem?_map, List.getElem?_map, getElem?_upperLevels]
  by_cases hk : 2 ^ k < leaves.length
  · have hclog := (Nat.lt_clog_iff_pow_lt one_lt_two).mpr hk
    rw [if_pos hk, List.getElem?_range hclog, Option.map_some, Option.map_some, length_levelOver]
  · have hclog := (Nat.lt_clog_iff_pow_lt one_lt_two).not.mpr hk
    rw [if_neg hk, List.getElem?_eq_none (by simpa using hclog)]
    rfl

theorem levels_ofLeaves_eq_map {leaves : List Digest} (hne : leaves ≠ []) :
    (ofLeaves algorithm leaves).levels =
      (List.range (Nat.clog 2 leaves.length + 1)).map fun k => leaves.length ⌈/⌉ 2 ^ k := by
  rw [levels_ofLeaves hne, map_length_upperLevels, List.range_succ_eq_map, List.map_cons,
    List.map_map, pow_zero, ceilDiv_one]
  rfl

theorem rises_ofLeaves {leaves : List Digest} (hne : leaves ≠ []) :
    Rises algorithm (ofLeaves algorithm leaves) (Nat.clog 2 leaves.length) where
  levels := levels_ofLeaves_eq_map hne
  width := fun k hk => ⟨_, level?_ofLeaves algorithm hne hk, length_levelOver algorithm leaves k⟩
  node := by
    intro k below above hbelow habove i
    have hk : k + 1 ≤ Nat.clog 2 leaves.length := by
      by_contra hlt
      rw [level?_ofLeaves_eq_none (by omega)] at habove
      cases habove
    rw [level?_ofLeaves algorithm hne (by omega), Option.some_inj] at hbelow
    rw [level?_ofLeaves algorithm hne hk, Option.some_inj] at habove
    rw [← habove, ← hbelow, levelOver, getElem?_pairUp_eq_parentAt]
  top := by rw [level?_ofLeaves algorithm hne le_rfl, levelOver_top hne]
  above := fun _ hk => level?_ofLeaves_eq_none hk

theorem ofLeaves_nil : ofLeaves algorithm [] = unbuilt [] := by
  rw [ofLeaves, upperLevels]
  rfl

theorem isWellFormed_ofLeaves (leaves : List Digest) :
    IsWellFormed algorithm (ofLeaves algorithm leaves) where
  unbuilt := nofun
  empty := by
    rintro rfl
    rw [ofLeaves_nil]
    exact ⟨rfl, rfl, rfl, rfl⟩
  built := fun _ hne => ⟨_, isLeast_clog (List.length_pos_iff.mpr hne), rises_ofLeaves hne⟩

theorem isWellFormed_unbuilt (leaves : List Digest) : IsWellFormed algorithm (.unbuilt leaves) where
  unbuilt := fun h => ⟨List.isEmpty_eq_false_iff.mp h, rfl, rfl⟩
  empty := by
    rintro rfl
    exact ⟨rfl, rfl, rfl, rfl⟩
  built := fun h hne => absurd (List.isEmpty_iff.mp h) hne

structure Held where
  tree : MerkleTree
  supplied : List Digest

inductive Action where
  | new
  | withLeaves (leaves : List Digest)
  | fromLeaves (leaves : List Digest)
  | build (place : Nat) (leaves : List Digest)
  | buildFromSelf (place : Nat)
  | clone (place : Nat)

namespace Held

def buildFromSelf (algorithm : HashAlgorithm) (held : Held) : Held :=
  ⟨held.tree.build algorithm, held.supplied⟩

/-- The levels of the tree stay as they are until it is built. -/
def build (algorithm : HashAlgorithm) (leaves : List Digest) (held : Held) : Held :=
  buildFromSelf algorithm ⟨{ held.tree with leaves }, leaves⟩

/-- The tree is not built, or is built over all leaves supplied and over nothing else. -/
def IsMade (algorithm : HashAlgorithm) (held : Held) : Prop :=
  held.tree = .unbuilt held.supplied ∨ held.tree = .ofLeaves algorithm held.supplied

end Held

def perform (algorithm : HashAlgorithm) (held : List Held) : Action → List Held
  | .new => held ++ [⟨default, []⟩]
  | .withLeaves leaves => held ++ [⟨.unbuilt leaves, leaves⟩]
  | .fromLeaves leaves => held ++ [Held.buildFromSelf algorithm ⟨.unbuilt leaves, leaves⟩]
  | .build place leaves => held.modify place (Held.build algorithm leaves)
  | .buildFromSelf place => held.modify place (Held.buildFromSelf algorithm)
  | .clone place => held ++ held[place]?.toList

def history (algorithm : HashAlgorithm) (actions : List Action) : List Held :=
  actions.foldl (perform algorithm) []

namespace Held

variable {held other : Held}

theorem IsMade.leaves_eq (h : held.IsMade algorithm) : held.tree.leaves = held.supplied := by
  rcases h with h | h <;> rw [h] <;> rfl

theorem IsMade.buildFromSelf (h : held.IsMade algorithm) :
    (held.buildFromSelf algorithm).IsMade algorithm := by
  refine Or.inr ?_
  show MerkleTree.build algorithm held.tree = _
  rw [MerkleTree.build, h.leaves_eq]
  rfl

theorem isMade_build (leaves : List Digest) : (held.build algorithm leaves).IsMade algorithm :=
  Or.inr rfl

theorem IsMade.isWellFormed (h : held.IsMade algorithm) : held.tree.IsWellFormed algorithm := by
  rcases h with h | h
  · exact h ▸ isWellFormed_unbuilt held.supplied
  · exact h ▸ isWellFormed_ofLeaves held.supplied

theorem IsMade.isBuilt_iff (h : held.IsMade algorithm) :
    held.tree.isBuilt = true ↔ held.tree = .ofLeaves algorithm held.supplied := by
  refine ⟨fun hbuilt => ?_, fun heq => by rw [heq]; rfl⟩
  rcases h with h | h
  · rw [h] at hbuilt
    have hnil : held.supplied = [] := List.isEmpty_iff.mp hbuilt
    rw [h, hnil, ofLeaves_nil]
  · exact h

theorem hasSameShape_iff (h : held.IsMade algorithm) (h' : other.IsMade algorithm) :
    held.tree.hasSameShape other.tree = true ↔ held.supplied.length = other.supplied.length ∧
      held.tree.isBuilt = true ∧ other.tree.isBuilt = true := by
  rw [hasSameShape, Bool.and_eq_true, Bool.and_eq_true, beq_iff_eq, and_assoc]
  refine and_congr_left ?_
  rintro ⟨hbuilt, hbuilt'⟩
  rw [h.isBuilt_iff.mp hbuilt, h'.isBuilt_iff.mp hbuilt', levels_ofLeaves_eq_iff]

/-- Two trees are compared to the end, or the comparison is refused on account of their shapes. -/
theorem collectChangedLeaves_cases (h : held.IsMade algorithm) (h' : other.IsMade algorithm)
    (out : List Digest) :
    (held.tree.hasSameShape other.tree = true ∧ ∃ changed found,
        held.tree.collectChangedLeaves other.tree out = some (.ok changed, found)) ∨
      held.tree.hasSameShape other.tree = false ∧
        held.tree.collectChangedLeaves other.tree out =
          some (.error ⟨held.tree.levels, other.tree.levels⟩, out) := by
  cases hshape : held.tree.hasSameShape other.tree with
  | true =>
    obtain ⟨hlen, hbuilt, hbuilt'⟩ := (hasSameShape_iff h h').mp hshape
    rw [h.isBuilt_iff.mp hbuilt, h'.isBuilt_iff.mp hbuilt', collectChangedLeaves_ofLeaves hlen]
    exact Or.inl ⟨rfl, _, _, rfl⟩
  | false =>
    refine Or.inr ⟨rfl, ?_⟩
    rw [collectChangedLeaves, hshape]
    rfl

end Held

theorem isMade_perform {table : List Held} (h : ∀ held ∈ table, held.IsMade algorithm)
    (action : Action) : ∀ held ∈ perform algorithm table action, held.IsMade algorithm := by
  cases action with
  | new => exact Table.forall_mem_append_singleton h (Or.inl rfl)
  | withLeaves leaves => exact Table.forall_mem_append_singleton h (Or.inl rfl)
  | fromLeaves leaves => exact Table.forall_mem_append_singleton h (Or.inr rfl)
  | build place leaves => exact Table.forall_mem_modify h (fun _ _ => Held.isMade_build leaves) place
  | buildFromSelf place => exact Table.forall_mem_modify h (fun _ hmade => hmade.buildFromSelf) place
  | clone place => exact Table.forall_mem_append_copy h place

theorem isMade_history (actions : List Action) :
    ∀ held ∈ history algorithm actions, held.IsMade algorithm := by
  induction actions using List.reverseRecOn with
  | nil => exact nofun
  | append_singleton actions action ih =>
    rw [history, List.foldl_append]
    exact isMade_perform ih action

/-- Every tree that a program makes holds the leaves last supplied and is well formed. Any two of
them can be compared: no node is looked for outside its level, and the comparison fails exactly if
the numbers of leaves differ or a tree is not built. -/
theorem isWellFormed_of_history (actions : List Action) {held : Held}
    (hheld : held ∈ history algorithm actions) :
    held.tree.leaves = held.supplied ∧ held.tree.IsWellFormed algorithm ∧
      ∀ (others : List Action) (other : Held), other ∈ history algorithm others →
        ∀ out : List Digest, ∃ outcome found,
          held.tree.collectChangedLeaves other.tree out = some (outcome, found) ∧
          ((∃ e, outcome = .error e) ↔ held.tree.leaves.length ≠ other.tree.leaves.length ∨
            held.tree.isBuilt = false ∨ other.tree.isBuilt = false) := by
  have h := isMade_history actions held hheld
  refine ⟨h.leaves_eq, h.isWellFormed, fun others other hother out => ?_⟩
  have h' := isMade_history others other hother
  have hshape : held.tree.hasSameShape other.tree = false ↔
      held.tree.leaves.length ≠ other.tree.leaves.length ∨ held.tree.isBuilt = false ∨
        other.tree.isBuilt = false := by
    rw [h.leaves_eq, h'.leaves_eq, ← Bool.not_eq_true, Held.hasSameShape_iff h h', not_and_or,
      not_and_or, Bool.not_eq_true, Bool.not_eq_true]
  rw [← hshape]
  obtain ⟨hsame, changed, found, heq⟩ | ⟨hdiffer, heq⟩ := Held.collectChangedLeaves_cases h h' out
  · exact ⟨_, _, heq, by simp [hsame]⟩
  · exact ⟨_, _, heq, by simp [hdiffer]⟩

def twoLeaves : List Digest := [repeated 1, repeated 2]

def builtTwice : List Action := [.fromLeaves (threeLeaves 3), .clone 0, .build 0 twoLeaves]

theorem history_builtTwice : history lastBlock builtTwice =
    [⟨.ofLeaves lastBlock twoLeaves, twoLeaves⟩,
      ⟨.ofLeaves lastBlock (threeLeaves 3), threeLeaves 3⟩] := rfl

theorem isWellFormed_builtTwice :
    (⟨.ofLeaves lastBlock twoLeaves, twoLeaves⟩ : Held) ∈ history lastBlock builtTwice ∧
      (MerkleTree.ofLeaves lastBlock twoLeaves).IsWellFormed lastBlock ∧
      ∃ outcome found, (MerkleTree.ofLeaves lastBlock twoLeaves).collectChangedLeaves
        (.ofLeaves lastBlock (threeLeaves 3)) [] = some (outcome, found) ∧ ∃ e, outcome = .error e := by
  have hheld : (⟨.ofLeaves lastBlock twoLeaves, twoLeaves⟩ : Held) ∈
      history lastBlock builtTwice := by simp [history_builtTwice]
  have hother : (⟨.ofLeaves lastBlock (threeLeaves 3), threeLeaves 3⟩ : Held) ∈
      history lastBlock builtTwice := by simp [history_builtTwice]
  obtain ⟨-, hwell, hcompare⟩ := isWellFormed_of_history builtTwice hheld
  obtain ⟨outcome, found, heq, hrefused⟩ := hcompare builtTwice _ hother []
  exact ⟨hheld, hwell, outcome, found, heq, hrefused.mpr (Or.inl (by decide))⟩

end MerkleDir.MerkleTree
