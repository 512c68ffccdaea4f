import MerkleDir.Proofs.Tree.Operations

/-!
# What a comparison reaches, whatever the hash

A comparison reports a leaf exactly if no node above it is equal in both trees. Equal nodes are the
only reason why a leaf is passed over: below every node that differs there is a leaf that is
reported, because equal children would have been hashed to equal nodes. So the tops tell whether
anything is reported, even if many inputs have one digest.
-/
namespace MerkleDir.MerkleTree

variable {algorithm : HashAlgorithm} {l r : List Digest}

def node? (tree : MerkleTree) (k i : Nat) : Option Digest :=
  (tree.level? k).bind (·[i]?)

/-- The positions above which the two trees have different nodes on every level. -/
def exposedPositions (tree other : MerkleTree) : List Nat :=
  (List.range tree.leaves.length).filter fun p =>
    (List.range tree.levels.length).all fun k =>
      tree.node? k (p / 2 ^ k) != other.node? k (p / 2 ^ k)

theorem node?_ofLeaves {k : Nat} (hne : l ≠ []) (hk : k ≤ Nat.clog 2 l.length) (i : Nat) :
    (ofLeaves algorithm l).node? k i = (levelOver algorithm l k)[i]? := by
  rw [node?, level?_ofLeaves algorithm hne hk, Option.bind_some]

theorem length_levels_ofLeaves (hne : l ≠ []) :
    (ofLeaves algorithm l).levels.length = Nat.clog 2 l.length + 1 := by
  rw [levels_ofLeaves_eq_map hne, List.length_map, List.length_range]

theorem exposedPositions_ofLeaves (hlen : l.length = r.length) :
    (ofLeaves algorithm l).exposedPositions (ofLeaves algorithm r) =
      reachedLeaves algorithm l r := by
  refine List.filter_congr fun p hp => ?_
  have hpos : 0 < l.length := Nat.zero_lt_of_lt (List.mem_range.mp hp)
  have hl : l ≠ [] := List.ne_nil_of_length_pos hpos
  have hr : r ≠ [] := List.ne_nil_of_length_pos (hlen ▸ hpos)
  rw [length_levels_ofLeaves hl, differsUpTo, Bool.eq_iff_iff, List.all_eq_true, List.all_eq_true]
  refine forall₂_congr fun k hk => ?_
  have hle : k ≤ Nat.clog 2 l.length := Nat.le_of_lt_succ (List.mem_range.mp hk)
  rw [node?_ofLeaves hl hle, node?_ofLeaves hr (hlen ▸ hle), differsAt]

theorem differsAt_succ_eq_false (hlen : l.length = r.length) {k i : Nat}
    (hfirst : differsAt algorithm l r k (2 * i) = false)
    (hsecond : differsAt algorithm l r k (2 * i + 1) = false) :
    differsAt algorithm l r (k + 1) i = false := by
  have hwidth : (levelOver algorithm l k).length = (levelOver algorithm r k).length :=
    length_levelOver_congr hlen k
  rw [differsAt, levelOver, levelOver, getElem?_pairUp, getElem?_pairUp, getElem?_pairInputs,
    getElem?_pairInputs]
  rcases Nat.lt_or_ge (2 * i) (levelOver algorithm l k).length with hi | hi
  · obtain ⟨a, ha⟩ : ∃ a, (levelOver algorithm l k)[2 * i]? = some a :=
      ⟨_, List.getElem?_eq_getElem hi⟩
    obtain ⟨b, hb⟩ : ∃ b, (levelOver algorithm r k)[2 * i]? = some b :=
      ⟨_, List.getElem?_eq_getElem (hwidth ▸ hi)⟩
    have hblock := (differsAt_of_getElem? ha hb).mp hfirst
    -- a node without a partner is its own partner in both trees
    have hpartner : (((levelOver algorithm l k)[2 * i + 1]?).getD a).block =
        (((levelOver algorithm r k)[2 * i + 1]?).getD b).block := by
      rcases Nat.lt_or_ge (2 * i + 1) (levelOver algorithm l k).length with hj | hj
      · have ha' := List.getElem?_eq_getElem hj
        have hb' := List.getElem?_eq_getElem (hwidth ▸ hj)
        rw [ha', hb']
        exact (differsAt_of_getElem? ha' hb').mp hsecond
      · rw [List.getElem?_eq_none hj, List.getElem?_eq_none (hwidth ▸ hj)]
        exact hblock
    rw [ha, hb, Option.map_some, Option.map_some, Option.map_some, Option.map_some,
      parentInput_inj.mpr ⟨hblock, hpartner⟩, bne, Option.some_beq_some, BEq.rfl]
    rfl
  · have hl : (levelOver algorithm l k)[2 * i]? = none := List.getElem?_eq_none hi
    have hr : (levelOver algorithm r k)[2 * i]? = none := List.getElem?_eq_none (hwidth ▸ hi)
    rw [hl, hr]
    rfl

theorem reachedBelow_ne_nil (hlen : l.length = r.length) {k i : Nat}
    (h : differsAt algorithm l r k i = true) : reachedBelow algorithm l r k i ≠ [] := by
  induction k generalizing i with
  | zero =>
    rw [reachedBelow_zero h]
    exact List.cons_ne_nil i []
  | succ k ih =>
    rw [reachedBelow_succ h, Ne, List.append_eq_nil_iff, not_and_or]
    by_contra hnone
    rw [not_or, not_not, not_not] at hnone
    have hfirst := Bool.eq_false_of_not_eq_true fun hd => ih hd hnone.1
    have hsecond := Bool.eq_false_of_not_eq_true fun hd => ih hd hnone.2
    rw [differsAt_succ_eq_false hlen hfirst hsecond] at h
    exact Bool.false_ne_true h

theorem differsFrom_ofLeaves_eq (hl : l ≠ []) (hlen : l.length = r.length) :
    (ofLeaves algorithm l).differsFrom (ofLeaves algorithm r) =
      differsAt algorithm l r (Nat.clog 2 l.length) 0 := by
  have hr : r ≠ [] := List.ne_nil_of_length_pos (hlen ▸ List.length_pos_iff.mpr hl)
  have htop := top_ofLeaves algorithm hr
  rw [← hlen] at htop
  rw [differsAt, top_ofLeaves algorithm hl, htop]
  rfl

theorem isEmpty_reachedLeaves (hlen : l.length = r.length) :
    (!(reachedLeaves algorithm l r).isEmpty) =
      (ofLeaves algorithm l).differsFrom (ofLeaves algorithm r) := by
  rcases eq_or_ne l [] with rfl | hl
  · obtain rfl := List.length_eq_zero_iff.mp hlen.symm
    rw [differsFrom, bne, BEq.rfl]
    rfl
  · rw [differsFrom_ofLeaves_eq hl hlen, ← reachedBelow_top hlen]
    cases hd : differsAt algorithm l r (Nat.clog 2 l.length) 0 with
    | false =>
      rw [reachedBelow_of_equal hd]
      rfl
    | true =>
      rw [Bool.not_eq_true', List.isEmpty_eq_false_iff]
      exact reachedBelow_ne_nil hlen hd

theorem differsAt_comm (k i : Nat) : differsAt algorithm l r k i = differsAt algorithm r l k i := by
  rw [differsAt, differsAt, bne, bne]
  cases (levelOver algorithm l k)[i]? with
  | none => cases (levelOver algorithm r k)[i]? <;> rfl
  | some a =>
    cases (levelOver algorithm r k)[i]? with
    | none => rfl
    | some b => rw [Option.some_beq_some, Option.some_beq_some, BEq.comm]

theorem reachedLeaves_comm (hlen : l.length = r.length) :
    reachedLeaves algorithm l r = reachedLeaves algorithm r l := by
  have hdiffers : differsUpTo algorithm l r = differsUpTo algorithm r l := by
    funext k p
    simp only [differsUpTo, differsAt_comm]
  rw [reachedLeaves, reachedLeaves, hlen, hdiffers]

/-- Of any two built trees over equally many leaves a comparison reports exactly the leaves above
which all nodes differ, in their order, behind what was reported before, and it tells whether the
tops differ. In the other direction it reports the same positions. A comparison that fails reports
nothing. -/
theorem collectChangedLeaves_of_history {actions others : List Action} {held other : Held}
    (hheld : held ∈ history algorithm actions) (hother : other ∈ history algorithm others) :
    (held.tree.isBuilt = true → other.tree.isBuilt = true →
      held.tree.leaves.length = other.tree.leaves.length →
      (∀ out, held.tree.collectChangedLeaves other.tree out =
        some (.ok (held.tree.differsFrom other.tree),
          out ++ (held.tree.exposedPositions other.tree).filterMap (other.tree.leaves[·]?))) ∧
      (held.tree.differsFrom other.tree = true ↔ held.tree.exposedPositions other.tree ≠ []) ∧
      (held.tree.exposedPositions other.tree).Pairwise (· < ·) ∧
      other.tree.exposedPositions held.tree = held.tree.exposedPositions other.tree) ∧
    ∀ out e found, held.tree.collectChangedLeaves other.tree out = some (.error e, found) →
      found = out := by
  have h := isMade_history actions held hheld
  have h' := isMade_history others other hother
  constructor
  · intro hbuilt hbuilt' hlen
    rw [h.leaves_eq, h'.leaves_eq] at hlen
    rw [h.isBuilt_iff.mp hbuilt, h'.isBuilt_iff.mp hbuilt', exposedPositions_ofLeaves hlen,
      exposedPositions_ofLeaves hlen.symm, ← isEmpty_reachedLeaves hlen]
    refine ⟨fun out => collectChangedLeaves_ofLeaves hlen out, ?_,
      List.pairwise_lt_range.filter _, reachedLeaves_comm hlen.symm⟩
    rw [Bool.not_eq_true', List.isEmpty_eq_false_iff]
  · intro out e found heq
    obtain ⟨-, changed, found', hok⟩ | ⟨-, herror⟩ := Held.collectChangedLeaves_cases h h' out
    · rw [hok] at heq
      cases heq
    · rw [herror] at heq
      exact (Prod.mk.inj (Option.some.inj heq)).2.symm

def hiddenChange : List Digest := [repeated 5, repeated 2, repeated 4]

/-- The first leaf has no say in the node above it, so only the last one is reported. -/
theorem collectChangedLeaves_hiddenChange :
    (ofLeaves lastBlock (threeLeaves 3)).collectChangedLeaves
        (ofLeaves lastBlock hiddenChange) [repeated 9] =
          some (.ok true, [repeated 9, repeated 4]) ∧
      (ofLeaves lastBlock (threeLeaves 3)).exposedPositions
        (ofLeaves lastBlock hiddenChange) = [2] ∧
      (ofLeaves lastBlock hiddenChange).exposedPositions
        (ofLeaves lastBlock (threeLeaves 3)) = [2] := by
  have hheld : (⟨.ofLeaves lastBlock (threeLeaves 3), threeLeaves 3⟩ : Held) ∈
      history lastBlock [.fromLeaves (threeLeaves 3)] := List.mem_singleton_self _
  have hother : (⟨.ofLeaves lastBlock hiddenChange, hiddenChange⟩ : Held) ∈
      history lastBlock [.fromLeaves hiddenChange] := List.mem_singleton_self _
  have hpositions : (ofLeaves lastBlock (threeLeaves 3)).exposedPositions
      (ofLeaves lastBlock hiddenChange) = [2] := by decide +kernel
  have hdiffers : (ofLeaves lastBlock (threeLeaves 3)).differsFrom
      (ofLeaves lastBlock hiddenChange) = true := by decide +kernel
  obtain ⟨hcollect, -, -, hswap⟩ :=
    (collectChangedLeaves_of_history hheld hother).1 rfl rfl rfl
  refine ⟨(hcollect [repeated 9]).trans ?_, hpositions, hswap.trans hpositions⟩
  rw [hdiffers, hpositions]
  rfl

end MerkleDir.MerkleTree
