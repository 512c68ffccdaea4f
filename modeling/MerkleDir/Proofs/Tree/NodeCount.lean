import MerkleDir.Proofs.Tree.Operations

/-!
# How many nodes a tree has

A level has half as many nodes as the one below, rounded up. If all nodes had partners, `n` leaves
would take `2 * n - 1` nodes. Each level whose last node is paired with itself takes one more, and
these levels are where the binary digits of `n - 1` are zero.
-/
namespace MerkleDir.MerkleTree

variable {algorithm : HashAlgorithm}

theorem ceilDiv_two (n : Nat) : n ⌈/⌉ 2 = (n + 1) / 2 := Nat.ceilDiv_eq_add_pred_div n 2

/-- A number, its half rounded up, the half of that, and so on down to one. -/
def halvings (n : Nat) : List Nat :=
  if _h : 1 < n then n :: halvings (n ⌈/⌉ 2) else [n]
  termination_by n
  decreasing_by rw [ceilDiv_two]; omega

theorem halvings_of_lt {n : Nat} (h : 1 < n) : halvings n = n :: halvings (n ⌈/⌉ 2) := by
  rw [halvings, dif_pos h]

theorem halvings_of_not_lt {n : Nat} (h : ¬ 1 < n) : halvings n = [n] := by
  rw [halvings, dif_neg h]

/-- A level of this width has a node above it and a last node without a partner. -/
def isUneven (width : Nat) : Bool := decide (1 < width) && width % 2 == 1

theorem countP_halvings_of_lt {n : Nat} (h : 1 < n) :
    (halvings n).countP isUneven = (halvings (n ⌈/⌉ 2)).countP isUneven + n % 2 := by
  rw [halvings_of_lt h, List.countP_cons]
  rcases Nat.mod_two_eq_zero_or_one n with hn | hn <;> simp [isUneven, h, hn]

/-- Without uneven levels `n` and its halves add to `2 * n - 1`. Each uneven level adds one. -/
theorem sum_halvings {n : Nat} (hn : 1 ≤ n) :
    (halvings n).sum = 2 * n - 1 + (halvings n).countP isUneven := by
  induction n using halvings.induct with
  | case1 n h ih =>
    have hceil := ceilDiv_two n
    rw [countP_halvings_of_lt h, halvings_of_lt h, List.sum_cons, ih (by omega)]
    -- twice the half of `n` is `n`, or one more where `n` is odd
    omega
  | case2 n h =>
    obtain rfl : n = 1 := by omega
    rw [halvings_of_not_lt h]
    rfl

/-- The zeros among the binary digits. The number zero has no digits. -/
def zeroDigits (n : Nat) : Nat := (Nat.digits 2 n).count 0

theorem zeroDigits_add_mod {n : Nat} (hn : 0 < n) :
    zeroDigits n + n % 2 = zeroDigits (n / 2) + 1 := by
  rw [zeroDigits, zeroDigits, Nat.digits_def' one_lt_two hn, List.count_cons]
  rcases Nat.mod_two_eq_zero_or_one n with h | h <;> simp [h]

/-- Halving `n` upwards halves `n - 1` downwards, and `n` is odd where `n - 1` ends in a zero. -/
theorem countP_halvings {n : Nat} (hn : 1 ≤ n) :
    (halvings n).countP isUneven = zeroDigits (n - 1) := by
  induction n using halvings.induct with
  | case1 n h ih =>
    have hceil := ceilDiv_two n
    have hhalf : n ⌈/⌉ 2 - 1 = (n - 1) / 2 := by omega
    have hdigit := zeroDigits_add_mod (n := n - 1) (by omega)
    rw [countP_halvings_of_lt h, ih (by omega), hhalf]
    omega
  | case2 n h =>
    obtain rfl : n = 1 := by omega
    rw [halvings_of_not_lt h]
    rfl

theorem length_digits_pred {n : Nat} (hn : 1 ≤ n) :
    (Nat.digits 2 (n - 1)).length = Nat.clog 2 n :=
  eq_of_forall_lt_iff fun k => by
    rw [Nat.lt_digits_length_iff one_lt_two, Nat.lt_clog_iff_pow_lt one_lt_two]
    omega

theorem zeroDigits_pred_le_clog {n : Nat} (hn : 1 ≤ n) : zeroDigits (n - 1) ≤ Nat.clog 2 n := by
  rw [← length_digits_pred hn]
  exact List.count_le_length

theorem nodeCount_eq_add (tree : MerkleTree) :
    tree.nodeCount = tree.leaves.length + (tree.upper.map List.length).sum := by
  rw [nodeCount]
  induction tree.upper with
  | nil => rfl
  | cons level upper ih =>
    rw [List.foldr_cons, ih, List.map_cons, List.sum_cons]
    omega

theorem nodeCount_eq_sum_levels {tree : MerkleTree} (hne : tree.leaves ≠ []) :
    tree.nodeCount = tree.levels.sum := by
  have hempty : tree.isEmpty = false := List.isEmpty_eq_false_iff.mpr hne
  rw [nodeCount_eq_add, levels, hempty]
  rfl

theorem cons_upperLevels_eq_halvings (level : List Digest) :
    level.length :: (upperLevels algorithm level).map List.length = halvings level.length := by
  fun_induction upperLevels algorithm level with
  | case1 level h next ih =>
    have hnext : next.length = level.length ⌈/⌉ 2 := by rw [length_pairUp, ceilDiv_two]
    rw [List.map_cons, ih, hnext, ← halvings_of_lt h]
  | case2 level h => rw [List.map_nil, halvings_of_not_lt h]

theorem levels_ofLeaves_eq_halvings {leaves : List Digest} (hne : leaves ≠ []) :
    (ofLeaves algorithm leaves).levels = halvings leaves.length := by
  rw [levels_ofLeaves hne, cons_upperLevels_eq_halvings]

theorem nodeCount_ofLeaves {leaves : List Digest} (hne : leaves ≠ []) :
    (ofLeaves algorithm leaves).nodeCount = (halvings leaves.length).sum := by
  rw [nodeCount_eq_sum_levels hne, levels_ofLeaves_eq_halvings hne]

/-- A built tree over `n` leaves has as many nodes as its levels together, which is the sum of `n`
and its halves down to one. These are `2 * n - 1` nodes and one for each zero among the binary
digits of `n - 1`, so not more than one for each level above the leaves. -/
theorem nodeCount_of_history {actions : List Action} {held : Held} {n : Nat}
    (hheld : held ∈ history algorithm actions) (hbuilt : held.tree.isBuilt = true)
    (hlen : held.tree.leaves.length = n) (hn : 1 ≤ n) :
    held.tree.nodeCount = held.tree.levels.sum ∧
      held.tree.nodeCount = (halvings n).sum ∧
      held.tree.nodeCount = 2 * n - 1 + zeroDigits (n - 1) ∧
      2 * n - 1 ≤ held.tree.nodeCount ∧
      held.tree.nodeCount ≤ 2 * n - 1 + held.tree.upper.length := by
  have h := isMade_history actions held hheld
  have hne : held.tree.leaves ≠ [] := List.ne_nil_of_length_pos (hlen ▸ hn)
  have htree := h.isBuilt_iff.mp hbuilt
  have hsum : held.tree.nodeCount = (halvings n).sum := by
    rw [htree, nodeCount_ofLeaves (h.leaves_eq ▸ hne), ← h.leaves_eq, hlen]
  have hdepth : held.tree.upper.length = Nat.clog 2 n := by
    rw [htree, ofLeaves, length_upperLevels, ← h.leaves_eq, hlen]
  have hzeros : held.tree.nodeCount = 2 * n - 1 + zeroDigits (n - 1) := by
    rw [hsum, sum_halvings hn, countP_halvings hn]
  have hmost := zeroDigits_pred_le_clog hn
  exact ⟨nodeCount_eq_sum_levels hne, hsum, hzeros, by omega, by omega⟩

def nineLeaves : List Digest := threeLeaves 3 ++ threeLeaves 4 ++ threeLeaves 5

def grown : List Action := [.fromLeaves (threeLeaves 3), .build 0 nineLeaves]

theorem history_grown :
    history lastBlock grown = [⟨.ofLeaves lastBlock nineLeaves, nineLeaves⟩] := rfl

/-- The levels of nine, five and three nodes each have one without a partner. -/
theorem nodeCount_grown :
    (⟨.ofLeaves lastBlock nineLeaves, nineLeaves⟩ : Held) ∈ history lastBlock grown ∧
      (ofLeaves lastBlock nineLeaves).nodeCount = (ofLeaves lastBlock nineLeaves).levels.sum ∧
      (ofLeaves lastBlock nineLeaves).nodeCount = [9, 5, 3, 2, 1].sum ∧
      (ofLeaves lastBlock nineLeaves).nodeCount = 2 * 9 - 1 + 3 ∧
      (ofLeaves lastBlock nineLeaves).nodeCount ≤ 2 * 9 - 1 + 4 := by
  have hheld : (⟨.ofLeaves lastBlock nineLeaves, nineLeaves⟩ : Held) ∈
      history lastBlock grown := by simp [history_grown]
  have hhalvings : halvings 9 = [9, 5, 3, 2, 1] := by simp [halvings, ceilDiv_two]
  have hdigits : zeroDigits (9 - 1) = 3 := by decide
  have hdepth : (ofLeaves lastBlock nineLeaves).upper.length = 4 := by
    rw [ofLeaves, length_upperLevels]
    decide
  obtain ⟨hlevels, hsum, hzeros, -, hmost⟩ :=
    nodeCount_of_history (n := 9) hheld rfl rfl (by decide)
  rw [hhalvings] at hsum
  rw [hdigits] at hzeros
  rw [hdepth] at hmost
  exact ⟨hheld, hlevels, hsum, hzeros, hmost⟩

end MerkleDir.MerkleTree
