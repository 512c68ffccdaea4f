import MerkleDir.Proofs.Tree.Descent

namespace MerkleDir.MerkleTree

variable {algorithm : HashAlgorithm} {l r : List Digest}

/-- Two different inputs of nodes at one level and index never have one digest. -/
def CollisionFree (algorithm : HashAlgorithm) (tree other : MerkleTree) : Prop :=
  ∀ k i x y, tree.input? k i = some x → other.input? k i = some y →
    algorithm.hash x = algorithm.hash y → x = y

def changedPositions (l r : List Digest) : List Nat :=
  (List.range l.length).filter fun p => l[p]? != r[p]?

theorem differsAt_of_getElem? {k i : Nat} {a b : Digest}
    (ha : (levelOver algorithm l k)[i]? = some a) (hb : (levelOver algorithm r k)[i]? = some b) :
    differsAt algorithm l r k i = false ↔ a.block = b.block := by
  rw [differsAt, ha, hb, bne, Bool.not_eq_false', Option.some_beq_some]
  exact Digest.beq_iff_block

theorem pairInputs_eq_of_equal
    (hfree : CollisionFree algorithm (ofLeaves algorithm l) (ofLeaves algorithm r))
    (hlen : l.length = r.length) {k i : Nat} (hk : 2 ^ k < l.length)
    (h : differsAt algorithm l r (k + 1) i = false) {x y : Bytes}
    (hx : (pairInputs (levelOver algorithm l k))[i]? = some x)
    (hy : (pairInputs (levelOver algorithm r k))[i]? = some y) : x = y := by
  have hx' := getElem?_pairUp algorithm (levelOver algorithm l k) i
  have hy' := getElem?_pairUp algorithm (levelOver algorithm r k) i
  rw [hx, Option.map_some] at hx'
  rw [hy, Option.map_some] at hy'
  apply hfree k i
  · rw [input?_ofLeaves hk, hx]
  · rw [input?_ofLeaves (hlen ▸ hk), hy]
  · exact (differsAt_of_getElem? hx' hy').mp h

theorem differsAt_succ
    (hfree : CollisionFree algorithm (ofLeaves algorithm l) (ofLeaves algorithm r))
    (hlen : l.length = r.length) {k i : Nat} (hk : 2 ^ k < l.length)
    (hi : i * 2 ^ k < l.length) (h : differsAt algorithm l r k i = true) :
    differsAt algorithm l r (k + 1) (i / 2) = true := by
  obtain ⟨a, ha⟩ := isSome_getElem?_levelOver algorithm hi
  obtain ⟨b, hb⟩ := isSome_getElem?_levelOver algorithm (hlen ▸ hi)
  by_contra hup
  rw [Bool.not_eq_true] at hup
  have hsame : a.block = b.block := by
    rcases Nat.even_or_odd' i with ⟨j, rfl | rfl⟩
    · rw [Nat.mul_div_cancel_left j two_pos] at hup
      have hx := getElem?_pairInputs (levelOver algorithm l k) j
      have hy := getElem?_pairInputs (levelOver algorithm r k) j
      rw [ha, Option.map_some] at hx
      rw [hb, Option.map_some] at hy
      exact (parentInput_inj.mp (pairInputs_eq_of_equal hfree hlen hk hup hx hy)).1
    · rw [show (2 * j + 1) / 2 = j by omega] at hup
      have hj : 2 * j * 2 ^ k < l.length :=
        (Nat.mul_le_mul_right _ (Nat.le_succ _)).trans_lt hi
      obtain ⟨a', ha'⟩ := isSome_getElem?_levelOver algorithm hj
      obtain ⟨b', hb'⟩ := isSome_getElem?_levelOver algorithm (hlen ▸ hj)
      have hx := getElem?_pairInputs (levelOver algorithm l k) j
      have hy := getElem?_pairInputs (levelOver algorithm r k) j
      rw [ha', ha, Option.map_some, Option.getD_some] at hx
      rw [hb', hb, Option.map_some, Option.getD_some] at hy
      exact (parentInput_inj.mp (pairInputs_eq_of_equal hfree hlen hk hup hx hy)).2
  rw [(differsAt_of_getElem? ha hb).mpr hsame] at h
  exact Bool.false_ne_true h

theorem differsUpTo_eq_differsAt
    (hfree : CollisionFree algorithm (ofLeaves algorithm l) (ofLeaves algorithm r))
    (hlen : l.length = r.length) {p : Nat} (hp : p < l.length) {k : Nat}
    (hk : k ≤ Nat.clog 2 l.length) :
    differsUpTo algorithm l r k p = differsAt algorithm l r 0 p := by
  induction k with
  | zero => simp [differsUpTo]
  | succ k ih =>
    have hbelow := ih (by omega)
    rw [differsUpTo_succ, hbelow]
    cases hd : differsAt algorithm l r 0 p with
    | false => rfl
    | true =>
      have hnode := differsAt_of_differsUpTo (hbelow.trans hd)
      have hcover : p / 2 ^ k * 2 ^ k < l.length := (Nat.div_mul_le_self p (2 ^ k)).trans_lt hp
      have hwidth := (Nat.lt_clog_iff_pow_lt one_lt_two).mp (Nat.lt_of_succ_le hk)
      rw [pow_succ, ← Nat.div_div_eq_div_mul, differsAt_succ hfree hlen hwidth hcover hnode]
      rfl

theorem reachedLeaves_eq_changedPositions
    (hfree : CollisionFree algorithm (ofLeaves algorithm l) (ofLeaves algorithm r))
    (hlen : l.length = r.length) : reachedLeaves algorithm l r = changedPositions l r := by
  apply List.filter_congr
  intro p hp
  rw [differsUpTo_eq_differsAt hfree hlen (List.mem_range.mp hp) le_rfl]
  rfl

/-- Comparing two trees of one shape is the scan of all positions: what was in the output stays, and
the leaves of `r` that differ follow in their order. -/
theorem collectChangedLeaves_eq_scan (hlen : l.length = r.length)
    (hfree : CollisionFree algorithm (ofLeaves algorithm l) (ofLeaves algorithm r))
    (out : List Digest) :
    (ofLeaves algorithm l).collectChangedLeaves (ofLeaves algorithm r) out =
      some (.ok (decide (∃ p < l.length, (l[p]? != r[p]?) = true)),
        out ++ (changedPositions l r).filterMap (r[·]?)) := by
  rw [collectChangedLeaves_ofLeaves hlen, reachedLeaves_eq_changedPositions hfree hlen]
  congr 3
  rw [Bool.eq_iff_iff]
  simp [changedPositions, List.filter_eq_nil_iff]

def lastBlock : HashAlgorithm := ⟨fun input => Vector.ofFn fun i => input.getD (32 + i) 0⟩

theorem lastBlock_parentInput (a b : Digest) : lastBlock.hash (parentInput a b) = b.block := by
  ext i hi
  have ha := a.length_bytes
  simp [lastBlock, parentInput, List.getElem?_append_right, ha]
  simp [Digest.bytes, hi]

def repeated (b : UInt8) : Digest := .ofBlock (.replicate 32 b)

def threeLeaves (last : UInt8) : List Digest := [repeated 1, repeated 2, repeated last]

theorem collisionFree_threeLeaves (c d : UInt8) :
    CollisionFree lastBlock (ofLeaves lastBlock (threeLeaves c))
      (ofLeaves lastBlock (threeLeaves d)) := by
  intro k i x y hx hy h
  simp only [input?, inputLevels_ofLeaves, threeLeaves] at hx hy
  rcases k with _ | _ | k
  · rcases i with _ | _ | i
    · simp_all [levelOver, pairInputs]
    · simp [levelOver, pairInputs] at hx hy
      subst hx hy
      rw [lastBlock_parentInput, lastBlock_parentInput] at h
      exact parentInput_inj.mpr ⟨h, h⟩
    · simp [levelOver, pairInputs] at hx
  · rcases i with _ | i
    · simp [levelOver, pairInputs, pairUp] at hx hy
      subst hx hy
      rw [lastBlock_parentInput, lastBlock_parentInput] at h
      exact parentInput_inj.mpr ⟨rfl, h⟩
    · simp [levelOver, pairInputs, pairUp] at hx
  · have hk : ¬ 2 ^ (k + 1 + 1) < 3 := by
      have := Nat.one_le_two_pow (n := k)
      omega
    simp [hk] at hx

theorem collectChangedLeaves_threeLeaves :
    (ofLeaves lastBlock (threeLeaves 3)).collectChangedLeaves
      (ofLeaves lastBlock (threeLeaves 4)) [repeated 9] =
        some (.ok true, [repeated 9, repeated 4]) :=
  collectChangedLeaves_eq_scan (l := threeLeaves 3) (r := threeLeaves 4) rfl
    (collisionFree_threeLeaves 3 4) [repeated 9]

end MerkleDir.MerkleTree
