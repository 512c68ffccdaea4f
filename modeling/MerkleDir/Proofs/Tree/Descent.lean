import MerkleDir.Proofs.Tree.Levels

namespace MerkleDir.MerkleTree

variable {algorithm : HashAlgorithm} {l r : List Digest}

def differsAt (algorithm : HashAlgorithm) (l r : List Digest) (k i : Nat) : Bool :=
  (levelOver algorithm l k)[i]? != (levelOver algorithm r k)[i]?

/-- Whether the nodes above leaf `p` differ on every level up to `k`. -/
def differsUpTo (algorithm : HashAlgorithm) (l r : List Digest) (k p : Nat) : Bool :=
  (List.range (k + 1)).all fun j => differsAt algorithm l r j (p / 2 ^ j)

def reachedBelow (algorithm : HashAlgorithm) (l r : List Digest) (k i : Nat) : List Nat :=
  (List.range' (i * 2 ^ k) (2 ^ k)).filter (differsUpTo algorithm l r k)

theorem differsUpTo_succ (k p : Nat) :
    differsUpTo algorithm l r (k + 1) p =
      (differsUpTo algorithm l r k p && differsAt algorithm l r (k + 1) (p / 2 ^ (k + 1))) := by
  rw [differsUpTo, List.range_succ, List.all_append]
  simp [differsUpTo]

theorem differsAt_of_differsUpTo {k p : Nat} (h : differsUpTo algorithm l r k p = true) :
    differsAt algorithm l r k (p / 2 ^ k) = true :=
  List.all_eq_true.mp h k (List.mem_range.mpr k.lt_succ_self)

theorem mem_covered_iff (k i p : Nat) : p ∈ List.range' (i * 2 ^ k) (2 ^ k) ↔ p / 2 ^ k = i := by
  have hpos : 0 < 2 ^ k := by positivity
  rw [List.mem_range'_1, Nat.div_eq_iff hpos, Nat.add_comm]
  have he : (i + 1) * 2 ^ k = i * 2 ^ k + 2 ^ k := Nat.succ_mul i (2 ^ k)
  omega

theorem reachedBelow_of_equal {k i : Nat} (h : differsAt algorithm l r k i = false) :
    reachedBelow algorithm l r k i = [] := by
  apply List.filter_eq_nil_iff.mpr
  intro p hp hd
  rw [mem_covered_iff] at hp
  have := differsAt_of_differsUpTo hd
  rw [hp, h] at this
  exact Bool.false_ne_true this

theorem reachedBelow_zero {i : Nat} (h : differsAt algorithm l r 0 i = true) :
    reachedBelow algorithm l r 0 i = [i] := by
  simp [reachedBelow, differsUpTo, h]

theorem reachedBelow_succ {k i : Nat} (h : differsAt algorithm l r (k + 1) i = true) :
    reachedBelow algorithm l r (k + 1) i =
      reachedBelow algorithm l r k (2 * i) ++ reachedBelow algorithm l r k (2 * i + 1) := by
  have hsplit : List.range' (i * 2 ^ (k + 1)) (2 ^ (k + 1)) =
      List.range' (2 * i * 2 ^ k) (2 ^ k) ++ List.range' ((2 * i + 1) * 2 ^ k) (2 ^ k) := by
    rw [show (2 * i + 1) * 2 ^ k = 2 * i * 2 ^ k + 2 ^ k by ring, List.range'_append_1]
    congr 1 <;> ring
  simp only [reachedBelow, ← List.filter_append, ← hsplit]
  apply List.filter_congr
  intro p hp
  rw [mem_covered_iff] at hp
  rw [differsUpTo_succ, hp, h, Bool.and_true]

theorem reachedBelow_outside (hlen : l.length = r.length) {k i : Nat} (h : l.length ≤ i * 2 ^ k) :
    reachedBelow algorithm l r k i = [] := by
  have hl := (lt_length_levelOver algorithm l k i).not.mpr (by omega)
  have hr := (lt_length_levelOver algorithm r k i).not.mpr (by omega)
  apply reachedBelow_of_equal
  rw [differsAt, List.getElem?_eq_none (by omega), List.getElem?_eq_none (by omega)]
  rfl

theorem children_of_lt {width i : Nat} (h : 2 * i + 1 < width) :
    children width i = [2 * i, 2 * i + 1] := by
  have h' : 2 * i < width := by omega
  simp [children, h, h']

theorem children_of_eq {width i : Nat} (h : width = 2 * i + 1) : children width i = [2 * i] := by
  simp [children, h]

section Visit

variable {tree other : MerkleTree} {ours theirs : List Digest} {k i : Nat} {a b : Digest}

theorem descend_of_beq (hours : tree.level? k = some ours) (htheirs : other.level? k = some theirs)
    (ha : ours[i]? = some a) (hb : theirs[i]? = some b) (hab : (a == b) = true)
    (out : List Digest) : tree.descend other k i out = some out := by
  rw [descend, hours, htheirs]
  simp only [ha, hb, hab, ↓reduceIte]

theorem descend_leaf (hours : tree.level? 0 = some ours) (htheirs : other.level? 0 = some theirs)
    (ha : ours[i]? = some a) (hb : theirs[i]? = some b) (hab : (a == b) = false)
    (out : List Digest) : tree.descend other 0 i out = some (out ++ [b]) := by
  rw [descend, hours, htheirs]
  simp only [ha, hb, hab, Bool.false_eq_true, ↓reduceIte]

theorem descend_inner {below : List Digest} (hbelow : tree.level? k = some below)
    (hours : tree.level? (k + 1) = some ours) (htheirs : other.level? (k + 1) = some theirs)
    (ha : ours[i]? = some a) (hb : theirs[i]? = some b) (hab : (a == b) = false)
    (out : List Digest) :
    tree.descend other (k + 1) i out =
      (children below.length i).foldlM (fun out child => tree.descend other k child out) out := by
  rw [descend, hours, htheirs]
  simp only [ha, hb, hab, hbelow, Bool.false_eq_true, ↓reduceIte, Option.elim_some]

end Visit

/-- The descent from a node appends the leaves that are reached below it, in their order. -/
theorem descend_ofLeaves (hlen : l.length = r.length) {k i : Nat}
    (hk : k ≤ Nat.clog 2 l.length) (hi : i * 2 ^ k < l.length) (out : List Digest) :
    (ofLeaves algorithm l).descend (ofLeaves algorithm r) k i out =
      some (out ++ (reachedBelow algorithm l r k i).filterMap (r[·]?)) := by
  have hl : l ≠ [] := List.ne_nil_of_length_pos (by omega)
  have hr : r ≠ [] := List.ne_nil_of_length_pos (by omega)
  induction k generalizing i out with
  | zero =>
    have hours := level?_ofLeaves algorithm hl hk
    have htheirs := level?_ofLeaves algorithm hr (hlen ▸ hk)
    obtain ⟨a, ha⟩ := isSome_getElem?_levelOver algorithm hi
    obtain ⟨b, hb⟩ := isSome_getElem?_levelOver algorithm (hlen ▸ hi)
    have hd : differsAt algorithm l r 0 i = !(a == b) := by simp [differsAt, ha, hb, bne]
    cases hab : a == b with
    | true =>
      rw [descend_of_beq hours htheirs ha hb hab, reachedBelow_of_equal (by simp [hd, hab])]
      simp
    | false =>
      rw [descend_leaf hours htheirs ha hb hab, reachedBelow_zero (by simp [hd, hab])]
      simp [show r[i]? = some b from hb]
  | succ k ih =>
    have hk' : k ≤ Nat.clog 2 l.length := by omega
    have hours := level?_ofLeaves algorithm hl hk
    have htheirs := level?_ofLeaves algorithm hr (hlen ▸ hk)
    have hbelow := level?_ofLeaves algorithm hl hk'
    obtain ⟨a, ha⟩ := isSome_getElem?_levelOver algorithm hi
    obtain ⟨b, hb⟩ := isSome_getElem?_levelOver algorithm (hlen ▸ hi)
    have hd : differsAt algorithm l r (k + 1) i = !(a == b) := by simp [differsAt, ha, hb, bne]
    cases hab : a == b with
    | true =>
      rw [descend_of_beq hours htheirs ha hb hab, reachedBelow_of_equal (by simp [hd, hab])]
      simp
    | false =>
      rw [descend_inner hbelow hours htheirs ha hb hab, reachedBelow_succ (by simp [hd, hab])]
      have hi' : 2 * i * 2 ^ k < l.length := by
        rwa [show 2 * i * 2 ^ k = i * 2 ^ (k + 1) by ring]
      have hw := (lt_length_levelOver algorithm l k (2 * i)).mpr hi'
      have hj := lt_length_levelOver algorithm l k (2 * i + 1)
      -- a node that is paired with itself has no second child, and no leaf lies where it would be
      rcases Nat.lt_or_ge (2 * i + 1) (levelOver algorithm l k).length with h2 | h2
      · rw [children_of_lt h2]
        simp [ih hk' hi', ih hk' (hj.mp h2)]
      · have hout : l.length ≤ (2 * i + 1) * 2 ^ k := by omega
        rw [children_of_eq (by omega), reachedBelow_outside hlen hout]
        simp [ih hk' hi']

def reachedLeaves (algorithm : HashAlgorithm) (l r : List Digest) : List Nat :=
  (List.range l.length).filter (differsUpTo algorithm l r (Nat.clog 2 l.length))

theorem lt_of_differsUpTo (hlen : l.length = r.length) {k p : Nat}
    (h : differsUpTo algorithm l r k p = true) : p < l.length := by
  have h0 := List.all_eq_true.mp h 0 (List.mem_range.mpr k.succ_pos)
  by_contra hp
  rw [differsAt, Nat.pow_zero, Nat.div_one, levelOver, levelOver, List.getElem?_eq_none (by omega),
    List.getElem?_eq_none (by omega)] at h0
  exact absurd h0 (by decide)

theorem reachedBelow_top (hlen : l.length = r.length) :
    reachedBelow algorithm l r (Nat.clog 2 l.length) 0 = reachedLeaves algorithm l r := by
  have hle := Nat.le_pow_clog one_lt_two l.length
  obtain ⟨m, hm⟩ := Nat.exists_eq_add_of_le hle
  have hrest : (List.range' l.length m).filter
      (differsUpTo algorithm l r (Nat.clog 2 l.length)) = [] := by
    apply List.filter_eq_nil_iff.mpr
    intro p hp hd
    have := lt_of_differsUpTo hlen hd
    have := (List.mem_range'_1.mp hp).1
    omega
  rw [reachedBelow, reachedLeaves, Nat.zero_mul, hm, ← List.range'_append_1, List.filter_append,
    Nat.zero_add, hrest, List.append_nil, List.range_eq_range']

theorem length_filterMap_getElem? (ps : List Nat) (h : ∀ p ∈ ps, p < r.length) :
    (ps.filterMap (r[·]?)).length = ps.length := by
  induction ps with
  | nil => rfl
  | cons p ps ih =>
    have hp := List.getElem?_eq_getElem (h p (by simp))
    rw [List.filterMap_cons_some hp, List.length_cons, ih fun q hq => h q (by simp [hq]),
      List.length_cons]

/-- Comparing trees over equally many leaves keeps what was in the output and appends the leaves
that the descent reaches. -/
theorem collectChangedLeaves_ofLeaves (hlen : l.length = r.length) (out : List Digest) :
    (ofLeaves algorithm l).collectChangedLeaves (ofLeaves algorithm r) out =
      some (.ok (!(reachedLeaves algorithm l r).isEmpty),
        out ++ (reachedLeaves algorithm l r).filterMap (r[·]?)) := by
  have hshape : (ofLeaves algorithm l).hasSameShape (ofLeaves algorithm r) = true := by
    rw [hasSameShape_ofLeaves, decide_eq_true hlen]
  rw [collectChangedLeaves, if_pos hshape]
  rcases eq_or_ne l [] with rfl | hl
  · rw [List.length_nil, eq_comm, List.length_eq_zero_iff] at hlen
    subst hlen
    simp [isEmpty, ofLeaves, reachedLeaves]
  · have hpos := List.length_pos_iff.mpr hl
    have hfound := length_filterMap_getElem? (r := r) (reachedLeaves algorithm l r)
      fun p hp => hlen ▸ List.mem_range.mp (List.mem_filter.mp hp).1
    have hdepth : (ofLeaves algorithm l).upper.length = Nat.clog 2 l.length :=
      length_upperLevels algorithm l
    rw [if_neg (by simpa [isEmpty, ofLeaves] using hl), hdepth,
      descend_ofLeaves hlen le_rfl (by omega) out, reachedBelow_top hlen]
    have hflag : decide (out.length < (out ++ (reachedLeaves algorithm l r).filterMap
        (r[·]?)).length) = !(reachedLeaves algorithm l r).isEmpty := by
      rw [List.length_append, hfound, Bool.eq_iff_iff]
      simp [List.length_pos_iff]
    rw [Option.map_some, hflag]

theorem changedLeaves_ofLeaves (hlen : l.length = r.length) :
    (ofLeaves algorithm l).changedLeaves (ofLeaves algorithm r) =
      .ok ((reachedLeaves algorithm l r).filterMap (r[·]?)) := by
  rw [changedLeaves, collectChangedLeaves_ofLeaves hlen]
  rfl

theorem changedLeaves_of_length_ne (hlen : l.length ≠ r.length) :
    (ofLeaves algorithm l).changedLeaves (ofLeaves algorithm r) =
      .error ⟨(ofLeaves algorithm l).levels, (ofLeaves algorithm r).levels⟩ := by
  rw [changedLeaves, collectChangedLeaves, hasSameShape_ofLeaves, decide_eq_false hlen]
  rfl

end MerkleDir.MerkleTree
