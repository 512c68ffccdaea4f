import MerkleDir.Proofs.Snapshot.Taken
import MerkleDir.Proofs.Tree.Binding

/-!
# What is hashed for two snapshots

If different inputs of two snapshots have different digests, digests stand for what they were made
of: an entry's digest for its name and time, and the top of a tree for its leaves.
-/
namespace MerkleDir.Snapshot

open Logged (result)

variable {algorithm : HashAlgorithm} {s t : Snapshot}

def entryInputs (s : Snapshot) : List Bytes := s.entries.map s.entryInputOf

def hashedInputs (s : Snapshot) : List Bytes :=
  s.entryInputs ++ s.tree.inputs ++ [directoryInput s.tree.top s.name]

def HashesInjectively (algorithm : HashAlgorithm) (s t : Snapshot) : Prop :=
  Set.InjOn algorithm.hash {x | x ∈ s.hashedInputs ++ t.hashedInputs}

/-- No two inputs of the two snapshots have one digest, and no entry has the input of a node of the
trees. -/
structure HashesApart (algorithm : HashAlgorithm) (s t : Snapshot) : Prop where
  injective : Set.InjOn algorithm.hash {x | x ∈ s.hashedInputs ++ t.hashedInputs}
  disjoint : ∀ x ∈ s.entryInputs ++ t.entryInputs, x ∉ s.tree.inputs ++ t.tree.inputs

theorem injOn_of_pairwise {inputs : List Bytes}
    (h : inputs.Pairwise fun x y => algorithm.hash x = algorithm.hash y → x = y) :
    Set.InjOn algorithm.hash {x | x ∈ inputs} := by
  have hsymm : Std.Symm fun x y => algorithm.hash x = algorithm.hash y → x = y :=
    ⟨fun _ _ hxy heq => (hxy heq.symm).symm⟩
  exact fun _ hx _ hy => h.forall_of_forall (fun _ _ _ => rfl) hx hy

instance : Decidable (HashesApart algorithm s t) :=
  decidable_of_iff
    ((s.hashedInputs ++ t.hashedInputs).Pairwise
        (fun x y => algorithm.hash x = algorithm.hash y → x = y) ∧
      ∀ x ∈ s.entryInputs ++ t.entryInputs, x ∉ s.tree.inputs ++ t.tree.inputs)
    ⟨fun h => ⟨injOn_of_pairwise h.1, h.2⟩,
      fun h => ⟨List.pairwise_of_forall_mem_list fun _ hx _ hy => h.injective hx hy, h.disjoint⟩⟩

namespace HashesInjectively

theorem symm (h : HashesInjectively algorithm s t) : HashesInjectively algorithm t s := by
  simpa only [HashesInjectively, List.mem_append, or_comm] using h

theorem left (h : HashesInjectively algorithm s t) : HashesInjectively algorithm s s :=
  h.mono fun _ hx => List.mem_append_left _ (or_self_iff.mp (List.mem_append.mp hx))

variable (h : HashesInjectively algorithm s t)

include h

theorem eq_of_hash_eq {x y : Bytes} (hx : x ∈ s.hashedInputs) (hy : y ∈ t.hashedInputs)
    (hxy : algorithm.hash x = algorithm.hash y) : x = y :=
  h (List.mem_append_left _ hx) (List.mem_append_right _ hy) hxy

/-- Entries of two snapshots have one digest if they have one name and one time, and only then. -/
theorem entry_block_inj (hs : s.IsTaken algorithm) (ht : t.IsTaken algorithm)
    {e f : SnapshotEntry} (he : e ∈ s.entries) (hf : f ∈ t.entries) :
    e.digest.block = f.digest.block ↔ e.fileName = f.fileName ∧ e.modified = f.modified := by
  have hslash {u : Snapshot} (hu : u.IsTaken algorithm) {g : SnapshotEntry} (hg : g ∈ u.entries) :
      Path.slash ∉ g.fileName := (Node.isEntryName_iff.mp (hu.name g hg)).2.1
  have hinput {u : Snapshot} {g : SnapshotEntry} (hg : g ∈ u.entries) :
      u.entryInputOf g ∈ u.hashedInputs :=
    List.mem_append_left _ (List.mem_append_left _ (List.mem_map_of_mem hg))
  rw [← entryInput_inj (hslash hs he) (hslash ht hf), ← hs.entryInputOf_eq he,
    ← ht.entryInputOf_eq hf, hs.entryDigest e he, ht.entryDigest f hf]
  exact ⟨h.eq_of_hash_eq (hinput he) (hinput hf), congrArg algorithm.hash⟩

theorem separates {l r : List Digest} (hl : s.tree = .ofLeaves algorithm l)
    (hr : t.tree = .ofLeaves algorithm r) : MerkleTree.Separates algorithm l r := by
  intro x hx y hy hxy
  rw [← hl] at hx
  rw [← hr] at hy
  exact h.eq_of_hash_eq (List.mem_append_left _ (List.mem_append_right _ hx))
    (List.mem_append_left _ (List.mem_append_right _ hy)) hxy

end HashesInjectively

namespace HashesApart

theorem injectively (h : HashesApart algorithm s t) : HashesInjectively algorithm s t := h.injective

theorem symm (h : HashesApart algorithm s t) : HashesApart algorithm t s := by
  refine ⟨h.injectively.symm, fun x hx => ?_⟩
  rw [List.mem_append, or_comm, ← List.mem_append] at hx ⊢
  exact h.disjoint x hx

theorem left (h : HashesApart algorithm s t) : HashesApart algorithm s s := by
  refine ⟨h.injectively.left, fun x hx hx' => ?_⟩
  exact h.disjoint x (List.mem_append_left _ (or_self_iff.mp (List.mem_append.mp hx)))
    (List.mem_append_left _ (or_self_iff.mp (List.mem_append.mp hx')))

variable (h : HashesApart algorithm s t)

include h

theorem leavesApart (hs : s.IsTaken algorithm) {order : List SnapshotEntry}
    (horder : order.Perm s.entries) {r : List Digest} (hr : t.tree = .ofLeaves algorithm r) :
    MerkleTree.LeavesApart algorithm (order.map (·.digest)) r := by
  intro d hd x hx hblock
  obtain ⟨e, he, rfl⟩ := List.mem_map.mp hd
  replace he := horder.mem_iff.mp he
  rw [← hr] at hx
  rw [hs.entryDigest e he] at hblock
  have hentry : s.entryInputOf e ∈ s.entryInputs := List.mem_map_of_mem he
  have heq := h.injectively.eq_of_hash_eq (List.mem_append_left _ (List.mem_append_left _ hentry))
    (List.mem_append_left _ (List.mem_append_right _ hx)) hblock
  exact h.disjoint x (List.mem_append_left _ (heq ▸ hentry)) (List.mem_append_right _ hx)

theorem distinguishes (hs : s.IsTaken algorithm) (ht : t.IsTaken algorithm)
    {order order' : List SnapshotEntry} (horder : order.Perm s.entries)
    (horder' : order'.Perm t.entries) (hl : s.tree = .ofLeaves algorithm (order.map (·.digest)))
    (hr : t.tree = .ofLeaves algorithm (order'.map (·.digest))) :
    MerkleTree.Distinguishes algorithm (order.map (·.digest)) (order'.map (·.digest)) where
  separates := h.injectively.separates hl hr
  left := h.injectively.left.separates hl hl
  right := h.injectively.symm.left.separates hr hr
  leavesLeft := h.leavesApart hs horder hr
  leavesRight := h.symm.leavesApart ht horder' hl

end HashesApart

theorem nodup_blocks (h : HashesInjectively algorithm s s) (hs : s.IsTaken algorithm)
    {order : List SnapshotEntry} (horder : order.Perm s.entries) :
    ((order.map (·.digest)).map Digest.block).Nodup := by
  have hperm := (horder.map (·.digest)).map Digest.block
  rw [hperm.nodup_iff, List.map_map]
  refine List.Nodup.map_on (fun e he f hf hef => ?_) hs.nodup_fileName.of_map
  exact hs.eq_of_fileName he hf ((h.entry_block_inj hs hs he hf).mp hef).1

def leafOf (e : SnapshotEntry) : Bytes × Timestamp := (e.fileName, e.modified)

theorem IsTaken.digest_eq (hs : s.IsTaken algorithm) {e : SnapshotEntry} (he : e ∈ s.entries) :
    e.digest = .make algorithm (entryInput (leafOf e).1 "/" (leafOf e).2) := by
  rw [hs.entryDigest e he, hs.entryInputOf_eq he, leafOf]

theorem IsTaken.map_digest_eq (hs : s.IsTaken algorithm) {order : List SnapshotEntry}
    (horder : order.Perm s.entries) : order.map (·.digest) =
      (order.map leafOf).map fun leaf => .make algorithm (entryInput leaf.1 "/" leaf.2) := by
  rw [List.map_map]
  exact List.map_congr_left fun e he => hs.digest_eq (horder.mem_iff.mp he)

theorem HashesApart.leaves_eq_of_blocks_eq (h : HashesApart algorithm s t)
    (hs : s.IsTaken algorithm) (ht : t.IsTaken algorithm) {order order' : List SnapshotEntry}
    (horder : ∀ e ∈ order, e ∈ s.entries) (horder' : ∀ f ∈ order', f ∈ t.entries)
    (hblocks : (order.map (·.digest)).map Digest.block = (order'.map (·.digest)).map Digest.block) :
    order.map leafOf = order'.map leafOf := by
  induction order generalizing order' with
  | nil => cases order' with
    | nil => rfl
    | cons f order' => simp at hblocks
  | cons e order ih =>
    cases order' with
    | nil => simp at hblocks
    | cons f order' =>
      simp only [List.map_cons, List.cons.injEq] at hblocks ⊢
      obtain ⟨he, horder⟩ := List.forall_mem_cons.mp horder
      obtain ⟨hf, horder'⟩ := List.forall_mem_cons.mp horder'
      obtain ⟨hname, htime⟩ := (h.injectively.entry_block_inj hs ht he hf).mp hblocks.1
      exact ⟨Prod.ext hname htime, ih horder horder' hblocks.2⟩

theorem IsTaken.top_ofBlock (hs : s.IsTaken algorithm) {order : List SnapshotEntry}
    (horder : order.Perm s.entries) (hne : order ≠ []) :
    ∃ b, (MerkleTree.ofLeaves algorithm (order.map (·.digest))).top = .ofBlock b := by
  apply MerkleTree.top_ofLeaves_ofBlock (List.map_eq_nil_iff.not.mpr hne)
  intro d hd
  obtain ⟨e, he, rfl⟩ := List.mem_map.mp hd
  exact ⟨_, hs.digest_eq (horder.mem_iff.mp he)⟩

/-- The text of the top tells the leaves and their order. -/
theorem HashesApart.leaves_eq_of_toHex_eq (h : HashesApart algorithm s t)
    (hs : s.IsTaken algorithm) (ht : t.IsTaken algorithm) {order order' : List SnapshotEntry}
    (horder : order.Perm s.entries) (horder' : order'.Perm t.entries)
    (hl : s.tree = .ofLeaves algorithm (order.map (·.digest)))
    (hr : t.tree = .ofLeaves algorithm (order'.map (·.digest)))
    (htop : s.tree.top.toHex = t.tree.top.toHex) : order.map leafOf = order'.map leafOf := by
  rw [hl, hr] at htop
  have hempty (b : Block) : (MerkleTree.ofLeaves algorithm []).top.toHex ≠
      (Digest.ofBlock b).toHex := by
    intro hnil
    have hlen := Digest.length_toHex_ofBlock b
    rw [← hnil, MerkleTree.top_ofLeaves_nil] at hlen
    cases hlen
  rcases eq_or_ne order [] with rfl | hne <;> rcases eq_or_ne order' [] with rfl | hne'
  · rfl
  · obtain ⟨b, hb⟩ := ht.top_ofBlock horder' hne'
    rw [hb] at htop
    exact absurd htop (hempty b)
  · obtain ⟨b, hb⟩ := hs.top_ofBlock horder hne
    rw [hb] at htop
    exact absurd htop.symm (hempty b)
  · obtain ⟨b, hb⟩ := hs.top_ofBlock horder hne
    obtain ⟨c, hc⟩ := ht.top_ofBlock horder' hne'
    rw [hb, hc] at htop
    have hblock := (Digest.toHex_append_inj (congrArg (· ++ "") htop)).1
    apply h.leaves_eq_of_blocks_eq hs ht (fun e => horder.mem_iff.mp) fun f => horder'.mem_iff.mp
    apply MerkleTree.blocks_eq_of_top_eq (h.distinguishes hs ht horder horder' hl hr)
      (List.map_eq_nil_iff.not.mpr hne) (List.map_eq_nil_iff.not.mpr hne')
      (nodup_blocks h.injectively.left hs horder) (nodup_blocks h.injectively.symm.left ht horder')
    rw [hb, hc, hblock]

theorem HashesApart.directoryText_eq (h : HashesApart algorithm s t) (hs : s.IsTaken algorithm)
    (ht : t.IsTaken algorithm) : s.differsFrom t = false ↔
      s.tree.top.toHex ++ s.name = t.tree.top.toHex ++ t.name := by
  rw [differsFrom, bne, Bool.not_eq_false', Digest.beq_iff_block, hs.digest, ht.digest,
    ← directoryInput_inj]
  exact ⟨h.injectively.eq_of_hash_eq (List.mem_append_right _ (List.mem_singleton_self _))
    (List.mem_append_right _ (List.mem_singleton_self _)), congrArg algorithm.hash⟩

def leadingBytes : HashAlgorithm := ⟨fun input => Vector.ofFn fun i => input.getD i 0⟩

def addingBlocks : HashAlgorithm :=
  ⟨fun input => Vector.ofFn fun i => input.getD i 0 + 3 * input.getD (32 + i) 0⟩

/-- A directory `d` with empty files `f`, `e` and `a` of the epoch. -/
def withF : FileSystem :=
  ⟨.bits34, .directory true [([100], .directory true [([102], .file ⟨0, 0⟩ []),
    ([101], .file ⟨0, 0⟩ []), ([97], .file ⟨0, 0⟩ [])])], by decide⟩

/-- The directory `d` when `g` has taken the place of `f`, and `e` has been touched. -/
def withG : FileSystem :=
  ⟨.bits34, .directory true [([100], .directory true [([103], .file ⟨0, 0⟩ []),
    ([101], .file ⟨1, 0⟩ []), ([97], .file ⟨0, 0⟩ [])])], by decide⟩

def snapshotOfD (letter : UInt8) (touched : Timestamp) : Snapshot :=
  .assembled addingBlocks .default ⟨[100]⟩
    [.leaf ⟨[letter], ⟨[100, 47, letter]⟩, ⟨0, 0⟩, .file⟩,
      .leaf ⟨[101], ⟨[100, 47, 101]⟩, touched, .file⟩,
      .leaf ⟨[97], ⟨[100, 47, 97]⟩, ⟨0, 0⟩, .file⟩] "d"

def snapshotF : Snapshot := snapshotOfD 102 ⟨0, 0⟩
def snapshotG : Snapshot := snapshotOfD 103 ⟨1, 0⟩

theorem take_withF : result (take addingBlocks withF .default ⟨[100]⟩) = .ok snapshotF :=
  take_eq_ok_iff.mpr ⟨_, _, by cbv, by cbv, rfl⟩

theorem take_withG : result (take addingBlocks withG .default ⟨[100]⟩) = .ok snapshotG :=
  take_eq_ok_iff.mpr ⟨_, _, by cbv, by cbv, rfl⟩

theorem hashesApart_snapshotF_snapshotG : HashesApart addingBlocks snapshotF snapshotG := by
  decide +kernel

end MerkleDir.Snapshot
