import MerkleDir.Proofs.Snapshot.Taken
import MerkleDir.Proofs.Tree.Levels

/-!
# What a snapshot records of the leaves

The store has one record for each leaf, the tree one leaf for each record, and the index leads from
a digest to one of the records that have it. Nothing is assumed of the hash: if digests collide,
only slots of the index are taken over.
-/
namespace MerkleDir

open Logged (result)

def SnapshotEntry.leaf (e : SnapshotEntry) : Leaf := ⟨e.fileName, e.path, e.modified, e.kind⟩

namespace Snapshot

variable {algorithm : HashAlgorithm} {s : Snapshot}

def IsGreatestWith (s : Snapshot) (d : Digest) (e : SnapshotEntry) : Prop :=
  e ∈ s.entries ∧ (e.digest == d) = true ∧ ∀ f ∈ s.entries, (f.digest == d) = true →
    f.fileName = e.fileName ∨ Bytes.compare f.fileName e.fileName = .lt

/-- What a snapshot of the directory at `root` records if a walk has returned `leaves`. -/
structure Records (algorithm : HashAlgorithm) (root : Path) (leaves : List Leaf) (s : Snapshot) :
    Prop where
  path : s.path = root
  onePerLeaf : (s.entries.map SnapshotEntry.leaf).Perm leaves
  ascending : s.entries.Pairwise fun a b => Bytes.compare a.fileName b.fileName = .lt
  keyed : ∀ n e, s.entry? n = some e ↔ e ∈ s.entries ∧ e.fileName = n
  entryPath : ∀ e ∈ s.entries, e.path = s.path.join e.fileName
  entryDigest : ∀ e ∈ s.entries, e.digest = .make algorithm (entryInput e.fileName "/" e.modified)
  tree : s.tree = .ofLeaves algorithm s.tree.leaves
  entryCount : s.entryCount = s.tree.leaves.length
  levels : s.tree.levels.head? = if s.entryCount = 0 then none else some s.entryCount
  leavesByName : s.options.leafOrder = .name → s.tree.leaves = s.entries.map (·.digest)
  leavesByWalk : s.options.leafOrder = .enumeration → s.tree.leaves =
    (leaves.filterMap fun leaf => s.entry? leaf.fileName).map (·.digest)
  unindexed : ∀ d, s.entryByDigest? d = none ↔ ∀ e ∈ s.entries, (e.digest == d) = false
  indexed : ∀ d e, s.entryByDigest? d = some e ↔ s.IsGreatestWith d e
  digest : s.digest = .make algorithm (directoryInput s.tree.top s.name)

theorem head?_levels (leaves : List Digest) :
    (MerkleTree.ofLeaves algorithm leaves).levels.head? =
      if leaves.length = 0 then none else some leaves.length := by
  cases leaves with
  | nil => rfl
  | cons d leaves => rfl

namespace IsTaken

variable (h : s.IsTaken algorithm)

include h

theorem precedes_or_eq {e f : SnapshotEntry} {before after : List SnapshotEntry}
    (hsplit : s.entries = before ++ e :: after) (hf : f ∈ before ∨ f = e) :
    f.fileName = e.fileName ∨ Bytes.compare f.fileName e.fileName = .lt := by
  rcases hf with hf | rfl
  · have hsorted := h.sorted
    rw [hsplit] at hsorted
    exact Or.inr ((List.pairwise_append.mp hsorted).2.2 f hf e List.mem_cons_self)
  · exact Or.inl rfl

/-- The last record with a digest has the greatest name. -/
theorem isGreatestWith_of_entryByDigest? {d : Digest} {e : SnapshotEntry}
    (hfound : s.entryByDigest? d = some e) : s.IsGreatestWith d e := by
  rw [h.entryByDigest?_eq] at hfound
  obtain ⟨hd, after, before, hsplit, hafter⟩ := List.find?_eq_some_iff_append.mp hfound
  have hentries : s.entries = before.reverse ++ e :: after.reverse := by
    rw [← List.reverse_reverse s.entries, hsplit]
    simp
  refine ⟨by simp [hentries], hd, fun f hf hfd => h.precedes_or_eq hentries ?_⟩
  rw [hentries, List.mem_append, List.mem_cons] at hf
  rcases hf with hf | hf | hf
  · exact Or.inl hf
  · exact Or.inr hf
  · have hne := hafter f (List.mem_reverse.mp hf)
    rw [hfd] at hne
    cases hne

theorem entryByDigest?_eq_none_iff {d : Digest} :
    s.entryByDigest? d = none ↔ ∀ e ∈ s.entries, (e.digest == d) = false := by
  rw [h.entryByDigest?_eq, List.find?_eq_none]
  simp only [List.mem_reverse, Bool.not_eq_true]

theorem entryByDigest?_eq_some_iff {d : Digest} {e : SnapshotEntry} :
    s.entryByDigest? d = some e ↔ s.IsGreatestWith d e := by
  refine ⟨h.isGreatestWith_of_entryByDigest?, fun ⟨he, hd, hgreatest⟩ => ?_⟩
  cases hfound : s.entryByDigest? d with
  | none =>
    rw [h.entryByDigest?_eq_none_iff.mp hfound e he] at hd
    cases hd
  | some g =>
    obtain ⟨hg, hgd, hgreatest'⟩ := h.isGreatestWith_of_entryByDigest? hfound
    -- each of the two is the greatest, so neither precedes the other
    have hname : e.fileName = g.fileName := by
      rcases hgreatest g hg hgd with heq | hlt
      · exact heq.symm
      · refine (hgreatest' e he hd).resolve_right fun hlt' => ?_
        have hself := Bytes.compare_trans hlt hlt'
        rw [Bytes.compare_self] at hself
        cases hself
    rw [h.eq_of_fileName he hg hname]

end IsTaken

theorem map_leaf_walkedEntries (algorithm : HashAlgorithm) (root : Path) (items : List WalkItem) :
    (walkedEntries algorithm root items).map SnapshotEntry.leaf =
      items.filterMap WalkItem.leaf? := by
  rw [walkedEntries, List.map_map]
  exact List.map_id _

theorem records_of_take {fs : FileSystem} {options : SnapshotOptions} {root : Path}
    (h : result (take algorithm fs options root) = .ok s) :
    ∃ items, result (walk fs options root) = .ok items ∧
      s.Records algorithm root (items.filterMap WalkItem.leaf?) := by
  have hs := isTaken_of_take h
  obtain ⟨items, name, hitems, -, rfl⟩ := take_eq_ok_iff.mp h
  have hnames := nodup_walkedEntries algorithm hitems
  have hcount : (assembled algorithm options root items name).entryCount =
      (assembled algorithm options root items name).tree.leaves.length := by
    have hperm := EntryStore.leafEntries_perm options.leafOrder hnames
    exact hperm.length_eq.symm.trans (List.length_map _).symm
  refine ⟨items, hitems, ?_⟩
  constructor
  case path => rfl
  case onePerLeaf =>
    rw [← map_leaf_walkedEntries algorithm root]
    exact (EntryStore.entries_perm hnames).map _
  case ascending => exact hs.sorted
  case keyed => exact fun n e => hs.entry?_eq_some_iff
  case entryPath => exact hs.path
  case entryDigest =>
    intro e he
    rw [hs.entryDigest e he, hs.entryInputOf_eq he]
  case tree => rfl
  case entryCount => exact hcount
  case levels =>
    rw [hcount]
    exact head?_levels _
  case leavesByName =>
    intro horder
    show List.map _ (EntryStore.leafEntries _ options.leafOrder) = _
    rw [show options.leafOrder = .name from horder]
    rfl
  case leavesByWalk =>
    intro horder
    show List.map _ (EntryStore.leafEntries _ options.leafOrder) = _
    rw [show options.leafOrder = .enumeration from horder, EntryStore.leafEntries,
      EntryStore.met_ofEntries hnames, ← map_leaf_walkedEntries algorithm root,
      List.filterMap_map, List.filterMap_map]
    rfl
  case unindexed => exact fun d => hs.entryByDigest?_eq_none_iff
  case indexed => exact fun d e => hs.entryByDigest?_eq_some_iff
  case digest => exact hs.digest

end Snapshot
end MerkleDir
