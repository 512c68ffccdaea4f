import MerkleDir.Proofs.Changes.Between
import MerkleDir.Proofs.Snapshot.History
import MerkleDir.Proofs.Snapshot.Identity

/-!
# The changed entries are those at the leaves that differ

Where no two inputs have one digest, a digest leads back to its entry and no leaf is hidden by the
nodes above it. What is found is then what a scan of both sequences of leaves finds. A shifted leaf
differs too, so more may be found than has changed, but never less; and if no leaf is shifted it is
exactly what has changed.
-/
namespace MerkleDir.Snapshot

open Logged (result)
open ChangeSet (foundEntries)

variable {algorithm : HashAlgorithm} {s t : Snapshot}

theorem filterMap_getElem?_filter_range {α : Type} (l : List α) {p : Nat → Bool} {q : α → Bool}
    (h : ∀ i a, l[i]? = some a → p i = q a) :
    ((List.range l.length).filter p).filterMap (l[·]?) = l.filter q := by
  induction l generalizing p with
  | nil => rfl
  | cons a l ih =>
    have hrest := ih (p := p ∘ Nat.succ) fun i b hb => h (i + 1) b hb
    have hfirst : p 0 = q a := h 0 a rfl
    rw [List.length_cons, List.range_succ_eq_map, List.filter_cons, List.filter_cons, ← hrest,
      hfirst, List.filter_map]
    cases q a <;> simp [List.filterMap_map, Function.comp_def]

/-- The entries in the order of their leaves, if a walk has met them as `walked`. -/
def inLeafOrder (s : Snapshot) (walked : List SnapshotEntry) : List SnapshotEntry :=
  match s.options.leafOrder with
  | .name => s.entries
  | .enumeration => walked

theorem inLeafOrder_of_take {fs : FileSystem} {options : SnapshotOptions} {root : Path}
    (h : result (take algorithm fs options root) = .ok s) :
    ∃ items, result (walk fs options root) = .ok items ∧
      (s.inLeafOrder (walkedEntries algorithm root items)).Perm s.entries ∧
      s.tree = .ofLeaves algorithm
        ((s.inLeafOrder (walkedEntries algorithm root items)).map (·.digest)) := by
  obtain ⟨items, name, hitems, -, rfl⟩ := take_eq_ok_iff.mp h
  have hnames := nodup_walkedEntries algorithm hitems
  have horder : (assembled algorithm options root items name).inLeafOrder
        (walkedEntries algorithm root items) =
      (EntryStore.ofEntries (walkedEntries algorithm root items)).leafEntries
        options.leafOrder := by
    rw [inLeafOrder, show (assembled algorithm options root items name).options = options from rfl]
    cases options.leafOrder with
    | name => rfl
    | enumeration => exact (EntryStore.leafEntries_enumeration hnames).symm
  refine ⟨items, hitems, ?_, ?_⟩
  · rw [horder]
    exact EntryStore.leafEntries_perm options.leafOrder hnames
  · rw [horder]
    rfl

/-- What is found of the entries of `t`, which stand in the order of its leaves. -/
structure FindsChanged (s t : Snapshot) (order found : List SnapshotEntry) : Prop where
  atPositions : found =
    (MerkleTree.changedPositions s.tree.leaves t.tree.leaves).filterMap (order[·]?)
  inOrder : found.Sublist order
  once : found.Nodup
  added : ∀ e ∈ t.entries, (∀ f ∈ s.entries, f.fileName ≠ e.fileName) → e ∈ found
  modified : ∀ e ∈ t.entries, ∀ f ∈ s.entries, f.fileName = e.fileName →
    f.modified ≠ e.modified → e ∈ found
  byName : s.options.leafOrder = .name → t.options.leafOrder = .name →
    (∀ n, n ∈ s.entries.map (·.fileName) ↔ n ∈ t.entries.map (·.fileName)) →
    found = t.entries.filter fun e =>
      decide (∃ f ∈ s.entries, f.fileName = e.fileName ∧ f.modified ≠ e.modified)

section SameCount

variable (h : HashesInjectively algorithm s t) (hs : s.IsTaken algorithm)
  (ht : t.IsTaken algorithm)

include h hs ht

/-- Entries of one name have different digests if their times differ. -/
theorem digest_bne_eq {e f : SnapshotEntry} (he : e ∈ t.entries) (hf : f ∈ s.entries)
    (hname : f.fileName = e.fileName) : (some f.digest != some e.digest) =
      decide (∃ g ∈ s.entries, g.fileName = e.fileName ∧ g.modified ≠ e.modified) := by
  rw [Bool.eq_iff_iff, decide_eq_true_eq, bne, Bool.not_eq_true', ← Bool.not_eq_true,
    Option.some_beq_some, Digest.beq_iff_block, h.entry_block_inj hs ht hf he]
  constructor
  · exact fun hne => ⟨f, hf, hname, fun htime => hne ⟨hname, htime⟩⟩
  · rintro ⟨g, hg, hgname, hne⟩ ⟨-, htime⟩
    rw [hs.eq_of_fileName hg hf (hgname.trans hname.symm)] at hne
    exact hne htime

/-- No leaf is shifted if the names are the same and in order. -/
theorem filterMap_changedPositions_of_names
    (hnames : s.entries.map (·.fileName) = t.entries.map (·.fileName)) :
    (MerkleTree.changedPositions (s.entries.map (·.digest)) (t.entries.map (·.digest))).filterMap
        (t.entries[·]?) =
      t.entries.filter fun e =>
        decide (∃ f ∈ s.entries, f.fileName = e.fileName ∧ f.modified ≠ e.modified) := by
  have hlength : (s.entries.map (·.digest)).length = t.entries.length := by
    simpa using congrArg List.length hnames
  rw [MerkleTree.changedPositions, hlength]
  refine filterMap_getElem?_filter_range _ fun i e he => ?_
  have hname := congrArg (·[i]?) hnames
  rw [List.getElem?_map, List.getElem?_map, he] at hname
  obtain ⟨f, hf, hname⟩ := Option.map_eq_some_iff.mp hname
  rw [List.getElem?_map, List.getElem?_map, he, hf]
  exact digest_bne_eq h hs ht (List.mem_of_getElem? he) (List.mem_of_getElem? hf) hname

theorem findsChanged {order order' : List SnapshotEntry} (horder : order.Perm s.entries)
    (horder' : order'.Perm t.entries) (hl : s.tree = .ofLeaves algorithm (order.map (·.digest)))
    (hr : t.tree = .ofLeaves algorithm (order'.map (·.digest)))
    (hlen : (order.map (·.digest)).length = (order'.map (·.digest)).length)
    (hname : t.options.leafOrder = .name → order' = t.entries) :
    FindsChanged s t order'
      (foundEntries algorithm (order.map (·.digest)) (order'.map (·.digest)) t) := by
  have hfound := ChangeSet.foundEntries_eq_scan h ht horder' hl hr hlen
  have hnew {e : SnapshotEntry} (he : e ∈ t.entries) (hnew : ChangeSet.IsNew s e) :=
    ChangeSet.mem_foundEntries h ht horder horder' hl hr hlen he hnew
  constructor
  case atPositions => rw [hfound, hl, hr]; rfl
  case inOrder =>
    have hall : (List.range order'.length).filterMap (order'[·]?) = order' := by
      simpa using filterMap_getElem?_filter_range order' (p := fun _ => true)
        (q := fun _ => true) fun _ _ _ => rfl
    rw [hfound, MerkleTree.changedPositions, hlen, List.length_map]
    have hsub := (List.filter_sublist (p := fun i => (order.map (·.digest))[i]? !=
      (order'.map (·.digest))[i]?) (l := List.range order'.length)).filterMap (order'[·]?)
    rwa [hall] at hsub
  case once => exact ChangeSet.nodup_foundEntries h.symm.left ht horder' _
  case added =>
    exact fun e he hmissing => hnew he (ChangeSet.isNew_of_missing h.symm ht hs he hmissing)
  case modified =>
    exact fun e he f hf hfname hne =>
      hnew he (ChangeSet.isNew_of_modified_ne h.symm ht hs he hf hfname hne)
  case byName =>
    intro hns hnt hmem
    have hnames := Bytes.eq_of_sorted (List.pairwise_map.mpr hs.sorted)
      (List.pairwise_map.mpr ht.sorted) hmem
    have hleaves : order.map (·.digest) = s.entries.map (·.digest) :=
      congrArg MerkleTree.leaves (hl.symm.trans (hs.tree_of_order hns))
    rw [hfound, hleaves, hname hnt]
    exact filterMap_changedPositions_of_names h hs ht hnames

end SameCount

/-- Two snapshots with equally many entries are compared as by a scan of their leaves; others are
not compared at all. -/
theorem findsChanged_of_take {fs fs' : FileSystem} {options options' : SnapshotOptions}
    {root root' : Path} (hs : result (take algorithm fs options root) = .ok s)
    (ht : result (take algorithm fs' options' root') = .ok t)
    (h : HashesInjectively algorithm s t) :
    ∃ items order, result (walk fs' options' root') = .ok items ∧
      order = t.inLeafOrder (walkedEntries algorithm root' items) ∧ order.Perm t.entries ∧
      t.tree.leaves = order.map (·.digest) ∧
      (s.entryCount = t.entryCount →
        ∃ found, result (s.changedEntries t) = .ok found ∧ FindsChanged s t order found) ∧
      (s.entryCount ≠ t.entryCount → result (s.changedEntries t) =
        .error (.shape ⟨s.tree.levels, t.tree.levels⟩)) := by
  obtain ⟨_, -, horder, hl⟩ := inLeafOrder_of_take hs
  obtain ⟨items, hitems, horder', hr⟩ := inLeafOrder_of_take ht
  rw [← length_digests horder, ← length_digests horder']
  refine ⟨items, _, hitems, rfl, horder', congrArg MerkleTree.leaves hr, fun hsame => ?_,
    fun hdiffer => ?_⟩
  · refine ⟨_, ChangeSet.result_changedEntries hl hr hsame, ?_⟩
    refine findsChanged h (isTaken_of_take hs) (isTaken_of_take ht) horder horder' hl hr
      hsame fun hname => ?_
    rw [inLeafOrder, hname]
  · exact ChangeSet.result_changedEntries_of_length_ne hl hr hdiffer

def withTouchedG : FileSystem :=
  ⟨.bits34,
    .directory true [([100], .directory true [([103], .file ⟨1, 0⟩ []), ([102], .file ⟨0, 0⟩ [])])],
    by decide⟩

def snapshotOfBoth (touched : Timestamp) : Snapshot :=
  .assembled addingBlocks .default ⟨[100]⟩
    [.leaf ⟨[103], ⟨[100, 47, 103]⟩, touched, .file⟩,
      .leaf ⟨[102], ⟨[100, 47, 102]⟩, ⟨0, 0⟩, .file⟩] "d"

theorem take_untouchedG :
    result (take addingBlocks withGAndF .default ⟨[100]⟩) = .ok (snapshotOfBoth ⟨0, 0⟩) :=
  take_eq_ok_iff.mpr ⟨_, _, by cbv, by cbv, rfl⟩

theorem take_withTouchedG :
    result (take addingBlocks withTouchedG .default ⟨[100]⟩) = .ok (snapshotOfBoth ⟨1, 0⟩) :=
  take_eq_ok_iff.mpr ⟨_, _, by cbv, by cbv, rfl⟩

theorem hashesInjectively_touchedG :
    HashesInjectively addingBlocks (snapshotOfBoth ⟨0, 0⟩) (snapshotOfBoth ⟨1, 0⟩) := by
  have h : HashesApart addingBlocks (snapshotOfBoth ⟨0, 0⟩) (snapshotOfBoth ⟨1, 0⟩) := by
    decide +kernel
  exact h.injectively

theorem changedEntries_touchedG : ∃ found,
    result ((snapshotOfBoth ⟨0, 0⟩).changedEntries (snapshotOfBoth ⟨1, 0⟩)) = .ok found ∧
      found.map (·.fileName) = [[103]] := by
  obtain ⟨_, order, -, -, -, -, hsame, -⟩ :=
    findsChanged_of_take take_untouchedG take_withTouchedG hashesInjectively_touchedG
  have hnames : (snapshotOfBoth ⟨0, 0⟩).entries.map (·.fileName) =
      (snapshotOfBoth ⟨1, 0⟩).entries.map (·.fileName) := by decide +kernel
  obtain ⟨found, hfound, hfinds⟩ := hsame (by decide +kernel)
  refine ⟨found, hfound, ?_⟩
  rw [hfinds.byName rfl rfl fun n => by rw [hnames]]
  decide +kernel

end MerkleDir.Snapshot
