import MerkleDir.Proofs.Hashing.Inputs
import MerkleDir.Proofs.Path.Parent
import MerkleDir.Proofs.Snapshot.Store
import MerkleDir.Proofs.Snapshot.Walked

namespace MerkleDir

open Logged (result)

theorem leaves_of_classified {fs : FileSystem} {options : SnapshotOptions} {root : Path}
    {es : List (Bytes × Node)} {found : List (Option WalkItem)}
    (h : List.Forall₂ (fun e item => result (Walk.classify fs options root e) = .ok item) es found) :
    (((found.filterMap id).filterMap WalkItem.leaf?).map Leaf.fileName).Sublist (es.map Prod.fst) ∧
      ∀ leaf ∈ (found.filterMap id).filterMap WalkItem.leaf?,
        leaf.path = root.join leaf.fileName := by
  induction h with
  | nil => simp
  | @cons e item es found hitem _ ih =>
    rcases item with _ | item
    · exact ⟨ih.1.cons _, ih.2⟩
    · rcases Walk.isItemOf_classify hitem with rfl | ⟨modified, kind, rfl⟩
      · exact ⟨ih.1.cons _, ih.2⟩
      · refine ⟨ih.1.cons_cons _, fun leaf hleaf => ?_⟩
        rcases List.mem_cons.mp hleaf with rfl | hleaf
        · rfl
        · exact ih.2 leaf hleaf

/-- The leaves of a walk have names of entries, each at most once. -/
theorem leaves_of_walk {fs : FileSystem} {options : SnapshotOptions} {root : Path}
    {items : List WalkItem} (h : result (walk fs options root) = .ok items) :
    ((items.filterMap WalkItem.leaf?).map Leaf.fileName).Nodup ∧
      ∀ leaf ∈ items.filterMap WalkItem.leaf?,
        Node.isEntryName leaf.fileName = true ∧ leaf.path = root.join leaf.fileName := by
  obtain ⟨es, found, hlist, hfound, rfl⟩ := walk_eq_ok_iff.mp h
  obtain ⟨location, -, hnode⟩ := FileSystem.list_eq_ok_iff.mp hlist
  obtain ⟨hnames, hes⟩ := Node.isWellFormed_directory.mp (FileSystem.isWellFormed_of_nodeAt? hnode)
  obtain ⟨hsub, hpaths⟩ := leaves_of_classified hfound
  refine ⟨hnames.sublist hsub, fun leaf hleaf => ⟨?_, hpaths leaf hleaf⟩⟩
  obtain ⟨e, he, hname⟩ := List.mem_map.mp (hsub.subset (List.mem_map_of_mem hleaf))
  exact hname ▸ (hes e he).1

namespace Snapshot

variable {algorithm : HashAlgorithm} {fs : FileSystem} {options : SnapshotOptions} {root : Path}

def entryInputOf (s : Snapshot) (e : SnapshotEntry) : Bytes :=
  entryInput e.fileName (Path.relativeParent s.path e.path) e.modified

structure IsTaken (algorithm : HashAlgorithm) (s : Snapshot) : Prop where
  sorted : s.entries.Pairwise fun a b => Bytes.compare a.fileName b.fileName = .lt
  name : ∀ e ∈ s.entries, Node.isEntryName e.fileName = true
  path : ∀ e ∈ s.entries, e.path = s.path.join e.fileName
  entryDigest : ∀ e ∈ s.entries, e.digest = .make algorithm (s.entryInputOf e)
  tree : ∃ order : List SnapshotEntry, order.Perm s.entries ∧
    (s.options.leafOrder = .name → order = s.entries) ∧
    s.tree = .ofLeaves algorithm (order.map (·.digest))
  byDigest : s.byDigest = (indexEntries .empty s.entries).value
  digest : s.digest = .directory algorithm s.tree.top s.name

theorem nodup_walkedEntries (algorithm : HashAlgorithm) {items : List WalkItem}
    (h : result (walk fs options root) = .ok items) :
    ((walkedEntries algorithm root items).map (·.fileName)).Nodup := by
  rw [walkedEntries, List.map_map]
  exact (leaves_of_walk h).1

theorem isTaken_of_take {s : Snapshot} (h : result (take algorithm fs options root) = .ok s) :
    s.IsTaken algorithm := by
  obtain ⟨items, name, hitems, -, rfl⟩ := take_eq_ok_iff.mp h
  obtain ⟨-, hleaves⟩ := leaves_of_walk hitems
  have hnames := nodup_walkedEntries algorithm hitems
  have hmem {e : SnapshotEntry} (he : e ∈ (assembled algorithm options root items name).entries) :
      ∃ leaf ∈ items.filterMap WalkItem.leaf?, hashLeaf algorithm root leaf = e :=
    List.mem_map.mp ((EntryStore.entries_perm hnames).mem_iff.mp he)
  refine ⟨EntryStore.pairwise_entries, fun e he => ?_, fun e he => ?_, fun e he => ?_, ?_, rfl, rfl⟩
  · obtain ⟨leaf, hleaf, rfl⟩ := hmem he
    exact (hleaves leaf hleaf).1
  · obtain ⟨leaf, hleaf, rfl⟩ := hmem he
    exact (hleaves leaf hleaf).2
  · obtain ⟨leaf, hleaf, rfl⟩ := hmem he
    rfl
  · refine ⟨_, EntryStore.leafEntries_perm options.leafOrder hnames, fun horder => ?_, rfl⟩
    rw [show options.leafOrder = .name from horder]
    rfl

theorem length_digests {s : Snapshot} {order : List SnapshotEntry} (h : order.Perm s.entries) :
    (order.map (·.digest)).length = s.entryCount :=
  (List.length_map _).trans h.length_eq

namespace IsTaken

variable {s : Snapshot} (h : s.IsTaken algorithm)

include h

theorem entryInputOf_eq {e : SnapshotEntry} (he : e ∈ s.entries) :
    s.entryInputOf e = entryInput e.fileName "/" e.modified := by
  rw [entryInputOf, h.path e he, Path.relativeParent_join _ (h.name e he)]

theorem nodup_fileName : (s.entries.map (·.fileName)).Nodup := EntryStore.nodup_fileName h.sorted

theorem eq_of_fileName {e f : SnapshotEntry} (he : e ∈ s.entries) (hf : f ∈ s.entries)
    (hname : e.fileName = f.fileName) : e = f :=
  List.inj_on_of_nodup_map h.nodup_fileName he hf hname

theorem entry?_eq_some_iff {n : Bytes} {e : SnapshotEntry} :
    s.entry? n = some e ↔ e ∈ s.entries ∧ e.fileName = n :=
  EntryStore.find?_fileName_eq_some_iff h.nodup_fileName

/-- Of the entries with one digest the index leads to the last. -/
theorem entryByDigest?_eq (d : Digest) :
    s.entryByDigest? d = s.entries.reverse.find? (·.digest == d) := by
  rw [entryByDigest?, h.byDigest, lookup?_indexEntries, DigestIndex.lookup?_empty, Option.or_none]
  cases hfound : s.entries.reverse.find? (·.digest == d) with
  | none => rfl
  | some e =>
    have he := List.mem_reverse.mp (List.mem_of_find?_eq_some hfound)
    exact h.entry?_eq_some_iff.mpr ⟨he, rfl⟩

end IsTaken

end Snapshot
end MerkleDir
