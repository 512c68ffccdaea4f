import MerkleDir.Proofs.Changes.Candidates
import MerkleDir.Proofs.Snapshot.History
import MerkleDir.Proofs.Snapshot.Identity

/-!
# What digests depend on

Over leaves ordered by name, the digests of a snapshot depend on the names and times of the leaves and
on the name of the directory. It makes no difference in which order the leaves are listed, what kind
they are of, where the directory is and by which path it is reached.
-/
namespace MerkleDir.Snapshot

open Logged (result)
open ChangeSet (between)

variable {algorithm : HashAlgorithm} {s t : Snapshot} {fs fs' : FileSystem}
  {options options' : SnapshotOptions} {root root' : Path} {items items' : List WalkItem}

def namesAndTimes (items : List WalkItem) : List (Bytes × Timestamp) :=
  (items.filterMap WalkItem.leaf?).map fun leaf => (leaf.fileName, leaf.modified)

theorem map_leafOf_perm (hs : result (take algorithm fs options root) = .ok s)
    (hitems : result (walk fs options root) = .ok items) :
    (s.entries.map leafOf).Perm (namesAndTimes items) := by
  obtain ⟨found, name, hfound, -, rfl⟩ := take_eq_ok_iff.mp hs
  obtain rfl : items = found := Except.ok.inj (hitems.symm.trans hfound)
  have hperm := (EntryStore.entries_perm (nodup_walkedEntries algorithm hitems)).map leafOf
  rwa [walkedEntries, List.map_map] at hperm

namespace IsTaken

theorem map_digest_entry? (hs : s.IsTaken algorithm) (n : Bytes) :
    (s.entry? n).map (·.digest) = ((s.entries.map leafOf).find? (·.1 == n)).map fun leaf =>
      .make algorithm (entryInput leaf.1 "/" leaf.2) := by
  rw [Snapshot.entry?, List.find?_map, Option.map_map]
  refine Option.map_congr fun e he => ?_
  exact hs.digest_eq (List.mem_of_find?_eq_some he)

theorem exists_entry_of_digests_eq (ht : t.IsTaken algorithm)
    (h : ∀ n, (s.entry? n).map (·.digest) = (t.entry? n).map (·.digest)) {e : SnapshotEntry}
    (he : e ∈ t.entries) : ∃ f, s.entry? e.fileName = some f ∧ f.digest = e.digest := by
  have hentry := h e.fileName
  rw [ht.entry?_eq_some_iff.mpr ⟨he, rfl⟩, Option.map_some] at hentry
  exact Option.map_eq_some_iff.mp hentry

end IsTaken

theorem unchanged_of_digests_eq (ht : t.IsTaken algorithm)
    (h : ∀ n, (s.entry? n).map (·.digest) = (t.entry? n).map (·.digest)) {e : SnapshotEntry}
    (he : e ∈ t.entries) : ChangeSet.isModified s e = false ∧ ChangeSet.isMissing s e = false := by
  obtain ⟨f, hf, hdigest⟩ := ht.exists_entry_of_digests_eq h he
  simp [ChangeSet.isModified, ChangeSet.isMissing, hf, hdigest, bne]

/-- Nothing has changed where each name has one digest in both snapshots. -/
theorem isEmpty_between_of_digests_eq (hs : s.IsTaken algorithm) (ht : t.IsTaken algorithm)
    (h : ∀ n, (s.entry? n).map (·.digest) = (t.entry? n).map (·.digest)) :
    (between s t).value.isEmpty = true := by
  rcases ChangeSet.value_between_cases hs ht with hnone | ⟨fresh, hfresh, stale, hstale, hsome⟩
  · rw [hnone]
    rfl
  · have hmodified : fresh.filter (ChangeSet.isModified s) = [] := List.filter_eq_nil_iff.mpr
      fun e he => by simp [unchanged_of_digests_eq ht h (hfresh he)]
    have hadded : fresh.filter (ChangeSet.isMissing s) = [] := List.filter_eq_nil_iff.mpr
      fun e he => by simp [unchanged_of_digests_eq ht h (hfresh he)]
    have hremoved : stale.filter (ChangeSet.isMissing t) = [] := List.filter_eq_nil_iff.mpr
      fun e he => by simp [unchanged_of_digests_eq hs (fun n => (h n).symm) (hstale he)]
    rw [hsome, ChangeSet.ofCandidates, hmodified, hadded, hremoved]
    rfl

/-- Two snapshots of the same leaves have the same digests by name, one tree and no changes between
them, and one digest if the directories have one name. -/
theorem digests_eq_of_same_leaves (hs : result (take algorithm fs options root) = .ok s)
    (ht : result (take algorithm fs' options' root') = .ok t) (hns : options.leafOrder = .name)
    (hnt : options'.leafOrder = .name) (hitems : result (walk fs options root) = .ok items)
    (hitems' : result (walk fs' options' root') = .ok items')
    (hsame : ∀ leaf, leaf ∈ namesAndTimes items ↔ leaf ∈ namesAndTimes items') :
    (∀ n, (s.entry? n).map (·.digest) = (t.entry? n).map (·.digest)) ∧
      s.tree.leaves = t.tree.leaves ∧ s.tree.levels = t.tree.levels ∧ s.tree.top = t.tree.top ∧
      (between s t).value.isEmpty = true ∧ (s.name = t.name → s.digest = t.digest) := by
  have hsTaken := isTaken_of_take hs
  have htTaken := isTaken_of_take ht
  have hmem (leaf : Bytes × Timestamp) :
      leaf ∈ s.entries.map leafOf ↔ leaf ∈ t.entries.map leafOf := by
    rw [(map_leafOf_perm hs hitems).mem_iff, (map_leafOf_perm ht hitems').mem_iff, hsame]
  have hleaves := hsTaken.leaves_eq_of_mem_iff htTaken hmem
  have hdigests (n : Bytes) : (s.entry? n).map (·.digest) = (t.entry? n).map (·.digest) := by
    rw [hsTaken.map_digest_entry?, htTaken.map_digest_entry?, hleaves]
  have htree : s.tree = t.tree := by
    rw [hsTaken.tree_of_order (by rw [options_of_take hs, hns]),
      htTaken.tree_of_order (by rw [options_of_take ht, hnt]), hsTaken.map_digest_eq (.refl _),
      htTaken.map_digest_eq (.refl _), hleaves]
  refine ⟨hdigests, by rw [htree], by rw [htree], by rw [htree],
    isEmpty_between_of_digests_eq hsTaken htTaken hdigests, fun hname => ?_⟩
  rw [hsTaken.digest, htTaken.digest, htree, hname]

/-- A directory `e/d` that lists a link `f` to the empty file `x` before an empty file `g`. -/
def withLinkF : FileSystem :=
  ⟨.bits34, .directory true [([101], .directory true [([100], .directory true
      [([102], .link ⟨5, 0⟩ [47, 120]), ([103], .file ⟨0, 0⟩ [])])]),
    ([120], .file ⟨0, 0⟩ [])], by decide⟩

def spelledD : Path := ⟨[101, 47, 47, 100, 47, 46]⟩

def itemsGAndF : List WalkItem :=
  [.leaf ⟨[103], ⟨[100, 47, 103]⟩, ⟨0, 0⟩, .file⟩, .leaf ⟨[102], ⟨[100, 47, 102]⟩, ⟨0, 0⟩, .file⟩]

def itemsLinkF : List WalkItem :=
  [.leaf ⟨[102], spelledD.join [102], ⟨0, 0⟩, .followedSymlink ⟨[47, 120]⟩⟩,
    .leaf ⟨[103], spelledD.join [103], ⟨0, 0⟩, .file⟩]

theorem digest_eq_linkF :
    (assembled .blake3 .default ⟨[100]⟩ itemsGAndF "d").digest =
        (assembled .blake3 .default spelledD itemsLinkF "d").digest ∧
      (between (assembled .blake3 .default ⟨[100]⟩ itemsGAndF "d")
        (assembled .blake3 .default spelledD itemsLinkF "d")).value.isEmpty = true := by
  have hwalk : result (walk withGAndF .default ⟨[100]⟩) = .ok itemsGAndF := by cbv
  have hwalk' : result (walk withLinkF .default spelledD) = .ok itemsLinkF := by cbv
  have hname : directoryName withGAndF ⟨[100]⟩ = .ok "d" := by cbv
  have hname' : directoryName withLinkF spelledD = .ok "d" := by cbv
  have htake : result (take .blake3 withGAndF .default ⟨[100]⟩) = .ok _ :=
    take_eq_ok_iff.mpr ⟨_, _, hwalk, hname, rfl⟩
  have h := digests_eq_of_same_leaves htake
    (take_eq_ok_iff.mpr ⟨_, _, hwalk', hname', rfl⟩) rfl rfl hwalk hwalk' (by
      intro leaf
      simp [namesAndTimes, itemsGAndF, itemsLinkF, WalkItem.leaf?, or_comm])
  exact ⟨h.2.2.2.2.2 rfl, h.2.2.2.2.1⟩

end MerkleDir.Snapshot
