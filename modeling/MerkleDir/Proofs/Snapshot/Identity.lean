import MerkleDir.Proofs.Snapshot.Hashed
import MerkleDir.Report.Basic

/-!
# What equal digests of snapshots mean

Over leaves ordered by name, two snapshots have one digest if the directories have one name and the
same leaves. No digits come before the name of an empty directory, so a directory may also have the
digest of an empty one whose name begins with the digits of its top.
-/
namespace MerkleDir.Snapshot

open Logged (result)

variable {algorithm : HashAlgorithm} {s t : Snapshot}

/-- An empty directory whose name is the digits of the top of `t` and the name of `t`. -/
def IsMistakenFor (s t : Snapshot) : Prop :=
  s.entries = [] ∧ t.entries ≠ [] ∧ s.name = t.tree.top.toHex ++ t.name

def HasLeavesOf (s t : Snapshot) : Prop :=
  s.name = t.name ∧ ∀ leaf, leaf ∈ s.entries.map leafOf ↔ leaf ∈ t.entries.map leafOf

namespace IsTaken

theorem tree_of_order (hs : s.IsTaken algorithm) (horder : s.options.leafOrder = .name) :
    s.tree = .ofLeaves algorithm (s.entries.map (·.digest)) := by
  obtain ⟨order, -, hname, htree⟩ := hs.tree
  rw [htree, hname horder]

theorem sorted_leaves (hs : s.IsTaken algorithm) :
    (s.entries.map leafOf).Pairwise fun x y => Bytes.compare x.1 y.1 = .lt :=
  List.pairwise_map.mpr hs.sorted

theorem leaves_eq_of_mem_iff (hs : s.IsTaken algorithm) (ht : t.IsTaken algorithm)
    (h : ∀ leaf, leaf ∈ s.entries.map leafOf ↔ leaf ∈ t.entries.map leafOf) :
    s.entries.map leafOf = t.entries.map leafOf := by
  have hne {x y : Bytes × Timestamp} (hxy : Bytes.compare x.1 y.1 = .lt) : x ≠ y := by
    rintro rfl
    rw [Bytes.compare_self] at hxy
    cases hxy
  have hperm := (List.perm_ext_iff_of_nodup (hs.sorted_leaves.imp hne)
    (ht.sorted_leaves.imp hne)).mpr h
  refine hperm.eq_of_pairwise (fun x y _ _ hxy hyx => ?_) hs.sorted_leaves ht.sorted_leaves
  have hself := Bytes.compare_trans hxy hyx
  rw [Bytes.compare_self] at hself
  cases hself

end IsTaken

/-- The text that is hashed for a directory is ambiguous only if one of the two is empty. -/
theorem differsFrom_eq_false_iff (h : HashesApart algorithm s t) (hs : s.IsTaken algorithm)
    (ht : t.IsTaken algorithm) (hns : s.options.leafOrder = .name)
    (hnt : t.options.leafOrder = .name) :
    s.differsFrom t = false ↔ s.HasLeavesOf t ∨ s.IsMistakenFor t ∨ t.IsMistakenFor s := by
  have hl := hs.tree_of_order hns
  have hr := ht.tree_of_order hnt
  have hempty {u : Snapshot} (htree : u.tree = .ofLeaves algorithm (u.entries.map (·.digest)))
      (hu : u.entries = []) : u.tree.top.toHex ++ u.name = u.name := by
    rw [htree, hu, List.map_nil, MerkleTree.top_ofLeaves_nil, Digest.toHex_empty_append]
  rw [h.directoryText_eq hs ht]
  constructor
  · intro htext
    rcases eq_or_ne s.entries [] with hse | hse <;> rcases eq_or_ne t.entries [] with hte | hte
    · rw [hempty hl hse, hempty hr hte] at htext
      exact Or.inl ⟨htext, by simp [hse, hte]⟩
    · rw [hempty hl hse] at htext
      exact Or.inr (Or.inl ⟨hse, hte, htext⟩)
    · rw [hempty hr hte] at htext
      exact Or.inr (Or.inr ⟨hte, hse, htext.symm⟩)
    · obtain ⟨b, hb⟩ := hs.top_ofBlock (.refl _) hse
      obtain ⟨c, hc⟩ := ht.top_ofBlock (.refl _) hte
      rw [hl, hr, hb, hc] at htext
      obtain ⟨hblock, hname⟩ := Digest.toHex_append_inj htext
      have htop : s.tree.top.toHex = t.tree.top.toHex := by rw [hl, hr, hb, hc, hblock]
      have hleaves := h.leaves_eq_of_toHex_eq hs ht (.refl _) (.refl _) hl hr htop
      exact Or.inl ⟨hname, fun leaf => by rw [hleaves]⟩
  · rintro (⟨hname, hmem⟩ | ⟨hse, -, hname⟩ | ⟨hte, -, hname⟩)
    · rw [hl, hr, hs.map_digest_eq (.refl _), ht.map_digest_eq (.refl _),
        hs.leaves_eq_of_mem_iff ht hmem, hname]
    · rw [hempty hl hse, hname]
    · rw [hempty hr hte, hname]

theorem options_of_take {fs : FileSystem} {options : SnapshotOptions} {root : Path}
    (h : result (take algorithm fs options root) = .ok s) : s.options = options := by
  obtain ⟨_, _, -, -, rfl⟩ := take_eq_ok_iff.mp h
  rfl

/-- Two directories are reported identical if they have one name and the same leaves, or if one of
them is empty and can be mistaken for the other. -/
theorem identical_iff {fs fs' : FileSystem} {options options' : SnapshotOptions}
    {root root' : Path} (hs : result (take algorithm fs options root) = .ok s)
    (ht : result (take algorithm fs' options' root') = .ok t) (hns : options.leafOrder = .name)
    (hnt : options'.leafOrder = .name) (h : HashesApart algorithm s t) :
    (s.differsFrom t = false ↔ s.HasLeavesOf t ∨ s.IsMistakenFor t ∨ t.IsMistakenFor s) ∧
      ((DiffReport.ofSnapshots s t).value.identical = true ↔
        s.HasLeavesOf t ∨ s.IsMistakenFor t ∨ t.IsMistakenFor s) := by
  have hdiffers := differsFrom_eq_false_iff h (isTaken_of_take hs) (isTaken_of_take ht)
    (by rw [options_of_take hs, hns]) (by rw [options_of_take ht, hnt])
  refine ⟨hdiffers, ?_⟩
  rw [← hdiffers, ← Bool.not_eq_true']
  rfl

theorem not_identical_withF_withG :
    (DiffReport.ofSnapshots snapshotF snapshotG).value.identical = false := by
  have h := (identical_iff take_withF take_withG rfl rfl hashesApart_snapshotF_snapshotG).2
  rw [← Bool.not_eq_true, h]
  rintro (⟨-, hmem⟩ | ⟨hnil, -⟩ | ⟨hnil, -⟩)
  · exact absurd ((hmem ([102], ⟨0, 0⟩)).mp (by decide +kernel)) (by decide +kernel)
  · exact absurd (congrArg List.length hnil) (by decide +kernel)
  · exact absurd (congrArg List.length hnil) (by decide +kernel)

def snapshotOfF : Snapshot :=
  assembled leadingBytes .default ⟨[100]⟩ [.leaf ⟨[102], ⟨[100, 47, 102]⟩, ⟨0, 0⟩, .file⟩] "d"

/-- The digits of the top of `snapshotOfF`, and its name. -/
def digitsAndD : String :=
  "662f302e30303030303030303000000000000000000000000000000000000000d"

def withEmpty : FileSystem :=
  ⟨.bits34, .directory true [([100], .directory true [([102], .file ⟨0, 0⟩ [])]),
    (Utf8.encode digitsAndD, .directory true [])], by decide +kernel⟩

def emptySnapshot : Snapshot := assembled leadingBytes .default (.ofText digitsAndD) [] digitsAndD

theorem take_emptyDirectory :
    result (take leadingBytes withEmpty .default (.ofText digitsAndD)) = .ok emptySnapshot := by
  have hwalk : result (walk withEmpty .default (.ofText digitsAndD)) = .ok [] := by cbv
  have hname : directoryName withEmpty (.ofText digitsAndD) = .ok digitsAndD := by cbv
  exact take_eq_ok_iff.mpr ⟨[], digitsAndD, hwalk, hname, rfl⟩

theorem take_beside_emptyDirectory :
    result (take leadingBytes withEmpty .default ⟨[100]⟩) = .ok snapshotOfF :=
  take_eq_ok_iff.mpr ⟨_, _, by cbv, by cbv, rfl⟩

def inputOfF : Bytes := [102, 47, 48, 46, 48, 48, 48, 48, 48, 48, 48, 48, 48]

theorem hashedInputs_snapshotOfF :
    snapshotOfF.hashedInputs = [inputOfF, Utf8.encode digitsAndD] := by decide +kernel

theorem hashedInputs_emptySnapshot :
    emptySnapshot.hashedInputs = [Utf8.encode digitsAndD] := by decide +kernel

theorem hashesApart_emptySnapshot : HashesApart leadingBytes snapshotOfF emptySnapshot := by
  have hne : leadingBytes.hash inputOfF ≠ leadingBytes.hash (Utf8.encode digitsAndD) := by
    decide +kernel
  refine ⟨?_, by decide +kernel⟩
  intro x hx y hy hhash
  rw [Set.mem_ofPred_eq, hashedInputs_snapshotOfF, hashedInputs_emptySnapshot] at hx hy
  simp only [List.mem_append, List.mem_cons, List.not_mem_nil, or_false, or_assoc, or_self] at hx hy
  rcases hx with rfl | rfl <;> rcases hy with rfl | rfl
  · rfl
  · exact absurd hhash hne
  · exact absurd hhash.symm hne
  · rfl

theorem differsFrom_emptySnapshot : snapshotOfF.differsFrom emptySnapshot = false := by
  decide +kernel

theorem name_emptySnapshot : snapshotOfF.name ≠ emptySnapshot.name := by decide +kernel

/-- Two directories are identical though one holds a file and the other, under another name, none.
-/
theorem identical_to_emptyDirectory :
    result (take leadingBytes withEmpty .default ⟨[100]⟩) = .ok snapshotOfF ∧
      result (take leadingBytes withEmpty .default (.ofText digitsAndD)) = .ok emptySnapshot ∧
      HashesApart leadingBytes snapshotOfF emptySnapshot ∧
      snapshotOfF.differsFrom emptySnapshot = false ∧
      ¬ snapshotOfF.HasLeavesOf emptySnapshot :=
  ⟨take_beside_emptyDirectory, take_emptyDirectory, hashesApart_emptySnapshot,
    differsFrom_emptySnapshot, fun h => name_emptySnapshot h.1⟩

end MerkleDir.Snapshot
