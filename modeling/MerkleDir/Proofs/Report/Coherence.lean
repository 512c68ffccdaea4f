import MerkleDir.Proofs.Changes.Replay
import MerkleDir.Proofs.FileSystem.Reached
import MerkleDir.Proofs.Snapshot.Determinacy
import MerkleDir.Proofs.Text.Utf8
import MerkleDir.Proofs.Tree.Identity
import MerkleDir.Report.Text

/-!
# The parts of a comparison agree

What a comparison of two directories says of their entries, of the shapes of their trees and of what
has changed is found in different ways. Where the digests of the directories differ and all digests
can be relied on, nothing that is said contradicts the rest, and a comparison in the other direction
says the same.
-/
namespace MerkleDir

namespace Snapshot

open ChangeSet (between)

variable {algorithm : HashAlgorithm} {s t : Snapshot}

/-- Nothing that is hashed has the block of the empty digest. -/
def NeverZero (algorithm : HashAlgorithm) (s : Snapshot) : Prop :=
  ∀ x ∈ s.hashedInputs, algorithm.hash x ≠ Vector.replicate 32 0

instance : Decidable (NeverZero algorithm s) := inferInstanceAs (Decidable (∀ x ∈ _, _))

theorem top_block_ne (hs : s.IsTaken algorithm) (horder : s.options.leafOrder = .name)
    (hzero : NeverZero algorithm s) (hne : s.entries ≠ []) :
    s.tree.top.block ≠ Vector.replicate 32 0 := by
  have htree := hs.tree_of_order horder
  have hleaves : s.entries.map (·.digest) ≠ [] := List.map_eq_nil_iff.not.mpr hne
  have hmem : s.tree.top ∈ s.entries.map (·.digest) ++ s.tree.parents :=
    htree ▸ MerkleTree.top_mem hleaves
  rw [List.mem_append] at hmem
  rcases hmem with hleaf | hparent
  · obtain ⟨e, he, hdigest⟩ := List.mem_map.mp hleaf
    rw [← hdigest, hs.entryDigest e he]
    exact hzero _ (List.mem_append_left _ (List.mem_append_left _ (List.mem_map_of_mem he)))
  · rw [htree, MerkleTree.parents_ofLeaves, ← htree] at hparent
    obtain ⟨x, hx, hdigest⟩ := List.mem_map.mp hparent
    rw [← hdigest]
    exact hzero x (List.mem_append_left _ (List.mem_append_right _ hx))

section Apart

variable (h : HashesApart algorithm s t) (hs : s.IsTaken algorithm) (ht : t.IsTaken algorithm)
  (hns : s.options.leafOrder = .name) (hnt : t.options.leafOrder = .name)

include h hs ht hns hnt

theorem tops_equal_iff (hzero : NeverZero algorithm s) (hzero' : NeverZero algorithm t) :
    s.tree.differsFrom t.tree = false ↔ s.entries.map leafOf = t.entries.map leafOf := by
  have hl := hs.tree_of_order hns
  have hr := ht.tree_of_order hnt
  have hempty {u : Snapshot} (htree : u.tree = .ofLeaves algorithm (u.entries.map (·.digest)))
      (hu : u.entries = []) : u.tree.top.block = Vector.replicate 32 0 := by
    rw [htree, hu, List.map_nil, MerkleTree.top_ofLeaves_nil]
    rfl
  rw [MerkleTree.differsFrom, bne, Bool.not_eq_false', Digest.beq_iff_block]
  constructor
  · intro htop
    rcases eq_or_ne s.entries [] with hse | hse <;> rcases eq_or_ne t.entries [] with hte | hte
    · rw [hse, hte]
    · exact absurd (htop.symm.trans (hempty hl hse)) (top_block_ne ht hnt hzero' hte)
    · exact absurd (htop.trans (hempty hr hte)) (top_block_ne hs hns hzero hse)
    · obtain ⟨b, hb⟩ := hs.top_ofBlock (.refl _) hse
      obtain ⟨c, hc⟩ := ht.top_ofBlock (.refl _) hte
      rw [← hl] at hb
      rw [← hr] at hc
      refine h.leaves_eq_of_toHex_eq hs ht (.refl _) (.refl _) hl hr ?_
      rw [hb, hc] at htop ⊢
      exact congrArg (fun block => (Digest.ofBlock block).toHex) htop
  · intro hleaves
    rw [hl, hr, hs.map_digest_eq (.refl _), ht.map_digest_eq (.refl _), hleaves]

omit hns hnt in
theorem isEmpty_between_iff (hd : s.differsFrom t = true) :
    (between s t).value.isEmpty = true ↔ s.entries.map leafOf = t.entries.map leafOf := by
  constructor
  · intro hempty
    simp only [ChangeSet.isEmpty, Bool.and_eq_true, List.isEmpty_iff] at hempty
    obtain ⟨⟨hmodified, hadded⟩, hremoved⟩ := hempty
    obtain ⟨hmissing, hgone, hchanged⟩ := ChangeSet.between_complete h hs ht (Or.inr hd)
    rw [hmodified, List.nil_perm, List.map_eq_nil_iff, ChangeSet.entriesChangedFrom,
      List.filter_eq_nil_iff] at hchanged
    rw [hadded, List.nil_perm, List.map_eq_nil_iff, ChangeSet.entriesMissingIn,
      List.filter_eq_nil_iff] at hmissing
    rw [hremoved, List.nil_perm, List.map_eq_nil_iff, ChangeSet.entriesMissingIn,
      List.filter_eq_nil_iff] at hgone
    simp only [decide_eq_true_eq, not_forall, not_not] at hmissing hgone
    simp only [decide_eq_true_eq, not_exists, not_and, Bool.not_eq_true] at hchanged
    -- entries of one name have one digest
    have hsame {e f : SnapshotEntry} (he : e ∈ t.entries) (hf : f ∈ s.entries)
        (hname : f.fileName = e.fileName) : leafOf f = leafOf e := by
      have hdigest := hchanged e he f hf hname
      rw [bne, Bool.not_eq_false', Digest.beq_iff_block] at hdigest
      obtain ⟨-, htime⟩ := (h.injectively.entry_block_inj hs ht hf he).mp hdigest
      exact Prod.ext hname htime
    refine hs.leaves_eq_of_mem_iff ht fun leaf => ⟨fun hleaf => ?_, fun hleaf => ?_⟩
    · obtain ⟨f, hf, rfl⟩ := List.mem_map.mp hleaf
      obtain ⟨e, he, hname⟩ := hgone f hf
      exact List.mem_map.mpr ⟨e, he, (hsame he hf hname.symm).symm⟩
    · obtain ⟨e, he, rfl⟩ := List.mem_map.mp hleaf
      obtain ⟨f, hf, hname⟩ := hmissing e he
      exact List.mem_map.mpr ⟨f, hf, hsame he hf hname⟩
  · intro hleaves
    refine isEmpty_between_of_digests_eq hs ht fun n => ?_
    rw [hs.map_digest_entry?, ht.map_digest_entry?, hleaves]

end Apart

theorem levels_eq_iff (hs : s.IsTaken algorithm) (ht : t.IsTaken algorithm) :
    (s.tree.levels == t.tree.levels) = true ↔ s.entryCount = t.entryCount := by
  obtain ⟨order, horder, -, hl⟩ := hs.tree
  obtain ⟨order', horder', -, hr⟩ := ht.tree
  rw [beq_iff_eq, hl, hr, MerkleTree.levels_ofLeaves_eq_iff, length_digests horder,
    length_digests horder']

/-- A descent into `other` succeeds, whatever has been found before. -/
def Descends (tree other : MerkleTree) : Prop :=
  ∀ out, ∃ changed found, tree.collectChangedLeaves other out = some (.ok changed, found)

theorem descends_iff (hs : s.IsTaken algorithm) (ht : t.IsTaken algorithm) :
    Descends s.tree t.tree ↔ s.entryCount = t.entryCount := by
  obtain ⟨order, horder, -, hl⟩ := hs.tree
  obtain ⟨order', horder', -, hr⟩ := ht.tree
  rw [← length_digests horder, ← length_digests horder', hl, hr]
  constructor
  · intro hdescends
    obtain ⟨changed, found, hcollect⟩ := hdescends []
    by_contra hlen
    rw [MerkleTree.collectChangedLeaves, MerkleTree.hasSameShape_ofLeaves,
      decide_eq_false hlen] at hcollect
    cases hcollect
  · exact fun hlen out => ⟨_, _, MerkleTree.collectChangedLeaves_ofLeaves hlen out⟩

theorem path_ne_nil {fs : FileSystem} {options : SnapshotOptions} {root : Path}
    (hs : Logged.result (take algorithm fs options root) = .ok s) : s.path.bytes ≠ [] := by
  obtain ⟨items, name, hitems, -, rfl⟩ := take_eq_ok_iff.mp hs
  obtain ⟨node, hstat⟩ := exists_stat_of_walk hitems
  obtain ⟨location, hlocate, -⟩ := FileSystem.nodeOf_eq_ok_iff.mp hstat
  exact FileSystem.ne_nil_of_resolve (FileSystem.locate_eq_ok_iff.mp hlocate)

end Snapshot

namespace ChangeSet

variable {algorithm : HashAlgorithm} {s t : Snapshot}

theorem sorted_foundEntries (h : Snapshot.HashesApart algorithm s s) (hs : s.IsTaken algorithm)
    (l : List Digest) :
    (foundEntries algorithm l (s.entries.map (·.digest)) s).Pairwise fun e f =>
      Bytes.compare e.fileName f.fileName = .lt := by
  rw [foundEntries_eq h.injectively hs (.refl _)]
  refine (List.pairwise_lt_range.filter _).filterMap _ fun p q hpq e he f hf => ?_
  obtain ⟨hp, rfl⟩ := List.getElem?_eq_some_iff.mp he
  obtain ⟨hq, rfl⟩ := List.getElem?_eq_some_iff.mp hf
  exact List.pairwise_iff_getElem.mp hs.sorted p q hp hq hpq

/-- Both directions choose among the same entries. -/
theorem exists_candidates (h : Snapshot.HashesApart algorithm s t) (hs : s.IsTaken algorithm)
    (ht : t.IsTaken algorithm) (hns : s.options.leafOrder = .name)
    (hnt : t.options.leafOrder = .name) (hd : s.differsFrom t = true) :
    ∃ fresh ⊆ t.entries, ∃ stale ⊆ s.entries,
      (fresh.Pairwise fun e f => Bytes.compare e.fileName f.fileName = .lt) ∧
      (stale.Pairwise fun e f => Bytes.compare e.fileName f.fileName = .lt) ∧
      (between s t).value = ofCandidates s t fresh stale ∧
      (between t s).value = ofCandidates t s stale fresh := by
  have hl := hs.tree_of_order hns
  have hr := ht.tree_of_order hnt
  have hd' : t.differsFrom s = true := by rwa [Snapshot.differsFrom, bne_comm] at hd
  rcases eq_or_ne (s.entries.map (·.digest)).length (t.entries.map (·.digest)).length with
    hlen | hlen
  · exact ⟨_, foundEntries_subset, _, foundEntries_subset, sorted_foundEntries h.symm.left ht _,
      sorted_foundEntries h.left hs _, value_between_of_length_eq hl hr hd hlen,
      value_between_of_length_eq hr hl hd' hlen.symm⟩
  · exact ⟨_, List.Subset.refl _, _, List.Subset.refl _, ht.sorted, hs.sorted,
      value_between_of_length_ne hl hr hd hlen, value_between_of_length_ne hr hl hd' hlen.symm⟩

theorem fileName?_path (hs : s.IsTaken algorithm) {e : SnapshotEntry} (he : e ∈ s.entries) :
    e.path.fileName? = some e.fileName := by
  rw [hs.path e he, Path.fileName?_join s.path (hs.name e he)]

theorem map_fileName?_path (hs : s.IsTaken algorithm) {chosen : List SnapshotEntry}
    (hchosen : chosen ⊆ s.entries) :
    (chosen.map (·.path)).map Path.fileName? = (chosen.map (·.fileName)).map some := by
  rw [List.map_map, List.map_map]
  exact List.map_congr_left fun e he => fileName?_path hs (hchosen he)

theorem names_path (hs : s.IsTaken algorithm) {chosen : List SnapshotEntry}
    (hchosen : chosen ⊆ s.entries) : names (chosen.map (·.path)) = chosen.map (·.fileName) := by
  rw [names, List.filterMap_map, ← List.filterMap_eq_map]
  exact List.filterMap_congr fun e he => fileName?_path hs (hchosen he)

section Swapped

variable {fresh stale : List SnapshotEntry}

theorem mem_modified_iff (h : Snapshot.HashesApart algorithm s t) (hs : s.IsTaken algorithm)
    (ht : t.IsTaken algorithm) (hd : s.differsFrom t = true) (hfresh : fresh ⊆ t.entries)
    (hbetween : (between s t).value = ofCandidates s t fresh stale) (n : Bytes) :
    n ∈ (fresh.filter (isModified s)).map (·.fileName) ↔
      ∃ d d', s.digests n = some d ∧ t.digests n = some d' ∧ (d != d') = true := by
  obtain ⟨-, -, hmodified⟩ := between_complete h hs ht (Or.inr hd)
  have hmem := (ht.names_changed hs hmodified).2 n
  have hchosen : fresh.filter (isModified s) ⊆ t.entries :=
    fun e he => hfresh (List.mem_of_mem_filter he)
  rwa [hbetween, ofCandidates, names_path ht hchosen] at hmem

/-- Entries with different digests are found in both directions, under the same names. -/
theorem modified_names_eq (h : Snapshot.HashesApart algorithm s t) (hs : s.IsTaken algorithm)
    (ht : t.IsTaken algorithm) (hd : s.differsFrom t = true) (hfresh : fresh ⊆ t.entries)
    (hstale : stale ⊆ s.entries)
    (hsorted : fresh.Pairwise fun e f => Bytes.compare e.fileName f.fileName = .lt)
    (hsorted' : stale.Pairwise fun e f => Bytes.compare e.fileName f.fileName = .lt)
    (hbetween : (between s t).value = ofCandidates s t fresh stale)
    (hback : (between t s).value = ofCandidates t s stale fresh) :
    (stale.filter (isModified t)).map (·.fileName) =
      (fresh.filter (isModified s)).map (·.fileName) := by
  have hd' : t.differsFrom s = true := by rwa [Snapshot.differsFrom, bne_comm] at hd
  have hmem (n : Bytes) : n ∈ (stale.filter (isModified t)).map (·.fileName) ↔
      n ∈ (fresh.filter (isModified s)).map (·.fileName) := by
    rw [mem_modified_iff h.symm ht hs hd' hstale hback,
      mem_modified_iff h hs ht hd hfresh hbetween]
    constructor
    · rintro ⟨d, d', hold, hnew, hne⟩
      exact ⟨d', d, hnew, hold, by rwa [bne_comm]⟩
    · rintro ⟨d, d', hold, hnew, hne⟩
      exact ⟨d', d, hnew, hold, by rwa [bne_comm]⟩
  exact Bytes.eq_of_sorted (List.pairwise_map.mpr (hsorted'.filter _))
    (List.pairwise_map.mpr (hsorted.filter _)) hmem

end Swapped

def IsMarked (line : List Char) : Prop :=
  ∃ mark ∈ ['M', 'A', 'D'], ∃ rest, line = mark :: ' ' :: rest

end ChangeSet

theorem dropBlanksAtEnd_append {c : Char} (hc : isBlank c = false) (a b : List Char) :
    dropBlanksAtEnd (a ++ c :: b) = a ++ c :: dropBlanksAtEnd b := by
  rw [dropBlanksAtEnd, dropBlanksAtEnd, List.reverse_append, List.reverse_cons, List.append_assoc,
    List.dropWhile_append]
  split_ifs with hblank
  · rw [List.isEmpty_iff.mp hblank, List.singleton_append,
      List.dropWhile_cons_of_neg (by rw [hc]; exact Bool.false_ne_true)]
    simp
  · simp

theorem Path.exists_join_eq {p : Path} (hne : p.bytes ≠ []) {name : Bytes}
    (hname : Node.isEntryName name = true) :
    ∃ a b, (p.join name).bytes = a ++ slash :: b := by
  have hslash : name.head? ≠ some slash :=
    fun hs => (Node.isEntryName_iff.mp hname).2.1 (List.mem_of_head? hs)
  rw [join, if_neg (not_or.mpr ⟨hslash, hne⟩)]
  split_ifs with hend
  · obtain ⟨a, ha⟩ := List.getLast?_eq_some_iff.mp hend
    exact ⟨a, name, by rw [ha, List.append_assoc, List.singleton_append]⟩
  · exact ⟨p.bytes, name, rfl⟩

namespace ChangeSet

variable {algorithm : HashAlgorithm} {s t : Snapshot}

/-- The path of an entry in a change set has a slash, so it is not cut off whole. -/
theorem exists_slash_of_mem (hs : s.IsTaken algorithm) (hne : s.path.bytes ≠ [])
    {chosen : List SnapshotEntry} (hchosen : chosen ⊆ s.entries) {p : Path}
    (hp : p ∈ chosen.map (·.path)) : ∃ a b, p.display.toList = a ++ '/' :: b := by
  obtain ⟨e, he, rfl⟩ := List.mem_map.mp hp
  obtain ⟨a, b, hbytes⟩ := Path.exists_join_eq hne (hs.name e (hchosen he))
  refine ⟨(Utf8.display a).toList, (Utf8.display b).toList, ?_⟩
  rw [hs.path e (hchosen he), Path.display, hbytes, Utf8.display_append (by decide),
    String.toList_append, String.toList_append, List.append_assoc]
  rfl

theorem exists_mark_of_mem (hs : s.IsTaken algorithm) (ht : t.IsTaken algorithm)
    (hne : s.path.bytes ≠ []) (hne' : t.path.bytes ≠ []) {line : String}
    (h : line ∈ (between s t).value.changeLines) :
    ∃ mark ∈ ['M', 'A', 'D'], ∃ a b, line.toList = mark :: ' ' :: a ++ '/' :: b := by
  have hline {u : Snapshot} (hu : u.IsTaken algorithm) (hpath : u.path.bytes ≠ [])
      {chosen candidates : List SnapshotEntry} (hsub : candidates ⊆ u.entries)
      (hchosen : chosen ⊆ candidates) (mark : Char)
      (hmem : line ∈ (chosen.map (·.path)).map (String.ofList [mark, ' '] ++ ·.display)) :
      ∃ a b, line.toList = mark :: ' ' :: a ++ '/' :: b := by
    obtain ⟨p, hp, rfl⟩ := List.mem_map.mp hmem
    obtain ⟨a, b, hdisplay⟩ := exists_slash_of_mem hu hpath (List.Subset.trans hchosen hsub) hp
    exact ⟨a, b, by rw [String.toList_append, hdisplay, String.toList_ofList]; rfl⟩
  rcases value_between_cases hs ht with hnone | ⟨fresh, hfresh, stale, hstale, hsome⟩
  · rw [hnone] at h
    cases h
  · rw [hsome, changeLines, List.mem_append, List.mem_append] at h
    rcases h with (hmodified | hadded) | hremoved
    · exact ⟨'M', by simp, hline ht hne' hfresh (List.filter_subset_self _) 'M' hmodified⟩
    · exact ⟨'A', by simp, hline ht hne' hfresh (List.filter_subset_self _) 'A' hadded⟩
    · exact ⟨'D', by simp, hline hs hne hstale (List.filter_subset_self _) 'D' hremoved⟩

theorem changeLines_eq_nil_iff {changes : ChangeSet} :
    changes.changeLines = [] ↔ changes.isEmpty = true := by
  simp [changeLines, isEmpty, and_assoc]

theorem isMarked_text (hs : s.IsTaken algorithm) (ht : t.IsTaken algorithm)
    (hne : s.path.bytes ≠ []) (hne' : t.path.bytes ≠ [])
    (h : (between s t).value.isEmpty = false) : IsMarked (between s t).value.text.toList := by
  have hlines : (between s t).value.changeLines ≠ [] := by
    rw [Ne, changeLines_eq_nil_iff, h]
    exact Bool.false_ne_true
  obtain ⟨line, others, hcons⟩ := List.exists_cons_of_ne_nil hlines
  obtain ⟨mark, hmark, a, b, hline⟩ :=
    exists_mark_of_mem hs ht hne hne' (hcons ▸ List.mem_cons_self)
  refine ⟨mark, hmark, a ++ '/' :: dropBlanksAtEnd (b ++ '\n' :: (lines others).toList), ?_⟩
  have htext : (lines (line :: others)).toList =
      (mark :: ' ' :: a) ++ '/' :: (b ++ '\n' :: (lines others).toList) := by
    rw [lines, List.map_cons, String.join_cons, String.toList_append, String.toList_append, hline]
    simp [lines]
  rw [text, hcons, trimEnd, String.toList_ofList, htext, dropBlanksAtEnd_append (by decide)]
  rfl

end ChangeSet

/-- What a comparison says and what it says in the other direction. -/
structure DiffReport.IsCoherent (left right : Snapshot) (report back : DiffReport) : Prop where
  entriesIdentical : report.entriesIdentical = true ↔ report.changes.isEmpty = true
  unchanged : report.changes.isEmpty = true →
    report.verdict = "entries identical, directory names differ"
  changed : report.changes.isEmpty = false → report.changes.changeLines ≠ [] ∧
    report.verdict = "differs\n" ++ report.changes.text ∧
    ChangeSet.IsMarked report.changes.text.toList
  aligned : report.aligned = true ↔ left.entryCount = right.entryCount
  descends : report.aligned = true ↔
    Snapshot.Descends left.tree right.tree ∧ Snapshot.Descends right.tree left.tree
  added : back.changes.added = report.changes.removed
  removed : back.changes.removed = report.changes.added
  modified : back.changes.modified.map Path.fileName? = report.changes.modified.map Path.fileName?

namespace Snapshot

open Logged (result)
open ChangeSet (between)

variable {algorithm : HashAlgorithm} {s t : Snapshot}

theorem value_ofSnapshots (s t : Snapshot) : (DiffReport.ofSnapshots s t).value =
    { left := s.path, right := t.path, leftDigest := s.digest, rightDigest := t.digest,
      identical := !s.differsFrom t, entriesIdentical := !s.tree.differsFrom t.tree,
      aligned := s.tree.levels == t.tree.levels, changes := (between s t).value } := rfl

/-- Under names in order and where all digests can be relied on, the parts of a comparison of two
directories with different digests agree. -/
theorem isCoherent_of_take {fs fs' : FileSystem} {options options' : SnapshotOptions}
    {root root' : Path} (hs : result (take algorithm fs options root) = .ok s)
    (ht : result (take algorithm fs' options' root') = .ok t) (hns : options.leafOrder = .name)
    (hnt : options'.leafOrder = .name) (hd : s.differsFrom t = true)
    (h : HashesApart algorithm s t) (hzero : NeverZero algorithm s)
    (hzero' : NeverZero algorithm t) :
    DiffReport.IsCoherent s t (DiffReport.ofSnapshots s t).value
      (DiffReport.ofSnapshots t s).value := by
  have hsTaken := isTaken_of_take hs
  have htTaken := isTaken_of_take ht
  rw [← options_of_take hs] at hns
  rw [← options_of_take ht] at hnt
  have htops : s.tree.differsFrom t.tree = false ↔ (between s t).value.isEmpty = true := by
    rw [tops_equal_iff h hsTaken htTaken hns hnt hzero hzero',
      isEmpty_between_iff h hsTaken htTaken hd]
  obtain ⟨fresh, hfresh, stale, hstale, hsorted, hsorted', hbetween, hback⟩ :=
    ChangeSet.exists_candidates h hsTaken htTaken hns hnt hd
  rw [value_ofSnapshots, value_ofSnapshots]
  constructor
  case entriesIdentical => rw [Bool.not_eq_true', htops]
  case unchanged =>
    intro hempty
    simp [DiffReport.verdict, hd, htops.mpr hempty]
  case changed =>
    intro hempty
    have hmarked := ChangeSet.isMarked_text hsTaken htTaken (path_ne_nil hs) (path_ne_nil ht) hempty
    have htext : (between s t).value.text ≠ "" := by
      obtain ⟨mark, -, rest, hrest⟩ := hmarked
      intro hnil
      rw [hnil] at hrest
      cases hrest
    have hdiffers : s.tree.differsFrom t.tree = true := by
      rw [← Bool.not_eq_false, htops, hempty]
      exact Bool.false_ne_true
    refine ⟨?_, by simp [DiffReport.verdict, hd, hdiffers, htext], hmarked⟩
    rw [Ne, ChangeSet.changeLines_eq_nil_iff, hempty]
    exact Bool.false_ne_true
  case aligned => exact levels_eq_iff hsTaken htTaken
  case descends =>
    rw [descends_iff hsTaken htTaken, descends_iff htTaken hsTaken, eq_comm (a := t.entryCount),
      and_self]
    exact levels_eq_iff hsTaken htTaken
  case added => rw [hbetween, hback]; rfl
  case removed => rw [hbetween, hback]; rfl
  case modified =>
    have hnames := ChangeSet.modified_names_eq h hsTaken htTaken hd hfresh hstale hsorted hsorted'
      hbetween hback
    rw [hbetween, hback, ChangeSet.ofCandidates, ChangeSet.ofCandidates,
      ChangeSet.map_fileName?_path hsTaken fun e he => hstale (List.mem_of_mem_filter he),
      ChangeSet.map_fileName?_path htTaken fun e he => hfresh (List.mem_of_mem_filter he), hnames]

/-- One file in place of another, and one that has been touched. -/
theorem isCoherent_withF_withG :
    DiffReport.IsCoherent snapshotF snapshotG
      (DiffReport.ofSnapshots snapshotF snapshotG).value
      (DiffReport.ofSnapshots snapshotG snapshotF).value :=
  isCoherent_of_take take_withF take_withG rfl rfl (by decide +kernel)
    hashesApart_snapshotF_snapshotG (by decide +kernel) (by decide +kernel)

end Snapshot

end MerkleDir
