import MerkleDir.Proofs.Changes.Candidates
import MerkleDir.Proofs.Snapshot.Hashed
import MerkleDir.Proofs.Tree.Comparison

/-!
# Change sets tell what changed

What a change set reports is true of any two snapshots. Where the digests can be relied on, it
reports all differences between the two directories by name, whichever way they were compared.
-/
namespace MerkleDir.ChangeSet

open Logged (result)
open Snapshot (HashesApart HashesInjectively hashesApart_snapshotF_snapshotG snapshotF snapshotG
  take_withF take_withG)

variable {algorithm : HashAlgorithm} {previous current : Snapshot}

def entriesMissingIn (t s : Snapshot) : List SnapshotEntry :=
  s.entries.filter fun e => decide (∀ f ∈ t.entries, f.fileName ≠ e.fileName)

def entriesChangedFrom (t s : Snapshot) : List SnapshotEntry :=
  s.entries.filter fun e =>
    decide (∃ f ∈ t.entries, f.fileName = e.fileName ∧ (f.digest != e.digest) = true)

theorem filter_isMissing (s t : Snapshot) :
    s.entries.filter (isMissing t) = entriesMissingIn t s :=
  List.filter_congr fun _ _ => by rw [Bool.eq_iff_iff, isMissing_iff, decide_eq_true_eq]

theorem filter_isModified {t : Snapshot} (ht : t.IsTaken algorithm) (s : Snapshot) :
    s.entries.filter (isModified t) = entriesChangedFrom t s :=
  List.filter_congr fun _ _ => by rw [Bool.eq_iff_iff, isModified_iff ht, decide_eq_true_eq]

/-- A digest that no entry of `t` has. -/
def IsNew (t : Snapshot) (e : SnapshotEntry) : Prop :=
  ∀ f ∈ t.entries, f.digest.block ≠ e.digest.block

section New

variable {s t : Snapshot} (h : HashesInjectively algorithm s t) (hs : s.IsTaken algorithm)
  (ht : t.IsTaken algorithm) {e : SnapshotEntry} (he : e ∈ s.entries)

include h hs ht he

theorem isNew_of_missing (hmissing : ∀ f ∈ t.entries, f.fileName ≠ e.fileName) : IsNew t e :=
  fun f hf hblock => hmissing f hf ((h.symm.entry_block_inj ht hs hf he).mp hblock).1

theorem isNew_of_modified_ne {f : SnapshotEntry} (hf : f ∈ t.entries)
    (hname : f.fileName = e.fileName) (hne : f.modified ≠ e.modified) : IsNew t e := by
  intro g hg hblock
  obtain ⟨hgname, htime⟩ := (h.symm.entry_block_inj ht hs hg he).mp hblock
  obtain rfl := ht.eq_of_fileName hf hg (hname.trans hgname.symm)
  exact hne htime

theorem isNew_of_isMissing (hmissing : isMissing t e = true) : IsNew t e :=
  isNew_of_missing h hs ht he (isMissing_iff.mp hmissing)

theorem isNew_of_isModified (hmodified : isModified t e = true) : IsNew t e := by
  obtain ⟨f, hf, hname, hdigest⟩ := (isModified_iff ht).mp hmodified
  refine isNew_of_modified_ne h hs ht he hf hname fun htime => ?_
  have hblock := (h.symm.entry_block_inj ht hs hf he).mpr ⟨hname, htime⟩
  rw [bne, Digest.beq_iff_block.mpr hblock] at hdigest
  cases hdigest

end New

section Apart

variable {s t : Snapshot} (h : HashesApart algorithm s t) (hs : s.IsTaken algorithm)
  (ht : t.IsTaken algorithm)

include h hs ht

theorem not_isNew_of_same_digest (hname : s.name = t.name) (hd : s.differsFrom t = false)
    {e : SnapshotEntry} (he : e ∈ s.entries) : ¬ IsNew t e := by
  obtain ⟨order, horder, -, hl⟩ := hs.tree
  obtain ⟨order', horder', -, hr⟩ := ht.tree
  have htext := (h.directoryText_eq hs ht).mp hd
  rw [hname] at htext
  have htop : s.tree.top.toHex = t.tree.top.toHex := by
    have hl := congrArg String.toList htext
    rw [String.toList_append, String.toList_append] at hl
    exact String.toList_injective (List.append_cancel_right hl)
  have hleaves := h.leaves_eq_of_toHex_eq hs ht horder horder' hl hr htop
  have hmem := List.mem_map_of_mem (f := Snapshot.leafOf) (horder.mem_iff.mpr he)
  rw [hleaves] at hmem
  obtain ⟨f, hf, hleaf⟩ := List.mem_map.mp hmem
  intro hnew
  replace hf := horder'.mem_iff.mp hf
  refine hnew f hf ((h.injectively.symm.entry_block_inj ht hs hf he).mpr ?_)
  exact Prod.mk.inj hleaf

end Apart

theorem entryByDigest?_digest (h : HashesInjectively algorithm current current)
    (hc : current.IsTaken algorithm) {e : SnapshotEntry} (he : e ∈ current.entries) :
    current.entryByDigest? e.digest = some e := by
  rw [hc.entryByDigest?_eq]
  have hsome : (current.entries.reverse.find? (·.digest == e.digest)).isSome = true :=
    List.find?_isSome.mpr ⟨e, List.mem_reverse.mpr he, BEq.rfl⟩
  obtain ⟨f, hfound⟩ := Option.isSome_iff_exists.mp hsome
  have hf := List.mem_reverse.mp (List.mem_of_find?_eq_some hfound)
  have hbeq : (f.digest == e.digest) = true :=
    List.find?_some (p := fun g : SnapshotEntry => g.digest == e.digest) hfound
  have hblock := Digest.beq_iff_block.mp hbeq
  rw [hfound, hc.eq_of_fileName hf he ((h.entry_block_inj hc hc hf he).mp hblock).1]

theorem foundEntries_eq (h : HashesInjectively algorithm current current)
    (hc : current.IsTaken algorithm) {order : List SnapshotEntry}
    (horder : order.Perm current.entries) (l : List Digest) :
    foundEntries algorithm l (order.map (·.digest)) current =
      (MerkleTree.reachedLeaves algorithm l (order.map (·.digest))).filterMap (order[·]?) := by
  rw [foundEntries, List.filterMap_filterMap]
  congr 1
  funext p
  rw [List.getElem?_map]
  cases hp : order[p]? with
  | none => rfl
  | some e =>
    exact entryByDigest?_digest h hc (horder.mem_iff.mp (List.mem_of_getElem? hp))

theorem nodup_foundEntries (h : HashesInjectively algorithm current current)
    (hc : current.IsTaken algorithm) {order : List SnapshotEntry}
    (horder : order.Perm current.entries) (l : List Digest) :
    (foundEntries algorithm l (order.map (·.digest)) current).Nodup := by
  have hnodup : order.Nodup := horder.nodup_iff.mpr hc.nodup_fileName.of_map
  rw [foundEntries_eq h hc horder]
  refine (List.nodup_range.filter _).filterMap fun p q e hp hq => ?_
  obtain ⟨hlt, -⟩ := List.getElem?_eq_some_iff.mp hp
  exact (List.getElem?_inj hlt hnodup).mp (hp.trans hq.symm)

section SameShape

variable (h : HashesInjectively algorithm previous current) (hc : current.IsTaken algorithm)
  {order order' : List SnapshotEntry}
  (horder : order.Perm previous.entries) (horder' : order'.Perm current.entries)
  (hl : previous.tree = .ofLeaves algorithm (order.map (·.digest)))
  (hr : current.tree = .ofLeaves algorithm (order'.map (·.digest)))
  (hlen : (order.map (·.digest)).length = (order'.map (·.digest)).length)

include h hc horder' hl hr hlen

/-- Where no node hides a leaf, the entries found are those at the positions that differ. -/
theorem foundEntries_eq_scan :
    foundEntries algorithm (order.map (·.digest)) (order'.map (·.digest)) current =
      (MerkleTree.changedPositions (order.map (·.digest)) (order'.map (·.digest))).filterMap
        (order'[·]?) := by
  have hfree : MerkleTree.CollisionFree algorithm (.ofLeaves algorithm (order.map (·.digest)))
      (.ofLeaves algorithm (order'.map (·.digest))) := fun k i x y hx hy =>
    h.separates hl hr x (MerkleTree.mem_inputs_of_input? hx) y (MerkleTree.mem_inputs_of_input? hy)
  rw [foundEntries_eq h.symm.left hc horder',
    MerkleTree.reachedLeaves_eq_changedPositions hfree hlen]

include horder in
theorem mem_foundEntries {e : SnapshotEntry} (he : e ∈ current.entries)
    (hnew : IsNew previous e) :
    e ∈ foundEntries algorithm (order.map (·.digest)) (order'.map (·.digest)) current := by
  rw [foundEntries_eq_scan h hc horder' hl hr hlen]
  obtain ⟨p, hp'⟩ := List.mem_iff_getElem?.mp (horder'.mem_iff.mpr he)
  refine List.mem_filterMap.mpr ⟨p, List.mem_filter.mpr ⟨?_, ?_⟩, hp'⟩
  · obtain ⟨hlt, -⟩ := List.getElem?_eq_some_iff.mp hp'
    rw [hlen, List.length_map]
    exact List.mem_range.mpr hlt
  · rw [List.getElem?_map, List.getElem?_map, hp', Option.map_some]
    cases hf : order[p]? with
    | none => rfl
    | some f =>
      have hblock := hnew f (horder.mem_iff.mp (List.mem_of_getElem? hf))
      rw [Option.map_some, bne, Option.some_beq_some, Bool.not_eq_true', ← Bool.not_eq_true,
        Digest.beq_iff_block]
      exact hblock

include horder in
/-- What is chosen among the entries found is what is chosen among all entries, as long as it is
new. -/
theorem filter_foundEntries_perm {q : SnapshotEntry → Bool}
    (hq : ∀ e ∈ current.entries, q e = true → IsNew previous e) :
    ((foundEntries algorithm (order.map (·.digest)) (order'.map (·.digest)) current).filter q).Perm
      (current.entries.filter q) := by
  have hfound := nodup_foundEntries h.symm.left hc horder' (order.map (·.digest))
  refine (List.perm_ext_iff_of_nodup (hfound.filter q)
    (hc.nodup_fileName.of_map.filter q)).mpr fun e => ?_
  rw [List.mem_filter, List.mem_filter]
  refine and_congr_left fun hqe => ⟨fun he => foundEntries_subset he, fun he => ?_⟩
  exact mem_foundEntries h hc horder horder' hl hr hlen he (hq e he hqe)

end SameShape

/-- Where the digests can be relied on, a change set holds all differences by name. -/
theorem between_complete (h : HashesApart algorithm previous current)
    (hp : previous.IsTaken algorithm) (hc : current.IsTaken algorithm)
    (hname : previous.name = current.name ∨ previous.differsFrom current = true) :
    (between previous current).value.added.Perm
        ((entriesMissingIn previous current).map (·.path)) ∧
      (between previous current).value.removed.Perm
        ((entriesMissingIn current previous).map (·.path)) ∧
      (between previous current).value.modified.Perm
        ((entriesChangedFrom previous current).map (·.path)) := by
  obtain ⟨order, horder, -, hl⟩ := hp.tree
  obtain ⟨order', horder', -, hr⟩ := hc.tree
  rw [← filter_isMissing, ← filter_isMissing, ← filter_isModified hp]
  have hadded := fun e he => isNew_of_isMissing (e := e) h.injectively.symm hc hp he
  have hremoved := fun e he => isNew_of_isMissing (e := e) h.injectively hp hc he
  have hmodified := fun e he => isNew_of_isModified (e := e) h.injectively.symm hc hp he
  cases hd : previous.differsFrom current with
  | false =>
    have hsame := hname.resolve_right (by rw [hd]; exact Bool.false_ne_true)
    have hd' : current.differsFrom previous = false := by
      rwa [Snapshot.differsFrom, bne_comm] at hd
    have hnone {s t : Snapshot} {q : SnapshotEntry → Bool}
        (hq : ∀ e ∈ s.entries, q e = true → IsNew t e)
        (hnew : ∀ e ∈ s.entries, ¬ IsNew t e) : s.entries.filter q = [] :=
      List.filter_eq_nil_iff.mpr fun e he hqe => hnew e he (hq e he hqe)
    have hfresh := fun e he => not_isNew_of_same_digest (e := e) h.symm hc hp hsame.symm hd' he
    have hstale := fun e he => not_isNew_of_same_digest (e := e) h hp hc hsame hd he
    rw [value_between_of_same_digest hd, hnone hadded hfresh, hnone hremoved hstale,
      hnone hmodified hfresh]
    exact ⟨.refl _, .refl _, .refl _⟩
  | true =>
    rcases eq_or_ne (order.map (·.digest)).length (order'.map (·.digest)).length with hlen | hlen
    · rw [value_between_of_length_eq hl hr hd hlen]
      exact ⟨(filter_foundEntries_perm h.injectively hc horder horder' hl hr hlen hadded).map _,
        (filter_foundEntries_perm h.injectively.symm hp horder' horder hr hl hlen.symm
          hremoved).map _,
        (filter_foundEntries_perm h.injectively hc horder horder' hl hr hlen hmodified).map _⟩
    · rw [value_between_of_length_ne hl hr hd hlen]
      exact ⟨.refl _, .refl _, .refl _⟩

theorem between_sound (hp : previous.IsTaken algorithm) (hc : current.IsTaken algorithm) :
    (∀ p ∈ (between previous current).value.added, ∃ e ∈ current.entries, e.path = p ∧
        ∀ f ∈ previous.entries, f.fileName ≠ e.fileName) ∧
      (∀ p ∈ (between previous current).value.removed, ∃ e ∈ previous.entries, e.path = p ∧
        ∀ f ∈ current.entries, f.fileName ≠ e.fileName) ∧
      ∀ p ∈ (between previous current).value.modified, ∃ e ∈ current.entries, e.path = p ∧
        ∃ f ∈ previous.entries, f.fileName = e.fileName ∧ (f.digest != e.digest) = true := by
  rcases value_between_cases hp hc with hnone | ⟨fresh, hfresh, stale, hstale, hsome⟩
  · rw [hnone]
    exact ⟨nofun, nofun, nofun⟩
  · have hchosen {candidates entries : List SnapshotEntry} (hsub : candidates ⊆ entries)
        {q : SnapshotEntry → Bool} {p : Path} (hmem : p ∈ (candidates.filter q).map (·.path)) :
        ∃ e ∈ entries, e.path = p ∧ q e = true := by
      obtain ⟨e, he, hpath⟩ := List.mem_map.mp hmem
      obtain ⟨he, hq⟩ := List.mem_filter.mp he
      exact ⟨e, hsub he, hpath, hq⟩
    rw [hsome]
    refine ⟨fun p hmem => ?_, fun p hmem => ?_, fun p hmem => ?_⟩
    · obtain ⟨e, he, hpath, hq⟩ := hchosen hfresh hmem
      exact ⟨e, he, hpath, isMissing_iff.mp hq⟩
    · obtain ⟨e, he, hpath, hq⟩ := hchosen hstale hmem
      exact ⟨e, he, hpath, isMissing_iff.mp hq⟩
    · obtain ⟨e, he, hpath, hq⟩ := hchosen hfresh hmem
      exact ⟨e, he, hpath, (isModified_iff hp).mp hq⟩

/-- The change set between any two snapshots that have been taken is true, and where the digests can
be relied on it is the whole difference by name. -/
theorem between_eq_difference {fs fs' : FileSystem} {options options' : SnapshotOptions}
    {root root' : Path} (hp : result (Snapshot.take algorithm fs options root) = .ok previous)
    (hc : result (Snapshot.take algorithm fs' options' root') = .ok current) :
    ((∀ p ∈ (between previous current).value.added, ∃ e ∈ current.entries, e.path = p ∧
        ∀ f ∈ previous.entries, f.fileName ≠ e.fileName) ∧
      (∀ p ∈ (between previous current).value.removed, ∃ e ∈ previous.entries, e.path = p ∧
        ∀ f ∈ current.entries, f.fileName ≠ e.fileName) ∧
      ∀ p ∈ (between previous current).value.modified, ∃ e ∈ current.entries, e.path = p ∧
        ∃ f ∈ previous.entries, f.fileName = e.fileName ∧ (f.digest != e.digest) = true) ∧
    (previous.name = current.name ∨ previous.differsFrom current = true →
      HashesApart algorithm previous current →
      (between previous current).value.added.Perm
          ((entriesMissingIn previous current).map (·.path)) ∧
        (between previous current).value.removed.Perm
          ((entriesMissingIn current previous).map (·.path)) ∧
        (between previous current).value.modified.Perm
          ((entriesChangedFrom previous current).map (·.path))) :=
  ⟨between_sound (Snapshot.isTaken_of_take hp) (Snapshot.isTaken_of_take hc), fun hname h =>
    between_complete h (Snapshot.isTaken_of_take hp) (Snapshot.isTaken_of_take hc) hname⟩

/-- A file is in place of another, a second one has been touched, and a third is as it was. -/
theorem between_withF_withG :
    (between snapshotF snapshotG).value.added.Perm [⟨[100, 47, 103]⟩] ∧
      (between snapshotF snapshotG).value.removed.Perm [⟨[100, 47, 102]⟩] ∧
      (between snapshotF snapshotG).value.modified.Perm [⟨[100, 47, 101]⟩] := by
  have hg : (entriesMissingIn snapshotF snapshotG).map (·.path) =
      [⟨[100, 47, 103]⟩] := by decide +kernel
  have hf : (entriesMissingIn snapshotG snapshotF).map (·.path) =
      [⟨[100, 47, 102]⟩] := by decide +kernel
  have he : (entriesChangedFrom snapshotF snapshotG).map (·.path) =
      [⟨[100, 47, 101]⟩] := by decide +kernel
  have h := (between_eq_difference take_withF take_withG).2 (Or.inl rfl)
    hashesApart_snapshotF_snapshotG
  rwa [hg, hf, he] at h

end MerkleDir.ChangeSet
