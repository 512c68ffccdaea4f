import MerkleDir.Proofs.Path.Display
import MerkleDir.Proofs.Snapshot.Determinacy
import MerkleDir.Proofs.Snapshot.Followed

/-!
# Spellings of one directory

A directory may be reached by many paths. The leaves that a walk finds are the same by all of them,
and a path without a name of its own gives the directory the name that its absolute path has, less
the separators at its end.
-/
namespace MerkleDir

open Logged (result)

namespace FileSystem

variable {fs : FileSystem}

theorem pathSegments_absolutePath {location : Location}
    (hnames : ∀ name ∈ location, Node.isEntryName name = true) :
    pathSegments (absolutePath location).bytes = location := by
  have hslash : ∀ name ∈ location, Path.slash ∉ name :=
    fun name hname => (Node.isEntryName_iff.mp (hnames name hname)).2.1
  cases location with
  | nil => rfl
  | cons name names =>
    have hsegments := splitSlash_append_flatMap (hslash name List.mem_cons_self)
      fun n hn => hslash n (List.mem_cons_of_mem name hn)
    have hne : ∀ n ∈ name :: names, decide (n ≠ []) = true :=
      fun n hn => decide_eq_true (Node.isEntryName_iff.mp (hnames n hn)).1
    show pathSegments ([] ++ Path.slash :: (name ++ names.flatMap (Path.slash :: ·))) = _
    rw [pathSegments_append, pathSegments, pathSegments, hsegments, List.filter_eq_self.mpr hne]
    rfl

theorem IsPlace.of_append {before after : Location} (h : fs.IsPlace (before ++ after)) :
    fs.IsPlace before := by
  induction after using List.reverseRecOn with
  | nil => exact List.append_nil before ▸ h
  | append_singleton after name ih =>
    rw [← List.append_assoc] at h
    have hdropped := h.dropLast
    rw [List.dropLast_concat] at hdropped
    exact ih hdropped

theorem Leads.eq_of_isPlace {here location : Location} {names : List Bytes} {n : Nat}
    (h : Leads fs here names n location) (hnames : ∀ name ∈ names, Node.isEntryName name = true)
    (hplace : fs.IsPlace (here ++ names)) : location = here ++ names := by
  induction h with
  | here => exact (List.append_nil _).symm
  | current => exact absurd rfl (Node.isEntryName_iff.mp (hnames _ List.mem_cons_self)).2.2.1
  | parent => exact absurd rfl (Node.isEntryName_iff.mp (hnames _ List.mem_cons_self)).2.2.2
  | entry _ _ _ _ _ ih =>
    rw [List.append_cons] at hplace ⊢
    exact ih (fun name hname => hnames name (List.mem_cons_of_mem _ hname)) hplace
  | link _ hsearch hchild =>
    rw [List.append_cons] at hplace
    exact absurd ((nodeAt?_append_singleton hsearch _).trans hchild) hplace.of_append.not_link

theorem locate_absolutePath {location location' : Location} (hplace : fs.IsPlace location)
    (hnames : ∀ name ∈ location, Node.isEntryName name = true)
    (h : fs.locate (absolutePath location) true = .ok location') : location' = location := by
  obtain ⟨n, hleads⟩ := reaches_of_locate h
  rw [pathSegments_absolutePath hnames] at hleads
  exact hleads.eq_of_isPlace hnames hplace

end FileSystem

namespace Walk

variable {fs : FileSystem} {options : SnapshotOptions} {root root' : Path} {here : Location}

def nameAndTime? (item : Option WalkItem) : Option (Bytes × Timestamp) :=
  (item.bind WalkItem.leaf?).map fun leaf => (leaf.fileName, leaf.modified)

theorem IsFollowedTo.nameAndTime?_eq {name : Bytes} {link link' : Path}
    {ending : Except OsError Node} {item item' : Option WalkItem}
    (h : IsFollowedTo name link ending item) (h' : IsFollowedTo name link' ending item') :
    nameAndTime? item = nameAndTime? item' := by
  cases h <;> cases h' <;> rfl

/-- An entry is a leaf of one name and time by whichever path its directory is reached. -/
theorem IsMadeOf.nameAndTime?_eq {entry : Bytes × Node} {item item' : Option WalkItem}
    (h : IsMadeOf fs options root here entry item)
    (h' : IsMadeOf fs options root' here entry item') :
    nameAndTime? item = nameAndTime? item' := by
  obtain ⟨name, node⟩ := entry
  cases node with
  | link modified target =>
    cases hpolicy : options.symlinks with
    | ignore => rw [(isMadeOf_ignored hpolicy).mp h, (isMadeOf_ignored hpolicy).mp h']
    | copy =>
      rw [(isMadeOf_copied hpolicy).mp h, (isMadeOf_copied hpolicy).mp h']
      rfl
    | follow =>
      obtain ⟨ending, hend, hitem⟩ := (isMadeOf_followed hpolicy).mp h
      obtain ⟨ending', hend', hitem'⟩ := (isMadeOf_followed hpolicy).mp h'
      obtain rfl := Option.some.inj (hend.symm.trans hend')
      exact hitem.nameAndTime?_eq hitem'
  | _ =>
    rw [(isMadeOf_own rfl).mp h, (isMadeOf_own rfl).mp h']
    rfl

theorem map_nameAndTime?_of_made {es : List (Bytes × Node)} {found found' : List (Option WalkItem)}
    (h : List.Forall₂ (IsMadeOf fs options root here) es found)
    (h' : List.Forall₂ (IsMadeOf fs options root' here) es found') :
    found.map nameAndTime? = found'.map nameAndTime? := by
  induction h generalizing found' with
  | nil =>
    cases h'
    rfl
  | cons hitem _ ih =>
    cases h' with
    | cons hitem' hrest' =>
      rw [List.map_cons, List.map_cons, ih hrest', hitem.nameAndTime?_eq hitem']

end Walk

namespace Snapshot

variable {algorithm : HashAlgorithm} {fs : FileSystem} {options : SnapshotOptions}
  {root root' : Path} {here : Location} {s t : Snapshot}

theorem namesAndTimes_filterMap (found : List (Option WalkItem)) :
    namesAndTimes (found.filterMap id) = (found.map Walk.nameAndTime?).filterMap id := by
  rw [namesAndTimes, List.filterMap_filterMap, List.map_filterMap, List.filterMap_map]
  rfl

theorem namesAndTimes_of_walk {items items' : List WalkItem}
    (hlocate : fs.locate root true = .ok here) (hlocate' : fs.locate root' true = .ok here)
    (h : result (walk fs options root) = .ok items)
    (h' : result (walk fs options root') = .ok items') :
    namesAndTimes items = namesAndTimes items' := by
  obtain ⟨es, found, hlist, hfound, rfl⟩ := Walk.isMadeOf_of_walk hlocate h
  obtain ⟨es', found', hlist', hfound', rfl⟩ := Walk.isMadeOf_of_walk hlocate' h'
  obtain rfl : es = es' := by
    rw [FileSystem.list, hlocate] at hlist
    rw [FileSystem.list, hlocate'] at hlist'
    exact Except.ok.inj (hlist.symm.trans hlist')
  rw [namesAndTimes_filterMap, namesAndTimes_filterMap, Walk.map_nameAndTime?_of_made hfound hfound']

theorem tree_of_enumeration (hs : result (take algorithm fs options root) = .ok s)
    {items : List WalkItem} (hitems : result (walk fs options root) = .ok items)
    (horder : options.leafOrder = .enumeration) :
    s.tree = .ofLeaves algorithm ((namesAndTimes items).map fun leaf =>
      .make algorithm (entryInput leaf.1 "/" leaf.2)) := by
  have hsTaken := isTaken_of_take hs
  obtain ⟨found, name, hfound, -, rfl⟩ := take_eq_ok_iff.mp hs
  obtain rfl : items = found := Except.ok.inj (hitems.symm.trans hfound)
  have hnames := nodup_walkedEntries algorithm hitems
  have hleaves : (walkedEntries algorithm root items).map leafOf = namesAndTimes items := by
    rw [walkedEntries, List.map_map]
    rfl
  have htree : (assembled algorithm options root items name).tree = .ofLeaves algorithm
      ((walkedEntries algorithm root items).map (·.digest)) := by
    rw [← EntryStore.leafEntries_enumeration hnames, ← horder]
    rfl
  rw [htree, hsTaken.map_digest_eq (EntryStore.entries_perm hnames).symm, hleaves]

/-- In either order of the leaves, the tree is told by their names and times as they were found. -/
theorem tree_eq_of_namesAndTimes (hs : result (take algorithm fs options root) = .ok s)
    (ht : result (take algorithm fs options root') = .ok t) {items items' : List WalkItem}
    (hitems : result (walk fs options root) = .ok items)
    (hitems' : result (walk fs options root') = .ok items')
    (hsame : namesAndTimes items = namesAndTimes items') : s.tree = t.tree := by
  have hsTaken := isTaken_of_take hs
  have htTaken := isTaken_of_take ht
  cases horder : options.leafOrder with
  | name =>
    have hmem (leaf : Bytes × Timestamp) :
        leaf ∈ s.entries.map leafOf ↔ leaf ∈ t.entries.map leafOf := by
      rw [(map_leafOf_perm hs hitems).mem_iff, (map_leafOf_perm ht hitems').mem_iff, hsame]
    rw [hsTaken.tree_of_order (by rw [options_of_take hs, horder]),
      htTaken.tree_of_order (by rw [options_of_take ht, horder]), hsTaken.map_digest_eq (.refl _),
      htTaken.map_digest_eq (.refl _), hsTaken.leaves_eq_of_mem_iff htTaken hmem]
  | enumeration =>
    rw [tree_of_enumeration hs hitems horder, tree_of_enumeration ht hitems' horder, hsame]

theorem exists_locate_of_walk {items : List WalkItem}
    (h : result (walk fs options root) = .ok items) :
    ∃ location, fs.locate root true = .ok location ∧ fs.IsPlace location := by
  obtain ⟨es, found, hlist, -, -⟩ := walk_eq_ok_iff.mp h
  obtain ⟨location, hlocate, hnode⟩ := FileSystem.list_eq_ok_iff.mp hlist
  exact ⟨location, hlocate, _, hnode, rfl⟩

theorem directoryName_of_take (hs : result (take algorithm fs options root) = .ok s) :
    directoryName fs root = .ok s.name := by
  obtain ⟨items, name, -, hname, rfl⟩ := take_eq_ok_iff.mp hs
  exact hname

section Name

variable {before : Location} {name : Bytes}

theorem isEntryName_of_locate (hlocate : fs.locate root true = .ok here) :
    ∀ name ∈ here, Node.isEntryName name = true := by
  obtain ⟨n, hleads⟩ := FileSystem.reaches_of_locate hlocate
  exact hleads.isEntryName nofun

theorem directoryName_absolutePath (hnames : ∀ n ∈ before ++ [name], Node.isEntryName n = true) :
    directoryName fs (FileSystem.absolutePath (before ++ [name])) = .ok (displayName name) := by
  rw [directoryName, fileName?_absolutePath hnames]

/-- A path without a name of its own takes the name from the canonical path, whose separators at the
end have been removed. -/
theorem directoryName_of_fileName?_eq_none
    (hlocation : fs.canonicalLocation root = .ok (before ++ [name])) (hroot : root.fileName? = none)
    (hkept : Node.isEntryName (Utf8.encode (withoutSeparators (displayName name))) = true) :
    directoryName fs root = .ok (Nfc.normalize (withoutSeparators (displayName name))) := by
  have hnames := isEntryName_of_locate (FileSystem.locate_of_canonicalLocation hlocation)
  have hne : withoutSeparators (displayName name) ≠ "" := by
    intro hnil
    rw [hnil] at hkept
    cases hkept
  have hcanonical := canonicalText_of_canonicalLocation hlocation
  rw [ofText_normalizeText_absolutePath hne] at hcanonical
  have hfile := @fileName?_absolutePath (before.map fun n => Utf8.encode (displayName n))
    (Utf8.encode (withoutSeparators (displayName name))) (by
      simp only [List.forall_mem_append, List.forall_mem_singleton, List.forall_mem_map]
      exact ⟨fun n hn => isEntryName_encode_displayName (hnames n (List.mem_append_left _ hn)),
        hkept⟩)
  rw [directoryName, hroot, hcanonical]
  dsimp only
  rw [hfile]
  dsimp only
  rw [displayName, Utf8.display_encode]

/-- The last character is taken for a separator, though not for that of names. -/
def EndsInBackslash (text : String) : Prop := text.toList.getLast? = some '\\'

instance (text : String) : Decidable (EndsInBackslash text) :=
  inferInstanceAs (Decidable (_ = _))

theorem endsInBackslash_normalize {text : String} :
    EndsInBackslash (Nfc.normalize text) ↔ EndsInBackslash text :=
  Nfc.getLast?_normalize_iff (by decide)

theorem not_endsInBackslash_withoutSeparators (text : String) :
    ¬ EndsInBackslash (withoutSeparators text) := by
  intro h
  cases isSeparator_of_mem_getLast? h

theorem withoutSeparators_displayName (hname : Node.isEntryName name = true)
    (hend : ¬ EndsInBackslash (displayName name)) :
    withoutSeparators (displayName name) = displayName name := by
  refine withoutSeparators_of_end fun c hc => ?_
  have hslash : Path.slash ∉ Utf8.encode (displayName name) :=
    slash_mem_encode_displayName_iff.not.mpr (Node.isEntryName_iff.mp hname).2.1
  rw [← Utf8.mem_display_iff (by decide), Utf8.display_encode] at hslash
  rw [Path.isSeparator, Bool.or_eq_false_iff, beq_eq_false_iff_ne, beq_eq_false_iff_ne]
  constructor
  · rintro rfl
    exact hslash (List.mem_of_getLast? hc)
  · rintro rfl
    exact hend hc

end Name

theorem exists_take {items : List WalkItem} {name : String}
    (hitems : result (walk fs options root) = .ok items)
    (hname : directoryName fs root = .ok name) :
    ∃ s, result (take algorithm fs options root) = .ok s :=
  ⟨_, take_eq_ok_iff.mpr ⟨items, name, hitems, hname, rfl⟩⟩

/-- A directory has one tree by its absolute path and by a path that has no name of its own. It also
has one name and one digest by both, unless its name ends in a backslash: then the names differ if
what precedes the backslashes is a name. -/
theorem take_without_fileName {before : Location} {name : Bytes}
    (hlocate : fs.locate root true = .ok (before ++ [name])) (hroot : root.fileName? = none)
    (hs : result (take algorithm fs options root) = .ok s)
    (ht : result (take algorithm fs options (FileSystem.absolutePath (before ++ [name]))) = .ok t) :
    s.tree = t.tree ∧
      (¬ EndsInBackslash (displayName name) → s.name = t.name ∧ s.digest = t.digest) ∧
      (EndsInBackslash (displayName name) →
        Node.isEntryName (Utf8.encode (withoutSeparators (displayName name))) = true →
        s.name ≠ t.name) := by
  have hnames := isEntryName_of_locate hlocate
  have hname : Node.isEntryName name = true := hnames name (by simp)
  obtain ⟨items, -, hitems, -⟩ := take_eq_ok_iff.mp hs
  obtain ⟨items', -, hitems', -⟩ := take_eq_ok_iff.mp ht
  obtain ⟨location, hfound, hplace⟩ := exists_locate_of_walk hitems
  obtain ⟨location', hlocate', -⟩ := exists_locate_of_walk hitems'
  obtain rfl := Except.ok.inj (hlocate.symm.trans hfound)
  obtain rfl := FileSystem.locate_absolutePath hplace hnames hlocate'
  have hlocation := canonicalLocation_of_walk hlocate hitems
  have htree := tree_eq_of_namesAndTimes hs ht hitems hitems'
    (namesAndTimes_of_walk hlocate hlocate' hitems hitems')
  have htName : t.name = displayName name :=
    Except.ok.inj ((directoryName_of_take ht).symm.trans (directoryName_absolutePath hnames))
  refine ⟨htree, fun hend => ?_, fun hend hkept hsame => ?_⟩
  · have hwhole := withoutSeparators_displayName hname hend
    have hkept := isEntryName_encode_displayName hname
    rw [← hwhole] at hkept
    have hsName := (directoryName_of_take hs).symm.trans
      (directoryName_of_fileName?_eq_none hlocation hroot hkept)
    rw [hwhole, displayName, Nfc.normalize_normalize] at hsName
    have hsame : s.name = t.name := (Except.ok.inj hsName).trans htName.symm
    exact ⟨hsame, by rw [(isTaken_of_take hs).digest, (isTaken_of_take ht).digest, htree, hsame]⟩
  · have hsName := Except.ok.inj ((directoryName_of_take hs).symm.trans
      (directoryName_of_fileName?_eq_none hlocation hroot hkept))
    rw [← htName, ← hsame, hsName, endsInBackslash_normalize] at hend
    exact not_endsInBackslash_withoutSeparators _ hend

def holdingBAndF : Node :=
  .directory true [([98], .emptyDirectory), ([102], .file ⟨7, 0⟩ [])]

/-- Two such directories: one is named by the letter `e` and a combining accent, the other `a\`. -/
def withOddNames : FileSystem :=
  ⟨.bits34, .directory true [([101, 204, 129], holdingBAndF), ([97, 92], holdingBAndF)], by decide⟩

def itemsBAndF (root : Path) : List WalkItem :=
  [.directory (root.join [98]), .leaf ⟨[102], root.join [102], ⟨7, 0⟩, .file⟩]

def aroundE : Path := ⟨[101, 204, 129, 47, 98, 47, 46, 46]⟩

def aroundA : Path := ⟨[97, 92, 47, 98, 47, 46, 46]⟩

theorem locate_aroundE : withOddNames.locate aroundE true = .ok ([] ++ [[101, 204, 129]]) := by cbv

theorem walk_aroundE : result (walk withOddNames .default aroundE) = .ok (itemsBAndF aroundE) := by
  cbv

theorem walk_absoluteE :
    result (walk withOddNames .default (FileSystem.absolutePath [[101, 204, 129]])) =
      .ok (itemsBAndF (FileSystem.absolutePath [[101, 204, 129]])) := by
  cbv

theorem not_endsInBackslash_e : ¬ EndsInBackslash (displayName [101, 204, 129]) := by
  have hdisplay : Utf8.display [101, 204, 129] = "e\u0301" := by cbv
  rw [displayName, endsInBackslash_normalize, hdisplay]
  decide

theorem take_aroundE : ∃ s t, result (take .blake3 withOddNames .default aroundE) = .ok s ∧
    result (take .blake3 withOddNames .default
      (FileSystem.absolutePath ([] ++ [[101, 204, 129]]))) = .ok t ∧
    s.tree = t.tree ∧ s.name = t.name ∧ s.digest = t.digest := by
  have hnames := isEntryName_of_locate locate_aroundE
  have hname : Node.isEntryName [101, 204, 129] = true := by decide
  have hroot : aroundE.fileName? = none := by cbv
  have hkept := isEntryName_encode_displayName hname
  rw [← withoutSeparators_displayName hname not_endsInBackslash_e] at hkept
  obtain ⟨s, hs⟩ := @exists_take .blake3 _ _ _ _ _ walk_aroundE
    (directoryName_of_fileName?_eq_none (canonicalLocation_of_walk locate_aroundE walk_aroundE) hroot
      hkept)
  obtain ⟨t, ht⟩ := @exists_take .blake3 _ _ _ _ _ walk_absoluteE
    (directoryName_absolutePath hnames)
  obtain ⟨htree, hsame, -⟩ := take_without_fileName locate_aroundE hroot hs ht
  exact ⟨s, t, hs, ht, htree, hsame not_endsInBackslash_e⟩

theorem walk_aroundA : result (walk withOddNames .default aroundA) = .ok (itemsBAndF aroundA) := by
  cbv

theorem walk_absoluteA : result (walk withOddNames .default (FileSystem.absolutePath [[97, 92]])) =
    .ok (itemsBAndF (FileSystem.absolutePath [[97, 92]])) := by
  cbv

/-- The directory `a\` is named `a` by a path without a name of its own. -/
theorem differsFrom_aroundA : ∃ s t,
    withOddNames.canonicalize aroundA = .ok (FileSystem.absolutePath [[97, 92]]) ∧
    aroundA.fileName? = none ∧
    result (take .blake3 withOddNames .default aroundA) = .ok s ∧
    result (take .blake3 withOddNames .default (FileSystem.absolutePath [[97, 92]])) = .ok t ∧
    s.name = "a" ∧ t.name = "a\\" ∧ s.differsFrom t = true := by
  have hname : directoryName withOddNames aroundA = .ok "a" := by cbv
  have hname' : directoryName withOddNames (FileSystem.absolutePath [[97, 92]]) = .ok "a\\" := by
    cbv
  have hs := (@take_eq_ok_iff .blake3 withOddNames .default aroundA _).mpr
    ⟨_, _, walk_aroundA, hname, rfl⟩
  have ht := (@take_eq_ok_iff .blake3 withOddNames .default _ _).mpr
    ⟨_, _, walk_absoluteA, hname', rfl⟩
  exact ⟨_, _, by cbv, by cbv, hs, ht, rfl, rfl, by decide +kernel⟩

end Snapshot
end MerkleDir
