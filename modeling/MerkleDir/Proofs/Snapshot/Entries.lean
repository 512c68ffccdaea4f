import MerkleDir.Proofs.Snapshot.LinkEnds

/-!
# What becomes of an entry

Files and directories become items on their own account. What becomes of a link is up to the policy:
nothing, a leaf of its own, or what the link ends in. In each case it is told by the directory that
has the entry, and not by the path that leads there.
-/
namespace MerkleDir.Walk

open Logged (result)

variable {fs : FileSystem} {options : SnapshotOptions} {root : Path} {here : Location}

def ownItem (root : Path) : Bytes × Node → Option WalkItem
  | (name, .file modified _) => some (.leaf ⟨name, root.join name, modified, .file⟩)
  | (name, .directory _ _) => some (.directory (root.join name))
  | (_, .link _ _) => none
  | (_, .special) => none

/-- What an entry of the directory at `here` becomes. -/
def IsMadeOf (fs : FileSystem) (options : SnapshotOptions) (root : Path) (here : Location) :
    Bytes × Node → Option WalkItem → Prop
  | (name, .link modified target), item =>
    match options.symlinks with
    | .ignore => item = none
    | .copy => item = some (.leaf ⟨name, root.join name, modified, .symlinkCopy⟩)
    | .follow => ∃ ending, fs.chainEnd? options.maxLinkDepth here target = some ending ∧
        IsFollowedTo name (root.join name) ending item
  | entry, item => item = ownItem root entry

theorem isMadeOf_own {entry : Bytes × Node} (hlink : entry.2.isLink = false)
    {item : Option WalkItem} :
    IsMadeOf fs options root here entry item ↔ item = ownItem root entry := by
  obtain ⟨name, node⟩ := entry
  cases node with
  | link modified target => cases hlink
  | _ => rfl

section link

variable {name : Bytes} {modified : Timestamp} {target : Bytes} {item : Option WalkItem}

theorem isMadeOf_ignored (hpolicy : options.symlinks = .ignore) :
    IsMadeOf fs options root here (name, .link modified target) item ↔ item = none := by
  simp only [IsMadeOf, hpolicy]

theorem isMadeOf_copied (hpolicy : options.symlinks = .copy) :
    IsMadeOf fs options root here (name, .link modified target) item ↔
      item = some (.leaf ⟨name, root.join name, modified, .symlinkCopy⟩) := by
  simp only [IsMadeOf, hpolicy]

theorem isMadeOf_followed (hpolicy : options.symlinks = .follow) :
    IsMadeOf fs options root here (name, .link modified target) item ↔
      ∃ ending, fs.chainEnd? options.maxLinkDepth here target = some ending ∧
        IsFollowedTo name (root.join name) ending item := by
  simp only [IsMadeOf, hpolicy]

end link

/-- An entry that is no link becomes an item of its own, whatever the policy. -/
theorem eq_ownItem_of_classify {entry : Bytes × Node} (hlink : entry.2.isLink = false)
    {item : Option WalkItem} (h : result (classify fs options root entry) = .ok item) :
    item = ownItem root entry := by
  obtain ⟨name, node⟩ := entry
  cases node with
  | file modified content =>
    simp only [classify] at h
    split at h
    · exact (Except.ok.inj h).symm
    · simp at h
  | link modified target => cases hlink
  | special => exact (Except.ok.inj h).symm
  | directory isOpen entries => exact (Except.ok.inj h).symm

theorem eq_of_readLink_join {directory : Node} (hreaches : fs.Reaches root here)
    (hsearch : fs.search here = .ok directory) {name : Bytes}
    (hname : Node.isEntryName name = true) {modified : Timestamp} {target bytes : Bytes}
    (hchild : directory.child? name = some (.link modified target))
    (h : fs.readLink (root.join name) = .ok bytes) : bytes = target := by
  rw [FileSystem.readLink] at h
  split at h
  · rename_i modified' target' hlstat
    obtain ⟨location, hlocate, hnode⟩ := FileSystem.nodeOf_eq_ok_iff.mp hlstat
    rw [hreaches.locate_entry hname hlocate, FileSystem.nodeAt?_append_singleton hsearch, hchild,
      Option.some.injEq, Node.link.injEq] at hnode
    exact (Except.ok.inj h).symm.trans hnode.2.symm
  · cases h
  · cases h

theorem isMadeOf_of_classify {directory : Node} (hreaches : fs.Reaches root here)
    (hsearch : fs.search here = .ok directory) {entry : Bytes × Node}
    (hentry : entry ∈ directory.entries) {item : Option WalkItem}
    (h : result (classify fs options root entry) = .ok item) :
    IsMadeOf fs options root here entry item := by
  cases hlink : entry.2.isLink with
  | false => exact (isMadeOf_own hlink).mpr (eq_ownItem_of_classify hlink h)
  | true =>
    obtain ⟨name, child⟩ := entry
    obtain ⟨modified, target, rfl⟩ := Node.exists_link hlink
    have hroot := (FileSystem.isPlace_of_search hsearch).root
    have hwell := FileSystem.isWellFormed_of_search hsearch
    have hname := (Node.isWellFormed_of_mem hwell hentry).1
    have hchild := Node.child?_of_mem hwell hentry
    cases hpolicy : options.symlinks with
    | ignore =>
      simp only [classify, hpolicy] at h
      exact (isMadeOf_ignored hpolicy).mpr (Except.ok.inj h).symm
    | copy =>
      simp only [classify, hpolicy] at h
      obtain ⟨node, hlstat, hitem⟩ := Logged.result_bind_eq_ok.mp h
      rw [Attempt.result_ofOs, mapError_eq_ok] at hlstat
      obtain rfl := FileSystem.lstat_entry hreaches hsearch hname hchild hlstat
      exact (isMadeOf_copied hpolicy).mpr (Except.ok.inj hitem).symm
    | follow =>
      simp only [classify, hpolicy] at h
      obtain ⟨bytes, htarget⟩ := exists_readLink_of_follow h
      obtain rfl := eq_of_readLink_join hreaches hsearch hname hchild htarget
      exact (isMadeOf_followed hpolicy).mpr (exists_chainEnd?_of_follow hroot
        (Path.parent?_join root hname) hreaches.trimmed htarget h)

/-- A walk makes what it finds of the entries of a directory, one after the other. -/
theorem isMadeOf_of_walk (hlocate : fs.locate root true = .ok here) {items : List WalkItem}
    (h : result (walk fs options root) = .ok items) :
    ∃ es found, fs.list root = .ok es ∧ List.Forall₂ (IsMadeOf fs options root here) es found ∧
      items = found.filterMap id := by
  obtain ⟨es, found, hlist, hfound, rfl⟩ := walk_eq_ok_iff.mp h
  obtain ⟨location, hlocation, hnode⟩ := FileSystem.list_eq_ok_iff.mp hlist
  obtain rfl := Except.ok.inj (hlocate.symm.trans hlocation)
  have hsearch := FileSystem.search_eq_ok_iff.mpr ⟨es, hnode, rfl⟩
  refine ⟨es, found, hlist, ?_, rfl⟩
  refine ((List.forall₂_and_left es found).mpr ⟨fun e he => he, hfound⟩).imp fun e item he => ?_
  exact isMadeOf_of_classify (FileSystem.reaches_of_locate hlocate) hsearch he.1 he.2

namespace IsMadeOf

variable {entry : Bytes × Node}

theorem isItemOf {item : WalkItem} (h : IsMadeOf fs options root here entry (some item)) :
    IsItemOf entry.1 (root.join entry.1) item := by
  obtain ⟨name, node⟩ := entry
  cases node with
  | file modified content => exact Or.inr ⟨modified, .file, Option.some.inj h⟩
  | directory isOpen es => exact Or.inl (Option.some.inj h)
  | special => cases h
  | link modified target =>
    cases hpolicy : options.symlinks with
    | ignore => cases (isMadeOf_ignored hpolicy).mp h
    | copy =>
      exact Or.inr ⟨modified, .symlinkCopy, Option.some.inj ((isMadeOf_copied hpolicy).mp h)⟩
    | follow =>
      obtain ⟨ending, -, hitem⟩ := (isMadeOf_followed hpolicy).mp h
      cases hitem with
      | file modified content target => exact Or.inr ⟨_, _, rfl⟩
      | directory isOpen es => exact Or.inl rfl

end IsMadeOf

end MerkleDir.Walk
