import MerkleDir.Proofs.Snapshot.Entries
import MerkleDir.Snapshot.Basic

namespace MerkleDir

open Logged (result)

namespace Walk

variable {fs : FileSystem} {options : SnapshotOptions} {root : Path}

def endsInDirectory (fs : FileSystem) : Nat → Location → Bytes → Bool
  | 0, _, _ => false
  | steps + 1, here, target =>
    match fs.resolveFrom FileSystem.linkLimit (FileSystem.linkStart here target)
        (FileSystem.pathSegments target) ⟨false, FileSystem.endsInSlash target⟩ with
    | .ok (.found location) =>
      match fs.nodeAt? location with
      | some (.directory _ _) => true
      | some (.link _ next) => endsInDirectory fs steps location.dropLast next
      | _ => false
    | _ => false

def isSubdirectory (fs : FileSystem) (options : SnapshotOptions) (here : Location) : Node → Bool
  | .directory _ _ => true
  | .link _ target =>
    options.symlinks == .follow && endsInDirectory fs options.maxLinkDepth here target
  | _ => false

theorem endsInDirectory_iff {steps : Nat} {here : Location} {target : Bytes} :
    endsInDirectory fs steps here target = true ↔
      ∃ isOpen es, fs.chainEnd? steps here target = some (.ok (.directory isOpen es)) := by
  induction steps generalizing here target with
  | zero => exact ⟨nofun, nofun⟩
  | succ steps ih =>
    rw [endsInDirectory, ← FileSystem.hop, FileSystem.chainEnd?]
    cases fs.hop here target with
    | error e => simp [FileSystem.nodeFound]
    | ok resolution =>
      cases resolution with
      | absent directory name => simp [FileSystem.nodeFound]
      | found location =>
        cases hnode : fs.nodeAt? location with
        | none => simp [FileSystem.nodeFound, hnode]
        | some node =>
          cases node with
          | link modified next => simpa [FileSystem.nodeFound, hnode] using ih
          | _ => simp [FileSystem.nodeFound, hnode]

theorem IsMadeOf.eq_directory_iff {here : Location} {entry : Bytes × Node} {item : Option WalkItem}
    (h : IsMadeOf fs options root here entry item) :
    item = some (.directory (root.join entry.1)) ↔
      isSubdirectory fs options here entry.2 = true := by
  obtain ⟨name, node⟩ := entry
  cases node with
  | directory isOpen es => exact iff_of_true h rfl
  | file modified content => simp [(isMadeOf_own rfl).mp h, ownItem, isSubdirectory]
  | special => simp [(isMadeOf_own rfl).mp h, ownItem, isSubdirectory]
  | link modified target =>
    rw [isSubdirectory]
    cases hpolicy : options.symlinks with
    | ignore => simp [(isMadeOf_ignored hpolicy).mp h]
    | copy => simp [(isMadeOf_copied hpolicy).mp h]
    | follow =>
      obtain ⟨ending, hend, hitem⟩ := (isMadeOf_followed hpolicy).mp h
      rw [beq_self_eq_true, Bool.true_and, endsInDirectory_iff, hend]
      cases hitem <;> simp

theorem directories_of_made {here : Location} {es : List (Bytes × Node)}
    {found : List (Option WalkItem)} (h : List.Forall₂ (IsMadeOf fs options root here) es found) :
    (found.filterMap id).filterMap WalkItem.directory? =
      ((es.filter fun e => isSubdirectory fs options here e.2).map Prod.fst).map root.join := by
  induction h with
  | nil => rfl
  | @cons e item es found hitem _ ih =>
    cases hsub : isSubdirectory fs options here e.2 with
    | true =>
      rw [hitem.eq_directory_iff.mpr hsub, List.filter_cons, hsub, if_pos rfl, List.map_cons,
        List.map_cons, ← ih]
      rfl
    | false =>
      rw [List.filter_cons, hsub, if_neg Bool.false_ne_true, ← ih]
      rcases item with _ | item
      · rfl
      · rcases hitem.isItemOf with rfl | ⟨modified, kind, rfl⟩
        · rw [hitem.eq_directory_iff.mp rfl] at hsub
          cases hsub
        · rfl

end Walk

namespace Snapshot

variable {algorithm : HashAlgorithm} {fs : FileSystem} {options : SnapshotOptions} {root : Path}

def subdirectoryNames (fs : FileSystem) (options : SnapshotOptions) (here : Location) :
    List Bytes :=
  match fs.nodeAt? here with
  | some node =>
    (node.entries.filter fun e => Walk.isSubdirectory fs options here e.2).map Prod.fst
  | none => []

theorem isEntryName_of_mem_subdirectoryNames {here : Location} {name : Bytes}
    (h : name ∈ subdirectoryNames fs options here) : Node.isEntryName name = true := by
  rw [subdirectoryNames] at h
  cases hnode : fs.nodeAt? here with
  | none =>
    rw [hnode] at h
    cases h
  | some node =>
    rw [hnode] at h
    obtain ⟨e, he, rfl⟩ := List.mem_map.mp h
    have hmem := (List.mem_filter.mp he).1
    exact (Node.isWellFormed_of_mem (FileSystem.isWellFormed_of_nodeAt? hnode) hmem).1

/-- A snapshot lists what the place has to list, under the path by which it was reached. -/
theorem subdirectories_of_take {s : Snapshot}
    (h : result (take algorithm fs options root) = .ok s) {here : Location}
    (hlocate : fs.locate root true = .ok here) :
    s.subdirectories = (subdirectoryNames fs options here).map root.join := by
  obtain ⟨items, name, hitems, -, rfl⟩ := take_eq_ok_iff.mp h
  obtain ⟨es, found, hlist, hfound, rfl⟩ := Walk.isMadeOf_of_walk hlocate hitems
  obtain ⟨location, hlocation, hnode⟩ := FileSystem.list_eq_ok_iff.mp hlist
  obtain rfl : here = location := Except.ok.inj (hlocate.symm.trans hlocation)
  rw [subdirectoryNames, hnode]
  exact Walk.directories_of_made hfound

end Snapshot
end MerkleDir
