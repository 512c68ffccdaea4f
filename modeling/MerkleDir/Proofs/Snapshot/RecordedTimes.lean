import MerkleDir.Proofs.Snapshot.Determinacy

namespace MerkleDir

open Logged (result)

variable {fs : FileSystem} {options : SnapshotOptions} {root : Path}

namespace FileSystem

variable {path : Path} {modified : Timestamp}

theorem holds_of_lstat_file {content : Bytes} (h : fs.lstat path = .ok (.file modified content)) :
    fs.times.holds modified = true := by
  obtain ⟨location, -, hnode⟩ := nodeOf_eq_ok_iff.mp h
  exact isWellFormed_of_nodeAt? hnode

theorem holds_of_lstat_link {target : Bytes} (h : fs.lstat path = .ok (.link modified target)) :
    fs.times.holds modified = true := by
  obtain ⟨location, -, hnode⟩ := nodeOf_eq_ok_iff.mp h
  exact (Bool.and_eq_true_iff.mp (isWellFormed_of_nodeAt? hnode)).1

end FileSystem

namespace Walk

variable {leaf : Leaf}

theorem holds_of_follow {limit steps : Nat} {name : Bytes} {link current : Path}
    (h : result (follow fs limit name link steps current) = .ok (some (.leaf leaf))) :
    fs.times.holds leaf.modified = true := by
  induction steps generalizing current with
  | zero => simp [follow] at h
  | succ steps ih =>
    rw [result_follow_succ] at h
    split at h
    · simp at h
    · split at h
      · simp at h
      · simp at h
      · exact ih h
      · rename_i hlstat
        rw [Except.ok.injEq, Option.some_inj, WalkItem.leaf.injEq] at h
        exact h ▸ FileSystem.holds_of_lstat_file hlstat
      · simp at h
      · simp at h

theorem holds_of_classify {entry : Bytes × Node} (hentry : entry.2.isWellFormed fs.times = true)
    (h : result (classify fs options root entry) = .ok (some (.leaf leaf))) :
    fs.times.holds leaf.modified = true := by
  obtain ⟨name, node⟩ := entry
  cases node with
  | link modified target =>
    cases hpolicy : options.symlinks with
    | ignore => simp [classify, hpolicy, Except.map] at h
    | copy =>
      simp only [classify, hpolicy] at h
      obtain ⟨node, hlstat, h⟩ := Logged.result_bind_eq_ok.mp h
      rw [Attempt.result_ofOs, mapError_eq_ok] at hlstat
      split at h
      · rw [Logged.result_pure, Except.ok.injEq, Option.some_inj, WalkItem.leaf.injEq] at h
        exact h ▸ FileSystem.holds_of_lstat_link hlstat
      · simp at h
    | follow =>
      simp only [classify, hpolicy] at h
      exact holds_of_follow h
  | file modified content =>
    simp only [classify] at h
    split at h
    · rw [Logged.result_pure, Except.ok.injEq, Option.some_inj, WalkItem.leaf.injEq] at h
      exact h ▸ hentry
    · simp at h
  | directory isOpen es => simp [classify] at h
  | special => simp [classify, Except.map] at h

theorem exists_mem_of_classified {es : List (Bytes × Node)} {found : List (Option WalkItem)}
    (h : List.Forall₂ (fun e item => result (classify fs options root e) = .ok item) es found)
    {item : Option WalkItem} (hitem : item ∈ found) :
    ∃ e ∈ es, result (classify fs options root e) = .ok item := by
  induction h with
  | nil => cases hitem
  | cons hfirst _ ih =>
    rcases List.mem_cons.mp hitem with rfl | hrest
    · exact ⟨_, List.mem_cons_self, hfirst⟩
    · obtain ⟨e, he, hclassify⟩ := ih hrest
      exact ⟨e, List.mem_cons_of_mem _ he, hclassify⟩

theorem holds_of_walk {items : List WalkItem} (h : result (walk fs options root) = .ok items)
    (hleaf : .leaf leaf ∈ items) : fs.times.holds leaf.modified = true := by
  obtain ⟨es, found, hlist, hfound, rfl⟩ := walk_eq_ok_iff.mp h
  obtain ⟨location, -, hnode⟩ := FileSystem.list_eq_ok_iff.mp hlist
  have hentries := (Node.isWellFormed_directory.mp (FileSystem.isWellFormed_of_nodeAt? hnode)).2
  obtain ⟨item, hitem, rfl⟩ := List.mem_filterMap.mp hleaf
  obtain ⟨e, he, hclassify⟩ := exists_mem_of_classified hfound hitem
  exact holds_of_classify (hentries e he).2 hclassify

end Walk

theorem Snapshot.holds_of_take {algorithm : HashAlgorithm} {s : Snapshot} {entry : SnapshotEntry}
    (h : result (take algorithm fs options root) = .ok s) (hentry : entry ∈ s.entries) :
    fs.times.holds entry.modified = true := by
  obtain ⟨items, -, hitems, -⟩ := take_eq_ok_iff.mp h
  have hmem := (map_leafOf_perm h hitems).mem_iff.mp (List.mem_map_of_mem hentry)
  obtain ⟨leaf, hleaf, heq⟩ := List.mem_map.mp hmem
  obtain ⟨item, hitem, hsome⟩ := List.mem_filterMap.mp hleaf
  cases item with
  | leaf found =>
    obtain rfl := Option.some.inj hsome
    have htime : found.modified = entry.modified := congrArg Prod.snd heq
    exact htime ▸ Walk.holds_of_walk hitems hitem
  | directory path => cases hsome

end MerkleDir
