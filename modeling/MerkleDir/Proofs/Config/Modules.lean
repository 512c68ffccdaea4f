import Mathlib
import MerkleDir.Proofs.Config.Layers

namespace MerkleDir.Config

open Layer (get? lookup_cons_eq lookup_eq_none_of_notMem)

/-- By name, and each name once. -/
def IsMap (entries : List (String × String)) : Prop := entries.Pairwise fun a b => a.1 < b.1

namespace IsMap

variable {entries others : List (String × String)} {entry : String × String}

theorem nodup (h : IsMap entries) : (entries.map Prod.fst).Nodup := by
  rw [List.Nodup, List.pairwise_map]
  exact h.imp ne_of_lt

theorem mem_iff (h : IsMap entries) : entry ∈ entries ↔ List.lookup entry.1 entries = some entry.2 :=
  Layer.mem_iff_lookup h.nodup

theorem ext (h : IsMap entries) (hothers : IsMap others)
    (hlookup : ∀ name, List.lookup name entries = List.lookup name others) : entries = others := by
  have : Std.Irrefl fun a b : String × String => a.1 < b.1 := ⟨fun a => lt_irrefl a.1⟩
  have : Std.Antisymm fun a b : String × String => a.1 < b.1 :=
    ⟨fun a b hab hba => absurd hab hba.not_gt⟩
  exact List.Pairwise.eq_of_mem_iff h hothers fun entry => by
    rw [h.mem_iff, hothers.mem_iff, hlookup]

end IsMap

namespace Reading

theorem lookup_reverse_cons (name : String) (entry : String × String)
    (entries : List (String × String)) : List.lookup name (entry :: entries).reverse =
      (List.lookup name entries.reverse).or (if name = entry.1 then some entry.2 else none) := by
  rw [List.reverse_cons, List.lookup_append]
  exact congrArg _ (lookup_cons_eq name entry.1 entry.2 [])

theorem lookup_reverse {entries : List (String × String)} (h : (entries.map Prod.fst).Nodup)
    (name : String) : List.lookup name entries.reverse = List.lookup name entries := by
  induction entries with
  | nil => rfl
  | cons entry entries ih =>
    obtain ⟨hnotMem, hrest⟩ := List.nodup_cons.mp h
    rw [lookup_reverse_cons, ih hrest, lookup_cons_eq]
    split_ifs with hname
    · rw [hname, lookup_eq_none_of_notMem hnotMem]
      rfl
    · exact Option.or_none

theorem lookup_insertSorted (name : String) (entry : String × String)
    {sorted : List (String × String)} (h : IsMap sorted) :
    List.lookup name (insertSorted entry sorted) =
      if name = entry.1 then some entry.2 else List.lookup name sorted := by
  induction sorted with
  | nil => exact lookup_cons_eq name entry.1 entry.2 []
  | cons other sorted ih =>
    rw [insertSorted]
    by_cases hlt : entry.1 < other.1
    · rw [if_pos hlt]
      exact lookup_cons_eq name entry.1 entry.2 (other :: sorted)
    rw [if_neg hlt]
    by_cases heq : entry.1 = other.1
    · rw [if_pos heq, lookup_cons_eq, lookup_cons_eq, heq]
      split_ifs <;> rfl
    · rw [if_neg heq, lookup_cons_eq, lookup_cons_eq, ih (List.pairwise_cons.mp h).2]
      split_ifs with hother hname
      · exact absurd (hname.symm.trans hother) heq
      · rfl
      · rfl
      · rfl

theorem mem_insertSorted {entry found : String × String} {sorted : List (String × String)}
    (h : found ∈ insertSorted entry sorted) : found = entry ∨ found ∈ sorted := by
  induction sorted with
  | nil => exact Or.inl (List.mem_singleton.mp h)
  | cons other sorted ih =>
    rw [insertSorted] at h
    split_ifs at h with hlt heq
    · exact List.mem_cons.mp h
    · exact (List.mem_cons.mp h).imp_right (List.mem_cons_of_mem _)
    · rcases List.mem_cons.mp h with rfl | h
      · exact Or.inr List.mem_cons_self
      · exact (ih h).imp_right (List.mem_cons_of_mem _)

theorem isMap_insertSorted (entry : String × String) {sorted : List (String × String)}
    (h : IsMap sorted) : IsMap (insertSorted entry sorted) := by
  induction sorted with
  | nil => exact List.pairwise_singleton _ _
  | cons other sorted ih =>
    obtain ⟨hother, hrest⟩ := List.pairwise_cons.mp h
    rw [insertSorted]
    split_ifs with hlt heq
    · refine List.pairwise_cons.mpr ⟨fun found hfound => ?_, h⟩
      rcases List.mem_cons.mp hfound with rfl | hfound
      · exact hlt
      · exact hlt.trans (hother found hfound)
    · exact List.pairwise_cons.mpr ⟨fun found hfound => heq ▸ hother found hfound, hrest⟩
    · refine List.pairwise_cons.mpr ⟨fun found hfound => ?_, ih hrest⟩
      rcases mem_insertSorted hfound with rfl | hfound
      · exact lt_of_le_of_ne (not_lt.mp hlt) (Ne.symm heq)
      · exact hother found hfound

/-- Of entries with one name the last counts. -/
theorem insertAll_spec {entries sorted : List (String × String)} (h : IsMap sorted) :
    IsMap (entries.foldl (fun sorted e => insertSorted e sorted) sorted) ∧
      ∀ name, List.lookup name (entries.foldl (fun sorted e => insertSorted e sorted) sorted) =
        (List.lookup name entries.reverse).or (List.lookup name sorted) := by
  induction entries generalizing sorted with
  | nil => exact ⟨h, fun _ => rfl⟩
  | cons entry entries ih =>
    obtain ⟨hmap, hlookup⟩ := ih (isMap_insertSorted entry h)
    refine ⟨hmap, fun name => ?_⟩
    rw [List.foldl_cons, hlookup, lookup_insertSorted name entry h, lookup_reverse_cons, Option.or_assoc]
    split_ifs <;> rfl

variable {r : Reading} {fs : List (String × Json)}

theorem exists_entries (hnodup : (fs.map Prod.fst).Nodup)
    (htext : ∀ name value, get? name (.object fs) = some value → (r.text? value).isSome) :
    ∃ entries, fs.mapM r.entry? = some entries ∧ entries.map Prod.fst = fs.map Prod.fst ∧
      ∀ name, List.lookup name entries = (get? name (.object fs)).bind r.text? := by
  induction fs with
  | nil => exact ⟨[], rfl, rfl, fun _ => rfl⟩
  | cons field fs ih =>
    obtain ⟨key, value⟩ := field
    obtain ⟨hnotMem, hrest⟩ := List.nodup_cons.mp hnodup
    have hget (name : String) : get? name (.object ((key, value) :: fs)) =
        if name = key then some value else get? name (.object fs) := lookup_cons_eq name key value fs
    obtain ⟨level, hlevel⟩ := Option.isSome_iff_exists.mp
      (htext key value (by rw [hget, if_pos rfl]))
    obtain ⟨entries, hentries, hnames, hlookup⟩ := ih hrest fun name found hfound => by
      refine htext name found ?_
      rw [hget, if_neg, hfound]
      rintro rfl
      have hmem : (name, found) ∈ fs := Layer.mem_of_lookup_eq_some hfound
      exact hnotMem (List.mem_map.mpr ⟨_, hmem, rfl⟩)
    refine ⟨(key, level) :: entries, ?_, by simp [hnames], fun name => ?_⟩
    · simp [List.mapM_cons, entry?, hlevel, hentries]
    · rw [lookup_cons_eq, hget, hlookup]
      split_ifs
      · exact hlevel.symm
      · rfl

/-- The levels that a table gives to its names. -/
theorem exists_modules (hnodup : (fs.map Prod.fst).Nodup)
    (htext : ∀ name value, get? name (.object fs) = some value → (r.text? value).isSome) :
    ∃ modules, r.modules? (.object fs) = some modules ∧ IsMap modules ∧
      ∀ name, List.lookup name modules = (get? name (.object fs)).bind r.text? := by
  obtain ⟨entries, hentries, hnames, hlookup⟩ := exists_entries hnodup htext
  have hempty : IsMap [] := List.Pairwise.nil
  obtain ⟨hmap, hfound⟩ := insertAll_spec hempty
  refine ⟨_, ?_, hmap, fun name => ?_⟩
  · rw [modules?, hentries]
    rfl
  · rw [hfound, lookup_reverse (hnames ▸ hnodup), hlookup]
    exact Option.or_none

end Reading
end MerkleDir.Config
