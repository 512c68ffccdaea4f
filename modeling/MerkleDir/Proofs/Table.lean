import Mathlib

namespace MerkleDir.Table

variable {α : Type} {p : α → Prop} {table : List α}

theorem forall_mem_append_singleton (h : ∀ a ∈ table, p a) {a : α} (ha : p a) :
    ∀ b ∈ table ++ [a], p b :=
  List.forall_mem_append.mpr ⟨h, List.forall_mem_singleton.mpr ha⟩

theorem forall_mem_append_copy (h : ∀ a ∈ table, p a) (place : Nat) :
    ∀ a ∈ table ++ table[place]?.toList, p a := by
  refine List.forall_mem_append.mpr ⟨h, fun a ha => h a ?_⟩
  exact List.mem_of_getElem? (Option.mem_toList.mp ha)

theorem forall_mem_modify (h : ∀ a ∈ table, p a) {change : α → α}
    (hchange : ∀ a, p a → p (change a)) (place : Nat) :
    ∀ a ∈ table.modify place change, p a := by
  intro a ha
  obtain ⟨i, hi⟩ := List.mem_iff_getElem?.mp ha
  rw [List.getElem?_modify] at hi
  obtain ⟨old, hold, rfl⟩ := Option.map_eq_some_iff.mp hi
  have hp := h old (List.mem_of_getElem? hold)
  split
  · exact hchange old hp
  · exact hp

end MerkleDir.Table
