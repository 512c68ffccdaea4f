import Mathlib
import MerkleDir.FileSystem.Basic

namespace MerkleDir.Path

theorem encode_slash : Utf8.encode "/" = [slash] := by decide

theorem splitSlash_ne_nil (bytes : Bytes) : splitSlash bytes ≠ [] := by
  fun_induction splitSlash bytes <;> simp

theorem splitSlash_append (a b : Bytes) :
    splitSlash (a ++ slash :: b) = splitSlash a ++ splitSlash b := by
  induction a with
  | nil => simp [splitSlash]
  | cons x a ih =>
    obtain ⟨first, others, ha⟩ := List.exists_cons_of_ne_nil (splitSlash_ne_nil a)
    rw [List.cons_append, splitSlash, splitSlash, ih, ha]
    split_ifs <;> rfl

theorem splitSlash_of_notMem {bytes : Bytes} (h : slash ∉ bytes) : splitSlash bytes = [bytes] := by
  induction bytes with
  | nil => rfl
  | cons x bytes ih =>
    rw [List.mem_cons, not_or] at h
    rw [splitSlash, if_neg (Ne.symm h.1), ih h.2]

theorem notMem_of_mem_splitSlash {bytes segment : Bytes} (h : segment ∈ splitSlash bytes) :
    slash ∉ segment := by
  induction bytes generalizing segment with
  | nil => simp_all [splitSlash]
  | cons x bytes ih =>
    obtain ⟨first, others, hb⟩ := List.exists_cons_of_ne_nil (splitSlash_ne_nil bytes)
    rw [splitSlash, hb] at h
    rw [hb] at ih
    split_ifs at h with hx
    · rcases List.mem_cons.mp h with rfl | h
      · exact List.not_mem_nil
      · exact ih h
    · rcases List.mem_cons.mp h with rfl | h
      · exact List.not_mem_cons_of_ne_of_not_mem (Ne.symm hx) (ih List.mem_cons_self)
      · exact ih (List.mem_cons_of_mem _ h)

theorem splitSlash_joinSlash {segments : List Bytes} (hne : segments ≠ [])
    (h : ∀ s ∈ segments, slash ∉ s) : splitSlash (joinSlash segments) = segments := by
  induction segments with
  | nil => exact absurd rfl hne
  | cons s rest ih =>
    have hs := splitSlash_of_notMem (h s List.mem_cons_self)
    cases rest with
    | nil => rw [joinSlash, List.intercalate_singleton, hs]
    | cons t rest =>
      have hrest := ih (List.cons_ne_nil t rest) fun u hu => h u (List.mem_cons_of_mem s hu)
      rw [joinSlash, List.intercalate_cons_cons, List.append_assoc, List.singleton_append,
        splitSlash_append, hs]
      exact congrArg (s :: ·) hrest

theorem splitSlash_entryName {name : Bytes} (h : Node.isEntryName name = true) :
    splitSlash name = [name] :=
  splitSlash_of_notMem (Node.isEntryName_iff.mp h).2.1

theorem head_append {a : Bytes} (ha : a ≠ []) (b : Bytes) :
    head ⟨a ++ slash :: b⟩ = head ⟨a⟩ := by
  obtain ⟨x, a, rfl⟩ := List.exists_cons_of_ne_nil ha
  cases a <;> simp [head]

theorem head_entryName {name : Bytes} (h : Node.isEntryName name = true) : head ⟨name⟩ = [] := by
  obtain ⟨hne, hslash, hdot, -⟩ := Node.isEntryName_iff.mp h
  obtain ⟨x, name, rfl⟩ := List.exists_cons_of_ne_nil hne
  rw [List.mem_cons, not_or] at hslash
  have hrest : name.head? ≠ some slash := fun hs => hslash.2 (List.mem_of_head? hs)
  have hx : ¬ (x = dot ∧ (name = [] ∨ name.head? = some slash)) := by
    rintro ⟨rfl, rfl | hs⟩
    · exact hdot rfl
    · exact hrest hs
  simp only [head, if_neg (Ne.symm hslash.1), if_neg hx]

theorem length_head_le {a : Bytes} (ha : a ≠ []) : (head ⟨a⟩).length ≤ a.length := by
  obtain ⟨x, a, rfl⟩ := List.exists_cons_of_ne_nil ha
  simp only [head]
  split_ifs <;> simp

theorem segments_append {a : Bytes} (ha : a ≠ []) (b : Bytes) :
    segments ⟨a ++ slash :: b⟩ = segments ⟨a⟩ ++ splitSlash b := by
  rw [segments, segments, head_append ha, List.drop_append_of_le_length (length_head_le ha),
    splitSlash_append]

/-- An entry of a directory starts as the directory does, and its name is the last segment. -/
theorem segments_join (p : Path) {name : Bytes} (h : Node.isEntryName name = true) :
    (p.join name).head = p.head ∧ ∃ before, (p.join name).segments = before ++ [name] ∧
      (p.segments = before ∨ p.segments = before ++ [[]]) := by
  have hsplit := splitSlash_entryName h
  have hslash : name.head? ≠ some slash :=
    fun hs => (Node.isEntryName_iff.mp h).2.1 (List.mem_of_head? hs)
  obtain ⟨bytes⟩ := p
  rcases eq_or_ne bytes [] with rfl | hne
  · rw [join, if_pos (Or.inr rfl), segments, head_entryName h]
    exact ⟨rfl, [], hsplit, Or.inr rfl⟩
  · rw [join, if_neg (not_or.mpr ⟨hslash, hne⟩)]
    split_ifs with hend
    · obtain ⟨a, rfl⟩ := List.getLast?_eq_some_iff.mp hend
      rw [List.append_assoc, List.singleton_append]
      rcases eq_or_ne a [] with rfl | ha
      · exact ⟨rfl, [], hsplit, Or.inr rfl⟩
      · refine ⟨by rw [head_append ha, head_append ha], segments ⟨a⟩, ?_, Or.inr ?_⟩
        · rw [segments_append ha, hsplit]
        · exact segments_append ha []
    · exact ⟨head_append hne name, _, by rw [segments_append hne, hsplit], Or.inl rfl⟩

end MerkleDir.Path
