import Mathlib
import MerkleDir.Snapshot.Basic

namespace MerkleDir

theorem Bytes.eq_of_sorted {l r : List Bytes} (hl : l.Pairwise fun a b => compare a b = .lt)
    (hr : r.Pairwise fun a b => compare a b = .lt) (h : ∀ a, a ∈ l ↔ a ∈ r) : l = r := by
  have hne {a b : Bytes} (hab : compare a b = .lt) : a ≠ b := by
    rintro rfl
    rw [compare_self] at hab
    cases hab
  have hperm := (List.perm_ext_iff_of_nodup (hl.imp hne) (hr.imp hne)).mpr h
  refine hperm.eq_of_pairwise (fun a b _ _ hab hba => ?_) hl hr
  exact absurd rfl (hne (compare_trans hab hba))

namespace EntryStore

def Precedes (a b : SnapshotEntry) : Prop := Bytes.compare a.fileName b.fileName = .lt

variable {entry : SnapshotEntry} {entries walked : List SnapshotEntry}

theorem Precedes.ne {a b : SnapshotEntry} (h : Precedes a b) : a.fileName ≠ b.fileName := by
  intro hname
  rw [Precedes, hname, Bytes.compare_self] at h
  cases h

theorem mem_of_mem_place {f : SnapshotEntry} (h : f ∈ place entry entries) :
    f = entry ∨ f ∈ entries := by
  induction entries with
  | nil => exact Or.inl (List.mem_singleton.mp h)
  | cons other rest ih =>
    rw [place] at h
    split at h
    · exact List.mem_cons.mp h
    · exact (List.mem_cons.mp h).imp_right (List.mem_cons_of_mem _)
    · rcases List.mem_cons.mp h with rfl | h
      · exact Or.inr List.mem_cons_self
      · exact (ih h).imp_right (List.mem_cons_of_mem _)

theorem pairwise_place (h : entries.Pairwise Precedes) :
    (place entry entries).Pairwise Precedes := by
  induction entries with
  | nil => exact List.pairwise_singleton _ _
  | cons other rest ih =>
    obtain ⟨hother, hrest⟩ := List.pairwise_cons.mp h
    rw [place]
    split
    · rename_i hlt
      refine List.pairwise_cons.mpr ⟨fun f hf => ?_, h⟩
      rcases List.mem_cons.mp hf with rfl | hf
      · exact hlt
      · exact Bytes.compare_trans hlt (hother f hf)
    · rename_i heq
      rw [Bytes.compare_eq_iff] at heq
      refine List.pairwise_cons.mpr ⟨fun f hf => ?_, hrest⟩
      rw [Precedes, heq]
      exact hother f hf
    · rename_i hgt
      refine List.pairwise_cons.mpr ⟨fun f hf => ?_, ih hrest⟩
      rcases mem_of_mem_place hf with rfl | hf
      · rw [Precedes, ← Bytes.compare_swap, hgt]
        rfl
      · exact hother f hf

theorem place_perm (hnew : ∀ f ∈ entries, f.fileName ≠ entry.fileName) :
    (place entry entries).Perm (entry :: entries) := by
  induction entries with
  | nil => exact .refl _
  | cons other rest ih =>
    obtain ⟨hother, hrest⟩ := List.forall_mem_cons.mp hnew
    rw [place]
    split
    · exact .refl _
    · rename_i heq
      exact absurd (Bytes.compare_eq_iff.mp heq).symm hother
    · exact ((ih hrest).cons other).trans (.swap entry other rest)

theorem pairwise_entries : (ofEntries walked).entries.Pairwise Precedes := by
  induction walked using List.reverseRecOn with
  | nil => exact .nil
  | append_singleton walked e ih =>
    rw [ofEntries_append]
    exact pairwise_place ih

theorem fileName_ne_of_append (h : ((walked ++ [entry]).map (·.fileName)).Nodup) :
    (walked.map (·.fileName)).Nodup ∧ ∀ f ∈ walked, f.fileName ≠ entry.fileName := by
  rw [List.map_append, List.nodup_append] at h
  exact ⟨h.1, fun f hf => h.2.2 _ (List.mem_map_of_mem hf) _ (by simp)⟩

theorem entries_perm (h : (walked.map (·.fileName)).Nodup) :
    (ofEntries walked).entries.Perm walked := by
  induction walked using List.reverseRecOn with
  | nil => exact .refl _
  | append_singleton walked e ih =>
    obtain ⟨hwalked, hnew⟩ := fileName_ne_of_append h
    have hperm := ih hwalked
    rw [ofEntries_append]
    exact (place_perm fun f hf => hnew f (hperm.subset hf)).trans
      ((hperm.cons e).trans (List.perm_append_singleton e walked).symm)

theorem met_ofEntries (h : (walked.map (·.fileName)).Nodup) :
    (ofEntries walked).met = walked.map (·.fileName) := by
  induction walked using List.reverseRecOn with
  | nil => rfl
  | append_singleton walked e ih =>
    obtain ⟨hwalked, hnew⟩ := fileName_ne_of_append h
    have hnone : ((ofEntries walked).lookup? e.fileName).isNone = true := by
      simpa [lookup?] using fun f hf => hnew f ((entries_perm hwalked).subset hf)
    rw [ofEntries_append, insert, if_pos hnone, ih hwalked, List.map_append]
    rfl

theorem find?_fileName_eq_some_iff (h : (entries.map (·.fileName)).Nodup) {n : Bytes} :
    entries.find? (·.fileName == n) = some entry ↔ entry ∈ entries ∧ entry.fileName = n := by
  refine ⟨fun hfound => ⟨List.mem_of_find?_eq_some hfound, ?_⟩, fun ⟨he, hn⟩ => ?_⟩
  · simpa using List.find?_some hfound
  · have hsome : (entries.find? (·.fileName == n)).isSome = true :=
      List.find?_isSome.mpr ⟨entry, he, by simpa using hn⟩
    obtain ⟨f, hf⟩ := Option.isSome_iff_exists.mp hsome
    have hname : f.fileName = n := by simpa using List.find?_some hf
    rw [hf, List.inj_on_of_nodup_map h (List.mem_of_find?_eq_some hf) he (hname.trans hn.symm)]

theorem nodup_fileName (h : entries.Pairwise Precedes) : (entries.map (·.fileName)).Nodup :=
  List.pairwise_map.mpr (h.imp Precedes.ne)

theorem leafEntries_enumeration (h : (walked.map (·.fileName)).Nodup) :
    (ofEntries walked).leafEntries .enumeration = walked := by
  have hentry : ∀ e ∈ walked, (ofEntries walked).lookup? e.fileName = some e := fun e he =>
    (find?_fileName_eq_some_iff (nodup_fileName pairwise_entries)).mpr
      ⟨(entries_perm h).mem_iff.mpr he, rfl⟩
  rw [leafEntries, met_ofEntries h, List.filterMap_map]
  exact (List.filterMap_congr hentry).trans List.filterMap_some

theorem leafEntries_perm (order : LeafOrder) (h : (walked.map (·.fileName)).Nodup) :
    ((ofEntries walked).leafEntries order).Perm (ofEntries walked).entries := by
  cases order with
  | name => exact .refl _
  | enumeration =>
    rw [leafEntries_enumeration h]
    exact (entries_perm h).symm

end EntryStore

namespace Snapshot

theorem lookup?_indexEntries (index : DigestIndex) (entries : List SnapshotEntry) (d : Digest) :
    (indexEntries index entries).value.lookup? d =
      ((entries.reverse.find? (·.digest == d)).map (·.fileName)).or (index.lookup? d) := by
  induction entries generalizing index with
  | nil => rfl
  | cons e entries ih =>
    have hnext : (indexEntries index (e :: entries)).value =
        (indexEntries (index.insert e.digest e.fileName) entries).value := by
      rw [indexEntries]
      split <;> rfl
    rw [hnext, ih, DigestIndex.lookup?_insert, List.reverse_cons, List.find?_append,
      BEq.comm (a := d)]
    cases entries.reverse.find? (·.digest == d) <;> cases he : e.digest == d <;> simp [he]

end Snapshot
end MerkleDir
