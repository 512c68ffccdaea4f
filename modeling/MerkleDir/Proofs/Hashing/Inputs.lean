import Mathlib
import MerkleDir.EntryDigest
import MerkleDir.Proofs.Hashing.TimestampText
import MerkleDir.Proofs.Path.Segments
import MerkleDir.Proofs.Text.Hex

namespace MerkleDir

namespace Digest

theorem length_toHex_ofBlock (b : Block) : (ofBlock b).toHex.toList.length = 64 := by
  rw [toHex, Hex.length_encode, Vector.length_toList]

/-- After digits of equally many digests the names are found at one place. -/
theorem toHex_append_inj {b c : Block} {s t : String}
    (h : (ofBlock b).toHex ++ s = (ofBlock c).toHex ++ t) : b = c ∧ s = t := by
  have hl := congrArg String.toList h
  rw [String.toList_append, String.toList_append] at hl
  obtain ⟨hhex, hname⟩ := List.append_inj hl (by rw [length_toHex_ofBlock, length_toHex_ofBlock])
  exact ⟨Vector.toList_inj.mp (Hex.encode_injective (String.toList_injective hhex)),
    String.toList_injective hname⟩

theorem toHex_empty_append (s : String) : Digest.empty.toHex ++ s = s := by simp [toHex]

end Digest

/-- A text between slashes. A single slash is both of them. -/
def IsFramed (text : String) : Prop :=
  (∃ rest, Utf8.encode text = Path.slash :: rest) ∧
    ∃ before, Utf8.encode text = before ++ [Path.slash]

theorem isFramed_slash : IsFramed "/" := ⟨⟨[], Path.encode_slash⟩, [], Path.encode_slash⟩

/-- Each of the names that lie between a directory and an entry is followed by a slash. -/
theorem isFramed_relativeParent (root p : Path) : IsFramed (Path.relativeParent root p) := by
  simp only [Path.relativeParent]
  generalize List.filterMap _ _ = names
  refine ⟨⟨_, by rw [Utf8.encode_append, Path.encode_slash, List.singleton_append]⟩, ?_⟩
  rcases List.eq_nil_or_concat' names with rfl | ⟨names, name, rfl⟩
  · exact ⟨[], Path.encode_slash⟩
  · rw [List.map_append, String.join_append, List.map_singleton, String.join_cons, String.join_nil,
      String.append_empty, ← String.append_assoc, ← String.append_assoc, Utf8.encode_append,
      Path.encode_slash]
    exact ⟨_, rfl⟩

theorem slash_notMem_encode_text (t : Timestamp) : Path.slash ∉ Utf8.encode t.text := by
  rw [← Utf8.mem_display_iff (by decide), Utf8.display_encode]
  intro hmem
  rw [Timestamp.toList_text] at hmem
  have hdigit {width n : Nat} :
      Char.ofNat Path.slash.toNat ∉ Timestamp.padLeft width (Nat.toDigits 10 n) :=
    fun h => absurd (Timestamp.isDigit_of_mem_padLeft h) (by decide)
  simp only [List.mem_append, List.mem_cons, hdigit, or_false, false_or] at hmem
  rcases hmem with hsign | hpoint
  · split_ifs at hsign
    · exact absurd hsign (by decide)
    · cases hsign
  · exact absurd hpoint (by decide)

/-- The name ends at the first slash and the time starts after the last. -/
theorem entryInput_framed_inj {n n' : Bytes} (hn : Path.slash ∉ n) (hn' : Path.slash ∉ n')
    {parent parent' : String} (hp : IsFramed parent) (hp' : IsFramed parent') {t t' : Timestamp} :
    entryInput n parent t = entryInput n' parent' t' ↔ n = n' ∧ parent = parent' ∧ t = t' := by
  refine ⟨fun h => ?_, fun h => by rw [h.1, h.2.1, h.2.2]⟩
  have hname : n = n' := by
    obtain ⟨rest, hrest⟩ := hp.1
    obtain ⟨rest', hrest'⟩ := hp'.1
    have hsplit := congrArg Path.splitSlash h
    simp only [entryInput, hrest, hrest', List.append_assoc, List.cons_append] at hsplit
    rw [Path.splitSlash_append, Path.splitSlash_append, Path.splitSlash_of_notMem hn,
      Path.splitSlash_of_notMem hn'] at hsplit
    exact (List.cons.inj hsplit).1
  subst hname
  rw [entryInput, entryInput, List.append_assoc, List.append_assoc] at h
  replace h := List.append_cancel_left h
  have htime : Utf8.encode t.text = Utf8.encode t'.text := by
    obtain ⟨before, hbefore⟩ := hp.2
    obtain ⟨before', hbefore'⟩ := hp'.2
    have hsplit := congrArg Path.splitSlash h
    rw [hbefore, hbefore', List.append_assoc, List.append_assoc, List.singleton_append,
      List.singleton_append, Path.splitSlash_append, Path.splitSlash_append,
      Path.splitSlash_of_notMem (slash_notMem_encode_text t),
      Path.splitSlash_of_notMem (slash_notMem_encode_text t')] at hsplit
    exact (List.cons.inj (List.append_inj_right' hsplit rfl)).1
  rw [htime] at h
  exact ⟨rfl, Utf8.encode_injective (List.append_cancel_right h),
    Timestamp.text_injective (Utf8.encode_injective htime)⟩

theorem entryInput_inj {n n' : Bytes} (hn : Path.slash ∉ n) (hn' : Path.slash ∉ n')
    {t t' : Timestamp} : entryInput n "/" t = entryInput n' "/" t' ↔ n = n' ∧ t = t' := by
  rw [entryInput_framed_inj hn hn' isFramed_slash isFramed_slash]
  simp only [true_and]

/-- Wherever an entry is, its name, its parent and its time can be read back from its input, and no
two times have one text. -/
theorem entryInput_relativeParent_inj {n n' : Bytes} (hn : Path.slash ∉ n) (hn' : Path.slash ∉ n')
    (root root' p p' : Path) (t t' : Timestamp) :
    (entryInput n (Path.relativeParent root p) t = entryInput n' (Path.relativeParent root' p') t' ↔
        n = n' ∧ Path.relativeParent root p = Path.relativeParent root' p' ∧ t = t') ∧
      (t.text = t'.text ↔ t = t') :=
  ⟨entryInput_framed_inj hn hn' (isFramed_relativeParent root p) (isFramed_relativeParent root' p'),
    Timestamp.text_injective.eq_iff⟩

/-- An entry `a` of half a second before the epoch, and an entry `a-` of half a second after it. -/
theorem entryInput_ne_of_moved_sign : Path.slash ∉ [97] ∧ Path.slash ∉ [97, 45] ∧
    entryInput [97] (Path.relativeParent ⟨[100]⟩ ⟨[100, 47, 98, 47, 97]⟩) ⟨-1, 500000000⟩ ≠
      entryInput [97, 45] (Path.relativeParent ⟨[100]⟩ ⟨[100, 47, 98, 47, 97, 45]⟩)
        ⟨0, 500000000⟩ := by
  have hn : Path.slash ∉ [97] := by decide
  have hn' : Path.slash ∉ [97, 45] := by decide
  refine ⟨hn, hn', fun h => ?_⟩
  have hname := ((entryInput_relativeParent_inj hn hn' _ _ _ _ _ _).1.mp h).1
  exact absurd hname (by decide)

theorem directoryInput_inj {top top' : Digest} {name name' : String} :
    directoryInput top name = directoryInput top' name' ↔
      top.toHex ++ name = top'.toHex ++ name' := by
  rw [directoryInput, directoryInput, ← Utf8.encode_append, ← Utf8.encode_append,
    Utf8.encode_injective.eq_iff]

end MerkleDir
