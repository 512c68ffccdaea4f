import MerkleDir.Proofs.Path.Stretches

namespace MerkleDir.Path

open Nfc (codePoints pathMarks)

section Ends

variable {text : String}

def withoutSlashes (text : String) : String := withoutEnd (· == '/') text

/-- What is taken off the end is redundant: nothing is taken off one byte, and slashes are redundant
if they follow something, unless that ends in a backslash, which is taken off too. -/
def HasRedundantEnd (text : String) : Prop :=
  text.utf8ByteSize ≤ 1 ∨
    withoutSlashes text ≠ "" ∧ (withoutSlashes text).toList.getLast? ≠ some '\\'

theorem isSeparator_iff {c : Char} : isSeparator c = true ↔ c = '/' ∨ c = '\\' := by
  rw [isSeparator, Bool.or_eq_true, beq_iff_eq, beq_iff_eq]

theorem toNat_mem_pathMarks_of_isSeparator {c : Char} (h : isSeparator c = true) :
    c.toNat ∈ pathMarks := by
  rcases isSeparator_iff.mp h with rfl | rfl <;> decide

theorem mem_pathMarks_of_isSeparator {marks : String}
    (h : ∀ c ∈ marks.toList, isSeparator c = true) : ∀ m ∈ codePoints marks, m ∈ pathMarks := by
  intro m hm
  obtain ⟨c, hc, rfl⟩ := List.mem_map.mp hm
  exact toNat_mem_pathMarks_of_isSeparator (h c hc)

theorem exists_eq_withoutSlashes_append (text : String) : ∃ slashes : String,
    (∀ c ∈ slashes.toList, c = '/') ∧ text = withoutSlashes text ++ slashes := by
  obtain ⟨slashes, hslashes, htext⟩ := exists_eq_withoutEnd_append (· == '/') text
  exact ⟨slashes, fun c hc => beq_iff_eq.mp (hslashes c hc), htext⟩

theorem getLast?_withoutSlashes (text : String) :
    (withoutSlashes text).toList.getLast? ≠ some '/' := by
  intro h
  cases eq_false_of_mem_getLast?_withoutEnd h

theorem withoutSlashes_append {slashes : String} (hslashes : ∀ c ∈ slashes.toList, c = '/')
    (hend : text.toList.getLast? ≠ some '/') : withoutSlashes (text ++ slashes) = text := by
  rw [withoutSlashes, withoutEnd_append fun c hc => beq_iff_eq.mpr (hslashes c hc)]
  refine withoutEnd_of_end fun c hc => beq_eq_false_iff_ne.mpr ?_
  rintro rfl
  exact hend hc

theorem withoutSlashes_normalize (text : String) :
    withoutSlashes (Nfc.normalize text) = Nfc.normalize (withoutSlashes text) := by
  obtain ⟨slashes, hslashes, htext⟩ := exists_eq_withoutSlashes_append text
  have hmarks := mem_pathMarks_of_isSeparator fun c hc => isSeparator_iff.mpr (.inl (hslashes c hc))
  have hend : (Nfc.normalize (withoutSlashes text)).toList.getLast? ≠ some '/' :=
    (Nfc.getLast?_normalize_iff (by decide)).not.mpr (getLast?_withoutSlashes text)
  conv_lhs => rw [htext, Nfc.normalize_append_pathMarks hmarks]
  exact withoutSlashes_append hslashes hend

theorem encode_slashes {slashes : String} (h : ∀ c ∈ slashes.toList, c = '/') :
    Utf8.encode slashes = List.replicate slashes.toList.length slash := by
  have hlist := List.eq_replicate_length.mpr h
  rw [Utf8.encode, hlist, List.length_replicate]
  induction slashes.toList.length with
  | zero => rfl
  | succ n ih => rw [List.replicate_succ, List.flatMap_cons, ih]; rfl

theorem components_slashes_ne_nil {slashes : String} (hne : slashes ≠ "")
    (h : ∀ c ∈ slashes.toList, c = '/') : (ofText slashes).components ≠ [] := by
  obtain ⟨c, rest, hlist⟩ := List.exists_cons_of_ne_nil (String.toList_eq_nil_iff.not.mpr hne)
  rw [ofText, encode_slashes h, hlist, List.length_cons, List.replicate_succ]
  exact List.cons_ne_nil _ _

theorem components_withoutSlashes (h : withoutSlashes text ≠ "") :
    (ofText (withoutSlashes text)).components = (ofText text).components := by
  obtain ⟨slashes, hslashes, htext⟩ := exists_eq_withoutSlashes_append text
  have hne : Utf8.encode (withoutSlashes text) ≠ [] :=
    fun hnil => h (Utf8.encode_injective hnil)
  conv_rhs => rw [htext, ofText, Utf8.encode_append, encode_slashes hslashes,
    components_append_slashes hne]
  rfl

theorem withoutSeparators_eq_withoutSlashes
    (h : (withoutSlashes text).toList.getLast? ≠ some '\\') :
    withoutSeparators text = withoutSlashes text := by
  obtain ⟨slashes, hslashes, htext⟩ := exists_eq_withoutSlashes_append text
  rw [withoutSeparators_eq]
  conv_lhs => rw [htext, withoutEnd_append fun c hc => isSeparator_iff.mpr (.inl (hslashes c hc))]
  refine withoutEnd_of_end fun c hc => Bool.eq_false_iff.mpr fun hseparator => ?_
  rcases isSeparator_iff.mp hseparator with rfl | rfl
  · exact getLast?_withoutSlashes text hc
  · exact h hc

/-- Separators that hold no backslash are slashes, since no backslash of a path is lost in its
components. -/
theorem eq_slash_of_components_eq {marks : String}
    (hmarks : ∀ c ∈ marks.toList, isSeparator c = true)
    (h : (ofText text).components = (ofText (text ++ marks)).components) :
    ∀ c ∈ marks.toList, c = '/' := by
  intro c hc
  rcases isSeparator_iff.mp (hmarks c hc) with hslash | rfl
  · exact hslash
  have hcount := congrArg (fun components => (components.map Component.backslashes).sum) h
  simp only [sum_backslashes_components, bytes_ofText, Utf8.encode_append, List.count_append] at hcount
  have hmem : backslash ∈ Utf8.encode marks :=
    List.mem_flatMap.mpr ⟨'\\', hc, by decide⟩
  have hpos := List.count_pos_iff.mpr hmem
  omega

/-- The components are kept exactly when the separators at the end are slashes that follow
something. -/
theorem components_withoutSeparators_iff (hne : text ≠ "") :
    (ofText (withoutSeparators text)).components = (ofText text).components ↔
      withoutSlashes text ≠ "" ∧ (withoutSlashes text).toList.getLast? ≠ some '\\' := by
  constructor
  · intro h
    obtain ⟨marks, hmarks, htext⟩ := exists_eq_withoutEnd_append isSeparator text
    rw [← withoutSeparators_eq] at htext
    have hslashes : ∀ c ∈ marks.toList, c = '/' :=
      eq_slash_of_components_eq hmarks (h.trans (congrArg (fun t => (ofText t).components) htext))
    have hend (c : Char) (hc : isSeparator c = true) :
        (withoutSeparators text).toList.getLast? ≠ some c := by
      intro hlast
      exact Bool.eq_false_iff.mp (isSeparator_of_mem_getLast? hlast) hc
    have hsame : withoutSlashes text = withoutSeparators text := by
      conv_lhs => rw [htext]
      exact withoutSlashes_append hslashes (hend '/' rfl)
    rw [hsame]
    refine ⟨fun hnil => ?_, hend '\\' rfl⟩
    rw [hnil, String.empty_append] at htext
    rw [hnil, htext] at h
    exact components_slashes_ne_nil (htext ▸ hne) hslashes h.symm
  · rintro ⟨hsome, hend⟩
    rw [withoutSeparators_eq_withoutSlashes hend, components_withoutSlashes hsome]

theorem exists_toList_of_utf8ByteSize_le (h : text.utf8ByteSize ≤ 1) :
    text.toList = [] ∨ ∃ c : Char, text.toList = [c] ∧ c.toNat < 0x80 := by
  have hlength := length_le_utf8ByteSize text.toList
  rw [String.ofList_toList] at hlength
  match hlist : text.toList with
  | [] => exact Or.inl rfl
  | [c] =>
    refine Or.inr ⟨c, rfl, ?_⟩
    have hsize : text.utf8ByteSize = c.utf8Size := by
      rw [← String.ofList_toList (s := text), hlist, String.ofList_cons, String.ofList_nil,
        String.append_empty, String.utf8ByteSize_singleton]
    rw [hsize, Char.utf8Size] at h
    split_ifs at h with hone <;> first | omega | skip
    exact Nat.lt_succ_of_le (UInt32.le_iff_toNat_le.mp hone)
  | c :: d :: rest =>
    rw [hlist, List.length_cons, List.length_cons] at hlength
    omega

theorem normalize_of_utf8ByteSize_le (h : text.utf8ByteSize ≤ 1) : Nfc.normalize text = text := by
  rw [Nfc.normalize, if_pos]
  rcases exists_toList_of_utf8ByteSize_le h with hlist | ⟨c, hlist, hc⟩
  · rw [hlist]
    rfl
  · rw [hlist, List.all_cons, List.all_nil, Bool.and_true, decide_eq_true_eq]
    exact hc.trans (by decide)

/-- A short text has nothing redundant to lose at its end, or is a separator. -/
theorem pathMarks_or_of_utf8ByteSize_le (h : text.utf8ByteSize ≤ 1) :
    (∀ m ∈ codePoints text, m ∈ pathMarks) ∨
      withoutSlashes text ≠ "" ∧ (withoutSlashes text).toList.getLast? ≠ some '\\' := by
  rcases exists_toList_of_utf8ByteSize_le h with hlist | ⟨c, hlist, -⟩
  · exact Or.inl (by simp [codePoints, hlist])
  by_cases hseparator : isSeparator c = true
  · refine Or.inl (mem_pathMarks_of_isSeparator fun d hd => ?_)
    rw [hlist, List.mem_singleton] at hd
    rwa [hd]
  · obtain ⟨hslash, hbackslash⟩ := not_or.mp (isSeparator_iff.not.mp hseparator)
    have hsame : withoutSlashes text = text := by
      refine withoutEnd_of_end fun d hd => ?_
      rw [hlist] at hd
      obtain rfl := Option.some.inj hd
      exact beq_eq_false_iff_ne.mpr hslash
    rw [hsame, hlist]
    refine Or.inr ⟨fun hnil => ?_, fun hlast => hbackslash (Option.some.inj hlast)⟩
    rw [hnil] at hlist
    cases hlist

end Ends

section NormalText

variable (text : String)

theorem normalizeText_cases :
    (Nfc.normalize text).utf8ByteSize ≤ 1 ∧ normalizeText text = Nfc.normalize text ∨
      1 < (Nfc.normalize text).utf8ByteSize ∧
        normalizeText text = withoutSeparators (Nfc.normalize text) := by
  rcases Nat.lt_or_ge 1 (Nfc.normalize text).utf8ByteSize with h | h
  · exact Or.inr ⟨h, by rw [normalizeText, trimSeparators, if_pos h, withoutSeparators]⟩
  · exact Or.inl ⟨h, by rw [normalizeText, trimSeparators, if_neg h.not_gt]⟩

theorem normalize_withoutSeparators (h : Nfc.normalize text = text) :
    Nfc.normalize (withoutSeparators text) = withoutSeparators text := by
  obtain ⟨marks, hmarks, htext⟩ := exists_eq_withoutEnd_append isSeparator text
  rw [← withoutSeparators_eq] at htext
  rw [htext, Nfc.normalize_append_pathMarks (mem_pathMarks_of_isSeparator hmarks)] at h
  have hlist := congrArg String.toList h
  rw [String.toList_append, String.toList_append] at hlist
  exact String.toList_injective (List.append_cancel_right hlist)

theorem normalizeText_isNormal : Nfc.normalize (normalizeText text) = normalizeText text ∧
    ((normalizeText text).utf8ByteSize ≤ 1 ∨
      ∀ c ∈ (normalizeText text).toList.getLast?, isSeparator c = false) := by
  have hcomposed := Nfc.normalize_normalize text
  rcases normalizeText_cases text with ⟨hshort, h⟩ | ⟨-, h⟩ <;> rw [h]
  · exact ⟨hcomposed, Or.inl hshort⟩
  · exact ⟨normalize_withoutSeparators _ hcomposed,
      Or.inr fun c hc => isSeparator_of_mem_getLast? hc⟩

theorem normalizeText_normalizeText : normalizeText (normalizeText text) = normalizeText text := by
  obtain ⟨hcomposed, hend⟩ := normalizeText_isNormal text
  rcases normalizeText_cases (normalizeText text) with ⟨-, h⟩ | ⟨hlong, h⟩
  · rw [h, hcomposed]
  · rw [hcomposed] at hlong h
    rw [h, withoutSeparators_of_end (hend.resolve_left hlong.not_ge)]

theorem normalizeText_eq_slash_or :
    normalizeText text = "/" ∨ (normalizeText text).toList.getLast? ≠ some '/' := by
  rcases (normalizeText_isNormal text).2 with hshort | hend
  · rcases exists_toList_of_utf8ByteSize_le hshort with hlist | ⟨c, hlist, -⟩
    · refine Or.inr ?_
      rw [hlist]
      exact nofun
    · rcases eq_or_ne c '/' with rfl | hc
      · exact Or.inl (String.toList_injective hlist)
      · refine Or.inr ?_
        rw [hlist]
        exact fun h => hc (Option.some.inj h)
  · exact Or.inr fun h => nomatch hend '/' h

/-- A text longer than one byte that becomes shorter by normalization ends in something, since a
separator is made of nothing but itself. -/
theorem components_normalizeText_iff :
    (ofText (normalizeText text)).components =
        (ofText text).components.map Component.normalized ↔ HasRedundantEnd text := by
  have hends : (withoutSlashes (Nfc.normalize text) ≠ "" ∧
      (withoutSlashes (Nfc.normalize text)).toList.getLast? ≠ some '\\') ↔
      withoutSlashes text ≠ "" ∧ (withoutSlashes text).toList.getLast? ≠ some '\\' := by
    rw [withoutSlashes_normalize, Ne, @Nfc.normalize_eq_pathMarks_iff _ "" nofun, Ne,
      Nfc.getLast?_normalize_iff (by decide)]
  rw [← components_ofText_normalize]
  rcases normalizeText_cases text with ⟨hshort, h⟩ | ⟨hlong, h⟩ <;> rw [h]
  · refine iff_of_true rfl ?_
    rcases pathMarks_or_of_utf8ByteSize_le hshort with hmarks | hkept
    · rw [← (Nfc.normalize_eq_pathMarks_iff hmarks).mp rfl] at hshort
      exact Or.inl hshort
    · exact Or.inr (hends.mp hkept)
  · have hne : Nfc.normalize text ≠ "" := by
      intro hnil
      rw [hnil] at hlong
      cases hlong
    rw [components_withoutSeparators_iff hne, hends]
    refine ⟨Or.inr, fun hredundant => hredundant.resolve_left fun hshort => ?_⟩
    rw [normalize_of_utf8ByteSize_le hshort] at hlong
    omega

/-- Normalizing twice is normalizing once, and only the root ends in a slash. The components are those
of the text in composed form exactly when the end that is taken off is redundant. -/
theorem normalizeText_exact :
    normalizeText (normalizeText text) = normalizeText text ∧
      (normalizeText text = "/" ∨ (normalizeText text).toList.getLast? ≠ some '/') ∧
      ((ofText (normalizeText text)).components =
        (ofText text).components.map Component.normalized ↔ HasRedundantEnd text) :=
  ⟨normalizeText_normalizeText text, normalizeText_eq_slash_or text,
    components_normalizeText_iff text⟩

end NormalText

/-- The name `a\` becomes `a`, and two slashes are no longer the root. -/
theorem normalizeText_lostEnds :
    normalizeText "/a\\" = "/a" ∧ normalizeText "//" = "" ∧
      (ofText (normalizeText "/a\\")).components ≠
        (ofText "/a\\").components.map Component.normalized ∧
      (ofText (normalizeText "//")).components ≠
        (ofText "//").components.map Component.normalized := by
  have hname : normalizeText "/a\\" = "/a" := by cbv
  have hroot : normalizeText "//" = "" := by cbv
  have hnameKept : (ofText "/a\\").components.map Component.normalized =
      [.root, .name [97, 92]] := by cbv
  have hrootKept : (ofText "//").components.map Component.normalized = [.root] := by cbv
  rw [hname, hroot, hnameKept, hrootKept]
  exact ⟨rfl, rfl, by decide, by decide⟩

end MerkleDir.Path
