import Mathlib
import MerkleDir.Proofs.FileSystem.PathSegments
import MerkleDir.Proofs.Nfc.NormalForm
import MerkleDir.Proofs.Text.Utf8

namespace MerkleDir

open Nfc (codePoints normalForm pathMarks)
open MerkleDir.Path (slash dot)

section Names

variable {name : Bytes}

theorem codePoints_displayName (name : Bytes) :
    codePoints (displayName name) = normalForm (codePoints (Utf8.display name)) :=
  Nfc.codePoints_normalize _

theorem mem_codePoints_display_iff {x : UInt8} (hx : x < 0x80) :
    x.toNat ∈ codePoints (Utf8.display name) ↔ x ∈ name := by
  rw [← Utf8.mem_display_iff hx, codePoints, List.mem_map]
  constructor
  · rintro ⟨c, hc, h⟩
    rwa [← h, Char.ofNat_toNat]
  · exact fun h => ⟨_, h, Utf8.toNat_ofNat_byte x⟩

theorem slash_mem_encode_displayName_iff :
    slash ∈ Utf8.encode (displayName name) ↔ slash ∈ name := by
  have hslash : slash < 0x80 := by decide
  have hmark : slash.toNat ∈ pathMarks := by decide
  rw [← mem_codePoints_display_iff hslash, Utf8.display_encode, codePoints_displayName,
    Nfc.mem_normalForm_iff hmark, mem_codePoints_display_iff hslash]

theorem encode_displayName_of_pathMarks (h : ∀ m ∈ codePoints (displayName name), m ∈ pathMarks) :
    Utf8.encode (displayName name) = name := by
  rw [codePoints_displayName] at h
  have hcodes := Nfc.normalForm_of_pathMarks h
  have hdisplay : displayName name = Utf8.display name :=
    Nfc.codePoints_injective ((codePoints_displayName name).trans hcodes)
  rw [hdisplay]
  refine Utf8.encode_display fun c hc => ?_
  have hmem : c.toNat ∈ normalForm (codePoints (Utf8.display name)) := by
    rw [hcodes]
    exact List.mem_map_of_mem hc
  exact Nfc.lt_of_mem_pathMarks (h c.toNat hmem)

theorem encode_displayName_eq_iff {text : String} (h : ∀ m ∈ codePoints text, m ∈ pathMarks) :
    Utf8.encode (displayName name) = Utf8.encode text ↔ name = Utf8.encode text := by
  constructor
  · intro heq
    obtain rfl := Utf8.encode_injective heq
    exact (encode_displayName_of_pathMarks h).symm
  · rintro rfl
    rw [displayName, Utf8.display_encode, (Nfc.normalize_eq_pathMarks_iff h).mpr rfl]

theorem encode_displayName_eq_nil_iff : Utf8.encode (displayName name) = [] ↔ name = [] :=
  @encode_displayName_eq_iff name "" nofun

theorem encode_displayName_eq_dot_iff : Utf8.encode (displayName name) = [dot] ↔ name = [dot] :=
  @encode_displayName_eq_iff name "." (by decide)

theorem encode_displayName_eq_dots_iff :
    Utf8.encode (displayName name) = [dot, dot] ↔ name = [dot, dot] :=
  @encode_displayName_eq_iff name ".." (by decide)

theorem isEntryName_encode_displayName_iff :
    Node.isEntryName (Utf8.encode (displayName name)) = true ↔ Node.isEntryName name = true := by
  rw [Node.isEntryName_iff, Node.isEntryName_iff, slash_mem_encode_displayName_iff, Ne,
    encode_displayName_eq_nil_iff, Ne, encode_displayName_eq_dot_iff, Ne,
    encode_displayName_eq_dots_iff]

theorem isEntryName_encode_displayName (h : Node.isEntryName name = true) :
    Node.isEntryName (Utf8.encode (displayName name)) = true :=
  isEntryName_encode_displayName_iff.mpr h

end Names

def pathText (names : List String) : String :=
  String.ofList (names.flatMap fun n => '/' :: n.toList)

theorem toList_display_append {name rest : Bytes} (h : rest = [] ∨ ∃ r, rest = slash :: r) :
    (Utf8.display (name ++ rest)).toList =
      (Utf8.display name).toList ++ (Utf8.display rest).toList := by
  have hslash : slash < 0x80 := by decide
  rcases h with rfl | ⟨r, rfl⟩
  · rw [List.append_nil, Utf8.display_eq [], Utf8.pieces, List.map_nil, List.append_nil]
  · rw [Utf8.display_append hslash, Utf8.display_ascii hslash]
    simp

theorem normalForm_append_slash {codes rest : List Nat} (h : rest = [] ∨ ∃ r, rest = 0x2F :: r) :
    normalForm (codes ++ rest) = normalForm codes ++ normalForm rest := by
  rcases h with rfl | ⟨r, rfl⟩
  · rw [List.append_nil]
    exact (List.append_nil _).symm
  · rw [Nfc.normalForm_append_pathMark (by decide), Nfc.normalForm_cons_pathMark (by decide)]

theorem flatMap_cons_cases {α : Type} (mark : α) (parts : List (List α)) :
    parts.flatMap (mark :: ·) = [] ∨ ∃ rest, parts.flatMap (mark :: ·) = mark :: rest := by
  cases parts with
  | nil => exact Or.inl rfl
  | cons part parts => exact Or.inr ⟨_, List.flatMap_cons⟩

theorem absolutePath_of_ne_nil {location : Location} (hne : location ≠ []) :
    FileSystem.absolutePath location = ⟨location.flatMap (slash :: ·)⟩ := by
  obtain ⟨name, names, rfl⟩ := List.exists_cons_of_ne_nil hne
  rfl

theorem toList_display_flatMap (names : List Bytes) :
    (Utf8.display (names.flatMap (slash :: ·))).toList =
      names.flatMap fun n => '/' :: (Utf8.display n).toList := by
  induction names with
  | nil => rw [List.flatMap_nil, List.flatMap_nil, Utf8.display_eq, Utf8.pieces, List.map_nil]
  | cons n names ih =>
    rw [List.flatMap_cons, List.flatMap_cons, List.cons_append, Utf8.display_ascii (by decide),
      toList_display_append (flatMap_cons_cases slash names), ih]
    rfl

theorem normalForm_flatMap (texts : List (List Nat)) :
    normalForm (texts.flatMap (0x2F :: ·)) = texts.flatMap fun x => 0x2F :: normalForm x := by
  induction texts with
  | nil => rfl
  | cons x texts ih =>
    rw [List.flatMap_cons, List.flatMap_cons, List.cons_append,
      Nfc.normalForm_cons_pathMark (by decide),
      normalForm_append_slash (flatMap_cons_cases 0x2F texts), ih]
    rfl

/-- An absolute path is displayed and normalized name by name. -/
theorem normalize_display_absolutePath {location : Location} (hne : location ≠ []) :
    Nfc.normalize (FileSystem.absolutePath location).display =
      pathText (location.map displayName) := by
  have hcodes : codePoints (Utf8.display (location.flatMap (slash :: ·))) =
      (location.map fun n => codePoints (Utf8.display n)).flatMap (0x2F :: ·) := by
    rw [codePoints, toList_display_flatMap, List.map_flatMap, List.flatMap_map]
    rfl
  apply Nfc.codePoints_injective
  rw [absolutePath_of_ne_nil hne, Nfc.codePoints_normalize, Path.display, hcodes,
    normalForm_flatMap, pathText, Nfc.codePoints_ofList, List.map_flatMap, List.flatMap_map,
    List.flatMap_map]
  refine List.flatMap_congr fun n _ => ?_
  rw [← codePoints_displayName]
  rfl

theorem ofText_pathText {names : List String} (hne : names ≠ []) :
    Path.ofText (pathText names) = FileSystem.absolutePath (names.map Utf8.encode) := by
  rw [absolutePath_of_ne_nil (List.map_eq_nil_iff.not.mpr hne), Path.ofText, pathText,
    Utf8.encode, String.toList_ofList, List.flatMap_assoc, List.flatMap_map]
  rfl

section End

variable {p : Char → Bool} {text marks : String} {c : Char}

def withoutEnd (p : Char → Bool) (text : String) : String :=
  String.ofList (text.toList.rdropWhile p)

theorem exists_eq_withoutEnd_append (p : Char → Bool) (text : String) :
    ∃ marks : String, (∀ c ∈ marks.toList, p c = true) ∧ text = withoutEnd p text ++ marks := by
  refine ⟨String.ofList (text.toList.rtakeWhile p), fun c hc => ?_, String.toList_injective ?_⟩
  · rw [String.toList_ofList] at hc
    exact List.mem_rtakeWhile_imp hc
  · rw [String.toList_append, withoutEnd, String.toList_ofList, String.toList_ofList,
      List.rdropWhile_append_rtakeWhile]

theorem eq_false_of_mem_getLast?_withoutEnd (h : c ∈ (withoutEnd p text).toList.getLast?) :
    p c = false := by
  rw [withoutEnd, String.toList_ofList] at h
  obtain ⟨hne, rfl⟩ := List.mem_getLast?_eq_getLast h
  exact Bool.eq_false_iff.mpr (List.rdropWhile_last_not p _ hne)

theorem withoutEnd_of_end (h : ∀ c ∈ text.toList.getLast?, p c = false) :
    withoutEnd p text = text := by
  have hlast (hne : text.toList ≠ []) : ¬ p (text.toList.getLast hne) = true :=
    Bool.eq_false_iff.mp (h _ (List.getLast_mem_getLast? hne))
  rw [withoutEnd, List.rdropWhile_eq_self_iff.mpr hlast, String.ofList_toList]

theorem withoutEnd_append (h : ∀ c ∈ marks.toList, p c = true) :
    withoutEnd p (text ++ marks) = withoutEnd p text := by
  rw [withoutEnd, withoutEnd, String.toList_append, List.rdropWhile, List.reverse_append,
    List.dropWhile_append_of_pos fun c hc => h c (List.mem_reverse.mp hc)]
  rfl

end End

def withoutSeparators (text : String) : String :=
  String.ofList (text.toList.reverse.dropWhile Path.isSeparator).reverse

theorem withoutSeparators_eq (text : String) :
    withoutSeparators text = withoutEnd Path.isSeparator text := rfl

theorem withoutSeparators_of_end {text : String}
    (h : ∀ c ∈ text.toList.getLast?, Path.isSeparator c = false) :
    withoutSeparators text = text :=
  withoutEnd_of_end h

theorem isSeparator_of_mem_getLast? {text : String} {c : Char}
    (h : c ∈ (withoutSeparators text).toList.getLast?) : Path.isSeparator c = false :=
  eq_false_of_mem_getLast?_withoutEnd h

theorem toList_withoutSeparators_append {chars : List Char} {name : String}
    (h : withoutSeparators name ≠ "") :
    withoutSeparators (String.ofList (chars ++ name.toList)) =
      String.ofList (chars ++ (withoutSeparators name).toList) := by
  have hne : name.toList.reverse.dropWhile Path.isSeparator ≠ [] := by
    intro hnil
    rw [withoutSeparators, hnil] at h
    exact h rfl
  rw [withoutSeparators, withoutSeparators, String.toList_ofList, String.toList_ofList,
    List.reverse_append, List.dropWhile_append, if_neg (by simpa using hne), List.reverse_append,
    List.reverse_reverse]

theorem length_le_utf8ByteSize (chars : List Char) :
    chars.length ≤ (String.ofList chars).utf8ByteSize := by
  induction chars with
  | nil => exact Nat.zero_le _
  | cons c chars ih =>
    have hc := c.utf8Size_pos
    rw [String.ofList_cons, String.utf8ByteSize_append, String.utf8ByteSize_singleton,
      List.length_cons]
    omega

theorem trimSeparators_pathText {before : List String} {name : String}
    (h : withoutSeparators name ≠ "") : Path.trimSeparators (pathText (before ++ [name])) =
      pathText (before ++ [withoutSeparators name]) := by
  have htext (name : String) : pathText (before ++ [name]) = String.ofList
      (before.flatMap (fun n => '/' :: n.toList) ++ ['/'] ++ name.toList) := by
    simp [pathText]
  have hname : name.toList ≠ [] := by
    intro hnil
    rw [withoutSeparators, hnil] at h
    exact h rfl
  have hsize : 1 < (pathText (before ++ [name])).utf8ByteSize := by
    rw [htext]
    refine lt_of_lt_of_le ?_ (length_le_utf8ByteSize _)
    have hlength := List.length_pos_of_ne_nil hname
    simp only [List.length_append, List.length_singleton]
    omega
  rw [Path.trimSeparators, if_pos hsize]
  show withoutSeparators _ = _
  rw [htext, htext, toList_withoutSeparators_append h]

/-- What is left of the path is the path of a directory of what is left of the last name. -/
theorem ofText_normalizeText_absolutePath {before : Location} {name : Bytes}
    (h : withoutSeparators (displayName name) ≠ "") :
    Path.ofText (Path.normalizeText (FileSystem.absolutePath (before ++ [name])).display) =
      FileSystem.absolutePath (before.map (fun n => Utf8.encode (displayName n)) ++
        [Utf8.encode (withoutSeparators (displayName name))]) := by
  rw [Path.normalizeText, normalize_display_absolutePath (List.append_ne_nil_of_right_ne_nil _
    (List.cons_ne_nil _ _)), List.map_append, List.map_singleton, trimSeparators_pathText h,
    ofText_pathText (List.append_ne_nil_of_right_ne_nil _ (List.cons_ne_nil _ _)),
    List.map_append, List.map_map, List.map_singleton]
  rfl

theorem fileName?_absolutePath {before : Location} {name : Bytes}
    (h : ∀ n ∈ before ++ [name], Node.isEntryName n = true) :
    (FileSystem.absolutePath (before ++ [name])).fileName? = some name := by
  rw [Path.fileName?, FileSystem.components_absolutePath h, List.map_append, List.map_singleton,
    ← List.cons_append, List.getLast?_concat]

end MerkleDir
