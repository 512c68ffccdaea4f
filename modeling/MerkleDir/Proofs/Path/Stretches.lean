import MerkleDir.Proofs.Path.Display

/-!
# Components by the stretches between slashes

What the components of a path are can be read off the stretches between its slashes. Text is
normalized stretch by stretch, so its components are normalized one by one. Slashes at the end of a
path mean nothing after anything else, while its backslashes are all kept in its names.
-/
namespace MerkleDir.Path

/-- An empty stretch before a slash is the root, and a first stretch of one dot is kept. -/
def leadOf : List Bytes → List Component
  | [] => []
  | first :: others =>
    if first = [] ∧ others ≠ [] then [.root] else if first = [dot] then [.current] else []

def componentsOf (stretches : List Bytes) : List Component :=
  leadOf stretches ++ stretches.filterMap segmentComponent?

theorem splitSlash_cons_of_ne {b : UInt8} (hb : b ≠ slash) (rest : Bytes) :
    ∃ first others, splitSlash rest = first :: others ∧
      splitSlash (b :: rest) = (b :: first) :: others ∧
      (first = [] ↔ rest = [] ∨ rest.head? = some slash) := by
  obtain ⟨first, others, hrest⟩ := List.exists_cons_of_ne_nil (splitSlash_ne_nil rest)
  refine ⟨first, others, hrest, by rw [splitSlash, if_neg hb, hrest], ?_⟩
  cases rest with
  | nil =>
    obtain ⟨rfl, -⟩ := List.cons.inj hrest
    simp
  | cons c rest =>
    rw [splitSlash] at hrest
    obtain ⟨next, more, hnext⟩ := List.exists_cons_of_ne_nil (splitSlash_ne_nil rest)
    rw [hnext] at hrest
    split_ifs at hrest with hc
    · obtain ⟨rfl, -⟩ := List.cons.inj hrest
      simp [hc]
    · obtain ⟨rfl, -⟩ := List.cons.inj hrest
      simp [hc]

theorem components_eq_componentsOf (p : Path) :
    p.components = componentsOf (splitSlash p.bytes) := by
  obtain ⟨bytes⟩ := p
  cases bytes with
  | nil => rfl
  | cons b rest =>
    rcases eq_or_ne b slash with rfl | hb
    · have hsplit : splitSlash (slash :: rest) = [] :: splitSlash rest := by
        rw [splitSlash, if_pos rfl]
      rw [hsplit, componentsOf, leadOf, if_pos ⟨rfl, splitSlash_ne_nil rest⟩]
      rfl
    · obtain ⟨first, others, hrest, hsplit, hfirst⟩ := splitSlash_cons_of_ne hb rest
      have hhead : head ⟨b :: rest⟩ = if b :: first = [dot] then [dot] else [] := by
        simp only [head, if_neg hb, ← hfirst, List.cons.injEq]
      rw [hsplit, componentsOf, leadOf, if_neg (by simp), components, segments, hhead]
      split_ifs with hdot
      · obtain ⟨rfl, rfl⟩ := List.cons.inj hdot
        simp only [List.length_singleton, List.drop_one, List.tail_cons, hrest]
        rfl
      · rw [List.length_nil, List.drop_zero]
        simp only [hsplit]
        rfl

def Component.normalized : Component → Component
  | .name n => .name (Utf8.encode (displayName n))
  | c => c

theorem displayName_append_slash (a b : Bytes) :
    displayName (a ++ slash :: b) = displayName a ++ "/" ++ displayName b := by
  have hcodes : Nfc.codePoints (Utf8.display (a ++ slash :: b)) =
      Nfc.codePoints (Utf8.display a) ++ 0x2F :: Nfc.codePoints (Utf8.display b) := by
    rw [Nfc.codePoints, Utf8.display_append (by decide)]
    simp [Nfc.codePoints]
    rfl
  apply Nfc.codePoints_injective
  rw [codePoints_displayName, hcodes, Nfc.normalForm_append_pathMark (by decide),
    ← codePoints_displayName, ← codePoints_displayName]
  simp [Nfc.codePoints]

/-- Bytes are displayed stretch by stretch. -/
theorem splitSlash_encode_displayName (bytes : Bytes) :
    splitSlash (Utf8.encode (displayName bytes)) =
      (splitSlash bytes).map fun s => Utf8.encode (displayName s) := by
  have hjoined (stretches : List Bytes) (hne : stretches ≠ []) (h : ∀ s ∈ stretches, slash ∉ s) :
      splitSlash (Utf8.encode (displayName (joinSlash stretches))) =
        stretches.map fun s => Utf8.encode (displayName s) := by
    induction stretches with
    | nil => exact absurd rfl hne
    | cons s stretches ih =>
      obtain ⟨hs, hstretches⟩ := List.forall_mem_cons.mp h
      have hfirst := splitSlash_of_notMem (slash_mem_encode_displayName_iff.not.mpr hs)
      rcases eq_or_ne stretches [] with rfl | hrest
      · rwa [joinSlash, List.intercalate_singleton]
      · rw [joinSlash_cons s hrest, displayName_append_slash, Utf8.encode_append,
          Utf8.encode_append, encode_slash, List.append_assoc, List.singleton_append,
          splitSlash_append, hfirst, ih hrest hstretches]
        rfl
  have h := hjoined (splitSlash bytes) (splitSlash_ne_nil bytes) fun s hs =>
    notMem_of_mem_splitSlash hs
  rwa [joinSlash_splitSlash] at h

theorem segmentComponent?_encode_displayName {s : Bytes} (h : slash ∉ s) :
    segmentComponent? (Utf8.encode (displayName s)) =
      (segmentComponent? s).map Component.normalized := by
  rcases eq_or_ne s [] with rfl | hnil
  · rw [encode_displayName_eq_nil_iff.mpr rfl]
    rfl
  rcases eq_or_ne s [dot] with rfl | hdot
  · rw [encode_displayName_eq_dot_iff.mpr rfl]
    rfl
  rcases eq_or_ne s [dot, dot] with rfl | hdots
  · rw [encode_displayName_eq_dots_iff.mpr rfl]
    rfl
  have hname := Node.isEntryName_iff.mpr ⟨hnil, h, hdot, hdots⟩
  rw [segmentComponent?_entryName (isEntryName_encode_displayName hname),
    segmentComponent?_entryName hname]
  rfl

theorem componentsOf_map_encode_displayName {stretches : List Bytes}
    (h : ∀ s ∈ stretches, slash ∉ s) :
    componentsOf (stretches.map fun s => Utf8.encode (displayName s)) =
      (componentsOf stretches).map Component.normalized := by
  have hlead : leadOf (stretches.map fun s => Utf8.encode (displayName s)) =
      (leadOf stretches).map Component.normalized := by
    cases stretches with
    | nil => rfl
    | cons first others =>
      simp only [List.map_cons, leadOf, encode_displayName_eq_nil_iff,
        encode_displayName_eq_dot_iff, ne_eq, List.map_eq_nil_iff]
      split_ifs <;> rfl
  have hnames : (stretches.map fun s => Utf8.encode (displayName s)).filterMap segmentComponent? =
      (stretches.filterMap segmentComponent?).map Component.normalized := by
    rw [List.filterMap_map, List.map_filterMap]
    refine List.filterMap_congr fun s hs => ?_
    rw [Function.comp_apply, segmentComponent?_encode_displayName (h s hs)]
  rw [componentsOf, componentsOf, hlead, hnames, List.map_append]

theorem bytes_ofText (text : String) : (ofText text).bytes = Utf8.encode text := rfl

/-- Text is normalized component by component. -/
theorem components_ofText_normalize (text : String) :
    (ofText (Nfc.normalize text)).components =
      (ofText text).components.map Component.normalized := by
  have hdisplay : Nfc.normalize text = displayName (Utf8.encode text) := by
    rw [displayName, Utf8.display_encode]
  rw [components_eq_componentsOf, components_eq_componentsOf, bytes_ofText, bytes_ofText, hdisplay,
    splitSlash_encode_displayName]
  exact componentsOf_map_encode_displayName fun s hs => notMem_of_mem_splitSlash hs

theorem components_append_slashes {a : Bytes} (ha : a ≠ []) (n : Nat) :
    components ⟨a ++ List.replicate n slash⟩ = components ⟨a⟩ := by
  induction n with
  | zero => rw [List.replicate_zero, List.append_nil]
  | succ n ih =>
    have hne : a ++ List.replicate n slash ≠ [] := List.append_ne_nil_of_left_ne_nil ha _
    rw [List.replicate_succ', ← List.append_assoc, components, head_append hne,
      segments_append hne, List.filterMap_append]
    exact (congrArg _ (List.append_nil _)).trans ih

def backslash : UInt8 := 92

def Component.backslashes : Component → Nat
  | .name n => n.count backslash
  | _ => 0

theorem sum_backslashes_segmentComponent? (s : Bytes) :
    ((segmentComponent? s).toList.map Component.backslashes).sum = s.count backslash := by
  rw [segmentComponent?]
  split_ifs with hredundant hparent
  · rcases isRedundant_iff.mp hredundant with rfl | rfl <;> rfl
  · rw [hparent]
    rfl
  · exact Nat.add_zero _

theorem sum_count_splitSlash (bytes : Bytes) :
    ((splitSlash bytes).map (·.count backslash)).sum = bytes.count backslash := by
  induction bytes with
  | nil => rfl
  | cons b bytes ih =>
    obtain ⟨first, others, hsplit⟩ := List.exists_cons_of_ne_nil (splitSlash_ne_nil bytes)
    rw [hsplit, List.map_cons, List.sum_cons] at ih
    rw [splitSlash, hsplit]
    split_ifs with hb
    · rw [hb, List.count_cons_of_ne (by decide), ← ih]
      simp
    · rw [List.map_cons, List.sum_cons, List.count_cons, List.count_cons, ← ih]
      omega

theorem sum_backslashes_components (p : Path) :
    (p.components.map Component.backslashes).sum = p.bytes.count backslash := by
  have hlead (stretches : List Bytes) :
      ((leadOf stretches).map Component.backslashes).sum = 0 := by
    cases stretches with
    | nil => rfl
    | cons first others =>
      rw [leadOf]
      split_ifs <;> rfl
  have hnames (stretches : List Bytes) :
      ((stretches.filterMap segmentComponent?).map Component.backslashes).sum =
        (stretches.map (·.count backslash)).sum := by
    induction stretches with
    | nil => rfl
    | cons s stretches ih =>
      rw [List.map_cons, List.sum_cons, ← ih, ← sum_backslashes_segmentComponent? s,
        List.filterMap_cons]
      cases segmentComponent? s <;> simp
  rw [components_eq_componentsOf, componentsOf, List.map_append, List.sum_append, hlead, hnames,
    sum_count_splitSlash, Nat.zero_add]

end MerkleDir.Path
