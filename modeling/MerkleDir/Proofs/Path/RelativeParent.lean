import MerkleDir.Proofs.Path.Display
import MerkleDir.Proofs.Path.Parent

namespace MerkleDir.Path

theorem isEntryName_of_segmentComponent? {segment name : Bytes} (hslash : slash ∉ segment)
    (h : segmentComponent? segment = some (.name name)) : Node.isEntryName name = true := by
  rw [segmentComponent?] at h
  split_ifs at h with hredundant hparent
  · cases h
  obtain rfl : segment = name := Component.name.inj (Option.some.inj h)
  obtain ⟨hnil, hdot⟩ := not_or.mp (isRedundant_iff.not.mp hredundant)
  exact Node.isEntryName_iff.mpr ⟨hnil, hslash, hdot, hparent⟩

theorem name_notMem_headComponents {head name : Bytes} : .name name ∉ headComponents head := by
  rw [headComponents]
  split_ifs <;> simp

theorem isEntryName_of_mem_components {p : Path} {name : Bytes} (h : .name name ∈ p.components) :
    Node.isEntryName name = true := by
  obtain ⟨segment, hsegment, hname⟩ := List.mem_filterMap.mp
    ((List.mem_append.mp h).resolve_left name_notMem_headComponents)
  exact isEntryName_of_segmentComponent? (notMem_of_mem_splitSlash hsegment) hname

theorem strip_isSuffix {components start rest : List Component}
    (h : stripPrefix?.strip components start = some rest) : rest <:+ components := by
  fun_induction stripPrefix?.strip components start with
  | case1 =>
    obtain rfl := Option.some.inj h
    exact List.suffix_rfl
  | case2 => cases h
  | case3 components c start ih => exact (ih h).trans (List.suffix_cons c components)
  | case4 => cases h

theorem splitSlash_relativeText (names : List String)
    (h : ∀ n ∈ names, slash ∉ Utf8.encode n) :
    splitSlash (Utf8.encode ("/" ++ String.join (names.map (· ++ "/")))) =
      [] :: names.map Utf8.encode ++ [[]] := by
  rw [Utf8.encode_append, encode_slash, List.singleton_append, splitSlash, if_pos rfl]
  congr 1
  induction names with
  | nil => rfl
  | cons n names ih =>
    obtain ⟨hn, hnames⟩ := List.forall_mem_cons.mp h
    rw [List.map_cons, String.join_cons, Utf8.encode_append, Utf8.encode_append, encode_slash,
      List.append_assoc, List.singleton_append, splitSlash_append, splitSlash_of_notMem hn,
      ih hnames]
    rfl

theorem exists_names_filterMap (components : List Component) : ∃ names : List Bytes,
    (∀ n ∈ names, .name n ∈ components) ∧
      components.filterMap Component.displayName? = names.map displayName := by
  induction components with
  | nil => exact ⟨[], List.forall_mem_nil _, rfl⟩
  | cons c components ih =>
    obtain ⟨names, hnames, hdisplay⟩ := ih
    have hbehind : ∀ n ∈ names, .name n ∈ c :: components :=
      fun n hn => List.mem_cons_of_mem c (hnames n hn)
    cases c with
    | name n =>
      refine ⟨n :: names, List.forall_mem_cons.mpr ⟨List.mem_cons_self, hbehind⟩, ?_⟩
      rw [List.map_cons, ← hdisplay]
      rfl
    | _ => exact ⟨names, hbehind, hdisplay⟩

theorem exists_names_relativeParent (root p : Path) : ∃ names : List Bytes,
    (∀ n ∈ names, Node.isEntryName n = true) ∧
      relativeParent root p = "/" ++ String.join ((names.map displayName).map (· ++ "/")) := by
  let parent := p.parent?.getD ⟨[]⟩
  let relative := (parent.stripPrefix? root).getD parent.components
  have hrelative : ∀ c ∈ relative, c ∈ parent.components := by
    intro c hc
    cases hstrip : parent.stripPrefix? root with
    | none => simpa only [relative, hstrip, Option.getD_none] using hc
    | some rest =>
      simp only [relative, hstrip, Option.getD_some] at hc
      exact (strip_isSuffix hstrip).subset hc
  obtain ⟨names, hnames, hdisplay⟩ := exists_names_filterMap relative
  refine ⟨names, fun n hn => isEntryName_of_mem_components (hrelative _ (hnames n hn)), ?_⟩
  rw [← hdisplay]
  rfl

/-- The parent of a path some names below a root is told by the display forms of these names, however
the root is spelled. Any relative parent starts and ends with a slash and has no empty segment. -/
theorem relativeParent_rendered :
    (∀ (root : Path) (names : List Bytes) (name : Bytes),
      (∀ n ∈ names, Node.isEntryName n = true) → Node.isEntryName name = true →
      relativeParent root ((names.foldl join root).join name) =
        "/" ++ String.join (names.map (displayName · ++ "/"))) ∧
    ∀ root p : Path, ∃ segments, [] ∉ segments ∧
      splitSlash (Utf8.encode (relativeParent root p)) = [] :: segments ++ [[]] := by
  refine ⟨fun root names name => relativeParent_foldl_join root, fun root p => ?_⟩
  obtain ⟨names, hnames, htext⟩ := exists_names_relativeParent root p
  have hdisplayed : ∀ n ∈ names, Node.isEntryName (Utf8.encode (displayName n)) = true :=
    fun n hn => isEntryName_encode_displayName (hnames n hn)
  refine ⟨(names.map displayName).map Utf8.encode, fun hmem => ?_, ?_⟩
  · obtain ⟨text, htext, hnil⟩ := List.mem_map.mp hmem
    obtain ⟨n, hn, rfl⟩ := List.mem_map.mp htext
    exact (Node.isEntryName_iff.mp (hdisplayed n hn)).1 hnil
  · rw [htext, splitSlash_relativeText]
    intro text htext
    obtain ⟨n, hn, rfl⟩ := List.mem_map.mp htext
    exact (Node.isEntryName_iff.mp (hdisplayed n hn)).2.1

/-- The root `./d/./` and the entry `f` two directories below it, the first of which is `é`. -/
theorem relativeParent_spelledRoot :
    (∀ n ∈ [[195, 169], [97]], Node.isEntryName n = true) ∧ Node.isEntryName [102] = true ∧
      relativeParent ⟨[46, 47, 100, 47, 46, 47]⟩
        (([[195, 169], [97]].foldl join ⟨[46, 47, 100, 47, 46, 47]⟩).join [102]) = "/é/a/" := by
  have hnames : ∀ n ∈ [[195, 169], [97]], Node.isEntryName n = true := by decide
  have hname : Node.isEntryName [102] = true := by decide
  exact ⟨hnames, hname, (relativeParent_rendered.1 _ _ _ hnames hname).trans (by cbv)⟩

end MerkleDir.Path
