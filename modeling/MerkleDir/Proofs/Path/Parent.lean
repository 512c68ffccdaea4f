import MerkleDir.Proofs.Path.Segments

/-!
# The parent of an entry

The parent of an entry of a directory is the directory, less what is redundant at the end of its
path. The two have the same components, so what is left of the parent relative to a directory further
up are the names that lead from there.
-/
namespace MerkleDir.Path

theorem isRedundant_iff {segment : Bytes} :
    isRedundant segment = true ↔ segment = [] ∨ segment = [dot] := by
  simp [isRedundant]

theorem isRedundant_entryName {name : Bytes} (h : Node.isEntryName name = true) :
    isRedundant name = false := by
  obtain ⟨hne, -, hdot, -⟩ := Node.isEntryName_iff.mp h
  simp [isRedundant, hne, hdot]

theorem segmentComponent?_entryName {name : Bytes} (h : Node.isEntryName name = true) :
    segmentComponent? name = some (.name name) := by
  rw [segmentComponent?, isRedundant_entryName h, if_neg Bool.false_ne_true,
    if_neg (Node.isEntryName_iff.mp h).2.2.2]

theorem filterMap_redundant (segments : List Bytes) (h : ∀ s ∈ segments, isRedundant s = true) :
    segments.filterMap segmentComponent? = [] :=
  List.filterMap_eq_nil_iff.mpr fun s hs => by rw [segmentComponent?, if_pos (h s hs)]

theorem dropRedundantEnd_append_redundant (segments : List Bytes) {s : Bytes}
    (h : isRedundant s = true) :
    dropRedundantEnd (segments ++ [s]) = dropRedundantEnd segments := by
  simp [dropRedundantEnd, h]

theorem dropRedundantEnd_append_name (segments : List Bytes) {s : Bytes}
    (h : isRedundant s = false) : dropRedundantEnd (segments ++ [s]) = segments ++ [s] := by
  simp [dropRedundantEnd, h]

theorem exists_dropRedundantEnd_append (segments : List Bytes) :
    ∃ dropped, segments = dropRedundantEnd segments ++ dropped ∧
      ∀ s ∈ dropped, isRedundant s = true := by
  induction segments using List.reverseRecOn with
  | nil => exact ⟨[], rfl, by simp⟩
  | append_singleton segments s ih =>
    cases hs : isRedundant s with
    | false => exact ⟨[], by rw [dropRedundantEnd_append_name _ hs, List.append_nil], by simp⟩
    | true =>
      obtain ⟨dropped, heq, hall⟩ := ih
      refine ⟨dropped ++ [s], ?_, fun t ht => ?_⟩
      · rw [dropRedundantEnd_append_redundant _ hs, ← List.append_assoc, ← heq]
      · rcases List.mem_append.mp ht with ht | ht
        · exact hall t ht
        · rwa [List.mem_singleton.mp ht]

/-- The path without redundant segments at its end. -/
def trimmed (p : Path) : Path := ⟨p.head ++ joinSlash (dropRedundantEnd p.segments)⟩

theorem parent?_join (p : Path) {name : Bytes} (h : Node.isEntryName name = true) :
    (p.join name).parent? = some p.trimmed := by
  obtain ⟨hhead, before, hsegments, hp⟩ := segments_join p h
  have hbefore : dropRedundantEnd p.segments = dropRedundantEnd before := by
    rcases hp with hp | hp
    · rw [hp]
    · rw [hp, dropRedundantEnd_append_redundant before rfl]
  rw [parent?, hsegments, dropRedundantEnd_append_name before (isRedundant_entryName h),
    List.reverse_append, List.reverse_singleton, List.singleton_append, hhead]
  simp only [List.reverse_reverse, trimmed, hbefore]

theorem components_join (p : Path) {name : Bytes} (h : Node.isEntryName name = true) :
    (p.join name).components = p.components ++ [.name name] := by
  obtain ⟨hhead, before, hsegments, hp⟩ := segments_join p h
  have hbefore : p.segments.filterMap segmentComponent? =
      before.filterMap segmentComponent? := by
    rcases hp with hp | hp
    · rw [hp]
    · rw [hp, List.filterMap_append, filterMap_redundant [[]] (by simp [isRedundant]),
        List.append_nil]
  rw [components, components, hhead, hsegments, List.filterMap_append, hbefore,
    List.filterMap_cons_some (segmentComponent?_entryName h), List.filterMap_nil, List.append_assoc]

theorem fileName?_join (p : Path) {name : Bytes} (h : Node.isEntryName name = true) :
    (p.join name).fileName? = some name := by
  rw [fileName?, components_join p h, List.getLast?_concat]

theorem head_cases (p : Path) :
    (p.head = [slash] ∧ ∃ rest, p.bytes = slash :: rest) ∨
      (p.head = [dot] ∧ ∃ rest, p.bytes = dot :: rest ∧ (rest = [] ∨ rest.head? = some slash)) ∨
      p.head = [] := by
  obtain ⟨bytes⟩ := p
  cases bytes with
  | nil => exact Or.inr (Or.inr rfl)
  | cons x rest =>
    simp only [head]
    split_ifs with hslash hdot
    · exact Or.inl ⟨rfl, rest, by rw [hslash]⟩
    · exact Or.inr (Or.inl ⟨rfl, rest, by rw [hdot.1], hdot.2⟩)
    · exact Or.inr (Or.inr rfl)

theorem joinSlash_cons (s : Bytes) {rest : List Bytes} (h : rest ≠ []) :
    joinSlash (s :: rest) = s ++ slash :: joinSlash rest := by
  rw [joinSlash, List.intercalate_cons_of_ne_nil h, List.append_assoc, List.singleton_append]
  rfl

theorem head_joinSlash {s : Bytes} (hs : s ≠ []) (rest : List Bytes) :
    head ⟨joinSlash (s :: rest)⟩ = head ⟨s⟩ := by
  rcases eq_or_ne rest [] with rfl | h
  · rw [joinSlash, List.intercalate_singleton]
  · rw [joinSlash_cons s h, head_append hs]

theorem joinSlash_splitSlash (bytes : Bytes) : joinSlash (splitSlash bytes) = bytes := by
  induction bytes with
  | nil => rfl
  | cons x bytes ih =>
    obtain ⟨first, others, hb⟩ := List.exists_cons_of_ne_nil (splitSlash_ne_nil bytes)
    rw [splitSlash, hb]
    rw [hb] at ih
    split_ifs with hx
    · rw [joinSlash_cons [] (List.cons_ne_nil first others), ih, hx, List.nil_append]
    · rcases eq_or_ne others [] with rfl | h
      · simpa [joinSlash] using ih
      · rw [joinSlash_cons _ h, List.cons_append, ← joinSlash_cons _ h, ih]

theorem dropRedundantEnd_ne_singleton (segments : List Bytes) :
    dropRedundantEnd segments ≠ [[]] := by
  induction segments using List.reverseRecOn with
  | nil => exact List.cons_ne_nil _ _ ∘ Eq.symm
  | append_singleton segments s ih =>
    cases hs : isRedundant s with
    | true => rwa [dropRedundantEnd_append_redundant _ hs]
    | false =>
      rw [dropRedundantEnd_append_name _ hs]
      intro h
      obtain ⟨-, h⟩ := List.append_inj' (h.trans (List.nil_append [[]]).symm) rfl
      rw [(List.cons.inj h).1] at hs
      exact absurd hs (by decide)

theorem head_trimmed (p : Path) : p.trimmed.head = p.head := by
  obtain ⟨dropped, hsegments, -⟩ := exists_dropRedundantEnd_append p.segments
  have hend := dropRedundantEnd_ne_singleton p.segments
  rw [trimmed]
  generalize dropRedundantEnd p.segments = kept at hsegments hend
  rcases head_cases p with ⟨hhead, -⟩ | ⟨hhead, rest, hp, hrest⟩ | hhead
  · rw [hhead]
    rfl
  · have hfirst : p.segments.head? = some [] := by
      rw [segments, hhead, hp]
      rcases hrest with rfl | hrest
      · rfl
      · obtain ⟨rest, rfl⟩ := List.head?_eq_some_iff.mp hrest
        simp [splitSlash]
    rw [hhead]
    cases kept with
    | nil => rfl
    | cons d kept =>
      rw [hsegments, List.cons_append, List.head?_cons, Option.some_inj] at hfirst
      subst hfirst
      have hkept : kept ≠ [] := fun h => hend (by rw [h])
      rw [joinSlash_cons [] hkept]
      simp [head, dot, slash]
  · have hbytes : p.segments = splitSlash p.bytes := by
      rw [segments, hhead]
      rfl
    rw [hhead, List.nil_append]
    cases kept with
    | nil => rfl
    | cons d kept =>
      have hp : p = ⟨joinSlash (d :: (kept ++ dropped))⟩ := by
        rw [← List.cons_append, ← hsegments, hbytes, joinSlash_splitSlash]
      rcases eq_or_ne d [] with rfl | hd
      · have hkept : kept ++ dropped ≠ [] := by
          intro h
          exact hend (by rw [(List.append_eq_nil_iff.mp h).1])
        rw [hp, joinSlash_cons [] hkept] at hhead
        exact absurd hhead (by simp [head])
      · rw [head_joinSlash hd, ← head_joinSlash hd (kept ++ dropped), ← hp, hhead]

theorem segments_trimmed (p : Path) :
    p.trimmed.segments = splitSlash (joinSlash (dropRedundantEnd p.segments)) := by
  rw [segments, head_trimmed, trimmed, List.drop_left]

/-- Only empty segments can be put in place of none. -/
theorem segments_trimmed_cases (p : Path) :
    p.trimmed.segments = dropRedundantEnd p.segments ∨
      dropRedundantEnd p.segments = [] ∧ p.trimmed.segments = [[]] := by
  rw [segments_trimmed]
  obtain ⟨dropped, hsegments, -⟩ := exists_dropRedundantEnd_append p.segments
  rcases eq_or_ne (dropRedundantEnd p.segments) [] with h | h
  · rw [h]
    exact Or.inr ⟨rfl, rfl⟩
  · refine Or.inl (splitSlash_joinSlash h fun s hs => ?_)
    have hmem : s ∈ p.segments := by
      rw [hsegments]
      exact List.mem_append_left _ hs
    exact notMem_of_mem_splitSlash hmem

theorem components_trimmed (p : Path) : p.trimmed.components = p.components := by
  obtain ⟨dropped, hsegments, hdropped⟩ := exists_dropRedundantEnd_append p.segments
  have hkept : p.segments.filterMap segmentComponent? =
      (dropRedundantEnd p.segments).filterMap segmentComponent? := by
    conv_lhs => rw [hsegments, List.filterMap_append, filterMap_redundant dropped hdropped,
      List.append_nil]
  rw [components, components, head_trimmed, hkept]
  rcases segments_trimmed_cases p with h | ⟨hnil, h⟩
  · rw [h]
  · rw [hnil, h]
    rfl

theorem components_foldl_join (p : Path) {names : List Bytes}
    (h : ∀ n ∈ names, Node.isEntryName n = true) :
    (names.foldl join p).components = p.components ++ names.map .name := by
  induction names generalizing p with
  | nil => exact (List.append_nil _).symm
  | cons n names ih =>
    obtain ⟨hn, hnames⟩ := List.forall_mem_cons.mp h
    rw [List.foldl_cons, ih (p.join n) hnames, components_join p hn, List.append_assoc,
      List.singleton_append, List.map_cons]

theorem strip_append (start rest : List Component) :
    stripPrefix?.strip (start ++ rest) start = some rest := by
  induction start with
  | nil => rw [List.nil_append, stripPrefix?.strip]
  | cons c start ih => rw [List.cons_append, stripPrefix?.strip, if_pos rfl, ih]

/-- Between a root and an entry below it lie the names that were joined, however the root is
spelled. -/
theorem relativeParent_foldl_join (root : Path) {names : List Bytes} {name : Bytes}
    (hnames : ∀ n ∈ names, Node.isEntryName n = true) (hname : Node.isEntryName name = true) :
    relativeParent root ((names.foldl join root).join name) =
      "/" ++ String.join (names.map (displayName · ++ "/")) := by
  have hbetween : (names.map Component.name).filterMap Component.displayName? =
      names.map displayName := by
    rw [List.filterMap_map, ← List.filterMap_eq_map]
    rfl
  simp only [relativeParent, parent?_join _ hname, Option.getD_some, stripPrefix?,
    components_trimmed, components_foldl_join root hnames, strip_append, hbetween, List.map_map]
  rfl

theorem relativeParent_join (p : Path) {name : Bytes} (h : Node.isEntryName name = true) :
    relativeParent p (p.join name) = "/" :=
  @relativeParent_foldl_join p [] name nofun h

end MerkleDir.Path
