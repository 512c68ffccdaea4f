import MerkleDir.Proofs.Path.Parent

namespace MerkleDir.FileSystem

open MerkleDir.Path (slash dot splitSlash)

theorem pathSegments_append (a b : Bytes) :
    pathSegments (a ++ slash :: b) = pathSegments a ++ pathSegments b := by
  rw [pathSegments, Path.splitSlash_append, List.filter_append]
  rfl

theorem pathSegments_of_notMem {name : Bytes} (hne : name ≠ []) (h : slash ∉ name) :
    pathSegments name = [name] := by
  rw [pathSegments, Path.splitSlash_of_notMem h]
  simp [hne]

theorem notMem_of_mem_pathSegments {bytes segment : Bytes} (h : segment ∈ pathSegments bytes) :
    segment ≠ [] ∧ slash ∉ segment := by
  obtain ⟨hmem, hne⟩ := List.mem_filter.mp h
  exact ⟨of_decide_eq_true hne, Path.notMem_of_mem_splitSlash hmem⟩

theorem pathSegments_ne_nil {bytes : Bytes} (hne : bytes ≠ [])
    (hstart : startsAtRoot bytes = false) : pathSegments bytes ≠ [] := by
  obtain ⟨b, rest, rfl⟩ := List.exists_cons_of_ne_nil hne
  obtain ⟨first, others, hsplit⟩ := List.exists_cons_of_ne_nil (Path.splitSlash_ne_nil rest)
  have hb : b ≠ slash := by simpa [startsAtRoot] using hstart
  simp [pathSegments, splitSlash, if_neg hb, hsplit]

theorem pathSegments_join (p : Path) {bytes : Bytes} (h : startsAtRoot bytes = false) :
    pathSegments (p.join bytes).bytes = pathSegments p.bytes ++ pathSegments bytes := by
  have hstart : bytes.head? ≠ some slash := by simpa [startsAtRoot] using h
  obtain ⟨start⟩ := p
  rcases eq_or_ne start [] with rfl | hne
  · rw [Path.join, if_pos (Or.inr rfl)]
    rfl
  · rw [Path.join, if_neg (not_or.mpr ⟨hstart, hne⟩)]
    split_ifs with hend
    · obtain ⟨a, rfl⟩ := List.getLast?_eq_some_iff.mp hend
      rw [List.append_assoc, List.singleton_append, pathSegments_append, pathSegments_append a []]
      exact congrArg (· ++ pathSegments bytes) (List.append_nil _).symm
    · exact pathSegments_append start bytes

theorem endsInSlash_join (p : Path) {bytes : Bytes} (hne : bytes ≠ []) :
    endsInSlash (p.join bytes).bytes = endsInSlash bytes := by
  obtain ⟨b, rest, rfl⟩ := List.exists_cons_of_ne_nil hne
  rw [Path.join]
  split_ifs <;> simp [endsInSlash]

/-- What a path has at its start is a segment of its own, or none. -/
theorem pathSegments_eq_append_segments (p : Path) :
    pathSegments p.bytes = pathSegments p.head ++ p.segments.filter (· ≠ []) := by
  rw [Path.segments]
  rcases Path.head_cases p with ⟨hhead, rest, hp⟩ | ⟨hhead, rest, hp, rfl | hrest⟩ | hhead
  · rw [hhead, hp]
    exact pathSegments_append [] rest
  · rw [hhead, hp]
    rfl
  · obtain ⟨tail, rfl⟩ := List.head?_eq_some_iff.mp hrest
    rw [hhead, hp]
    exact (pathSegments_append [dot] tail).trans
      (congrArg (pathSegments [dot] ++ ·) (pathSegments_append [] tail))
  · rw [hhead]
    rfl

theorem exists_pathSegments_trimmed_append (p : Path) :
    ∃ dots, (∀ s ∈ dots, s = [dot]) ∧
      pathSegments p.bytes = pathSegments p.trimmed.bytes ++ dots := by
  obtain ⟨dropped, hsegments, hdropped⟩ := Path.exists_dropRedundantEnd_append p.segments
  have hkept : p.trimmed.segments.filter (· ≠ []) =
      (Path.dropRedundantEnd p.segments).filter (· ≠ []) := by
    rcases Path.segments_trimmed_cases p with h | ⟨hnil, h⟩
    · rw [h]
    · rw [hnil, h]
      rfl
  refine ⟨dropped.filter (· ≠ []), fun s hs => ?_, ?_⟩
  · obtain ⟨hmem, hne⟩ := List.mem_filter.mp hs
    exact (Path.isRedundant_iff.mp (hdropped s hmem)).resolve_left (of_decide_eq_true hne)
  · rw [pathSegments_eq_append_segments p, pathSegments_eq_append_segments p.trimmed,
      Path.head_trimmed, hkept, List.append_assoc, ← List.filter_append, ← hsegments]

theorem exists_split_at_last_slash (bytes : Bytes) :
    slash ∉ bytes ∨ ∃ before name, bytes = before ++ slash :: name ∧ slash ∉ name := by
  induction bytes using List.reverseRecOn with
  | nil => exact Or.inl List.not_mem_nil
  | append_singleton bytes b ih =>
    rcases eq_or_ne b slash with rfl | hb
    · exact Or.inr ⟨bytes, [], rfl, List.not_mem_nil⟩
    · rcases ih with h | ⟨before, name, rfl, h⟩
      · exact Or.inl (by simp [h, hb.symm])
      · exact Or.inr ⟨before, name ++ [b], by simp, by simp [h, hb.symm]⟩

/-- A path that does not end in a slash is its last segment joined to the rest. -/
theorem exists_join_of_pathSegments {p : Path} {before : List Bytes} {name : Bytes}
    (hsegments : pathSegments p.bytes = before ++ [name]) (hend : endsInSlash p.bytes = false) :
    ∃ start : Path, p = start.join name ∧ pathSegments start.bytes = before := by
  obtain ⟨bytes⟩ := p
  have hmem : name ∈ pathSegments bytes := by simp [hsegments]
  obtain ⟨hne, hslash⟩ := notMem_of_mem_pathSegments hmem
  rcases exists_split_at_last_slash bytes with h | ⟨a, last, rfl, h⟩
  · have hbytes : bytes ≠ [] := by
      rintro rfl
      cases hmem
    rw [pathSegments_of_notMem hbytes h] at hsegments
    obtain ⟨rfl, hname⟩ := List.append_inj' ((List.nil_append _).trans hsegments) rfl
    obtain rfl := (List.cons.inj hname).1
    exact ⟨⟨[]⟩, by rw [Path.join, if_pos (Or.inr rfl)], rfl⟩
  · have hlast : last ≠ [] := by
      rintro rfl
      simp [endsInSlash] at hend
    rw [pathSegments_append, pathSegments_of_notMem hlast h] at hsegments
    obtain ⟨rfl, hname⟩ := List.append_inj' hsegments rfl
    obtain rfl := (List.cons.inj hname).1
    refine ⟨⟨a ++ [slash]⟩, ?_, ?_⟩
    · have hhead : last.head? ≠ some slash := fun hs => hslash (List.mem_of_head? hs)
      simp [Path.join, hhead]
    · exact (pathSegments_append a []).trans (List.append_nil _)

theorem splitSlash_append_flatMap {name : Bytes} {names : List Bytes} (hname : slash ∉ name)
    (hnames : ∀ n ∈ names, slash ∉ n) :
    splitSlash (name ++ names.flatMap (slash :: ·)) = name :: names := by
  induction names generalizing name with
  | nil => rw [List.flatMap_nil, List.append_nil, Path.splitSlash_of_notMem hname]
  | cons next names ih =>
    rw [List.flatMap_cons, List.cons_append, Path.splitSlash_append,
      Path.splitSlash_of_notMem hname, ih (hnames next List.mem_cons_self) fun n hn =>
        hnames n (List.mem_cons_of_mem next hn)]
    rfl

theorem components_absolutePath {location : Location}
    (h : ∀ name ∈ location, Node.isEntryName name = true) :
    (absolutePath location).components = .root :: location.map .name := by
  have hslash : ∀ name ∈ location, slash ∉ name :=
    fun name hname => (Node.isEntryName_iff.mp (h name hname)).2.1
  have hcomponents : location.filterMap Path.segmentComponent? = location.map .name := by
    rw [← List.filterMap_eq_map]
    exact List.filterMap_congr fun name hname => Path.segmentComponent?_entryName (h name hname)
  cases location with
  | nil => rfl
  | cons name names =>
    have hsegments : (absolutePath (name :: names)).segments = name :: names :=
      splitSlash_append_flatMap (hslash name List.mem_cons_self) fun n hn =>
        hslash n (List.mem_cons_of_mem name hn)
    rw [Path.components, hsegments, hcomponents]
    rfl

end MerkleDir.FileSystem
