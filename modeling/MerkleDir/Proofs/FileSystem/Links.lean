import MerkleDir.Proofs.FileSystem.Reached

/-!
# Chains of links

A path whose last segment is a link leads on to the target of that link. Whether the link is
followed or named, all else about the resolution is the same, so a chain of links can be resolved
link by link as well as in one go.
-/
namespace MerkleDir

theorem Node.exists_link {node : Node} (h : node.isLink = true) :
    ∃ modified target, node = .link modified target := by
  cases node with
  | link modified target => exact ⟨modified, target, rfl⟩
  | file => cases h
  | special => cases h
  | directory => cases h

namespace FileSystem

variable {fs : FileSystem}

instance (name : Bytes) : Decidable (IsLookedUp name) := inferInstanceAs (Decidable (_ ∧ _ ∧ _))

section Failures

variable {links : Nat} {here : Location} {name : Bytes} {rest : List Bytes} {last : LastSegment}

theorem resolveFrom_of_search_error {e : OsError} (h : fs.search here = .error e) :
    fs.resolveFrom links here (name :: rest) last = .error e := by
  rw [resolveFrom, h]

variable {directory : Node} (hsearch : fs.search here = .ok directory)

include hsearch

theorem resolveFrom_nameTooLong (hdot : name ≠ [Path.dot]) (hdots : name ≠ [Path.dot, Path.dot])
    (hlength : nameLimit < name.length) :
    fs.resolveFrom links here (name :: rest) last = .error .nameTooLong := by
  rw [resolveFrom, hsearch]
  simp only [if_neg hdot, if_neg hdots, if_pos hlength]

theorem resolveFrom_absent (hname : IsLookedUp name) (hchild : directory.child? name = none) :
    fs.resolveFrom links here (name :: rest) last =
      if rest = [] then .ok (.absent here name) else .error .notFound := by
  obtain ⟨hdot, hdots, hlength⟩ := hname
  rw [resolveFrom, hsearch]
  simp only [if_neg hdot, if_neg hdots, if_neg hlength.not_gt, hchild]

end Failures

/-- Either segments lead somewhere, or nothing that follows them is looked at. -/
theorem resolveFrom_append_cases (fs : FileSystem) (links : Nat) (here : Location)
    (before : List Bytes) :
    (∃ n ≤ links, ∃ middle, Leads fs here before n middle) ∨
      ∃ e, ∀ after ≠ [], ∀ last, fs.resolveFrom links here (before ++ after) last = .error e := by
  -- a link puts its target in place of a segment, and one link less is left
  induction links using Nat.strong_induction_on generalizing here before with
  | h links ihlinks =>
    induction before generalizing here with
    | nil => exact Or.inl ⟨0, Nat.zero_le links, here, .here here⟩
    | cons name before ih =>
      cases hsearch : fs.search here with
      | error e => exact Or.inr ⟨e, fun after _ last => resolveFrom_of_search_error hsearch⟩
      | ok directory =>
      by_cases hdot : name = [Path.dot]
      · subst hdot
        rcases ih here with ⟨n, hn, middle, hleads⟩ | ⟨e, he⟩
        · exact Or.inl ⟨n, hn, middle, .current hsearch hleads⟩
        · refine Or.inr ⟨e, fun after hafter last => ?_⟩
          rw [List.cons_append, resolveFrom_current hsearch, he after hafter]
      by_cases hdots : name = [Path.dot, Path.dot]
      · subst hdots
        rcases ih here.dropLast with ⟨n, hn, middle, hleads⟩ | ⟨e, he⟩
        · exact Or.inl ⟨n, hn, middle, .parent hsearch hleads⟩
        · refine Or.inr ⟨e, fun after hafter last => ?_⟩
          rw [List.cons_append, resolveFrom_parent hsearch, he after hafter]
      by_cases hlength : nameLimit < name.length
      · exact Or.inr ⟨.nameTooLong, fun after _ last =>
          resolveFrom_nameTooLong hsearch hdot hdots hlength⟩
      have hname : IsLookedUp name := ⟨hdot, hdots, Nat.not_lt.mp hlength⟩
      have hne {after : List Bytes} (hafter : after ≠ []) : before ++ after ≠ [] :=
        List.append_ne_nil_of_right_ne_nil _ hafter
      cases hchild : directory.child? name with
      | none =>
        refine Or.inr ⟨.notFound, fun after hafter last => ?_⟩
        rw [List.cons_append, resolveFrom_absent hsearch hname hchild, if_neg (hne hafter)]
      | some node =>
        cases hlink : node.isLink with
        | false =>
          rcases ih (here ++ [name]) with ⟨n, hn, middle, hleads⟩ | ⟨e, he⟩
          · exact Or.inl ⟨n, hn, middle, .entry hname hsearch hchild hlink hleads⟩
          · refine Or.inr ⟨e, fun after hafter last => ?_⟩
            rw [List.cons_append, resolveFrom_entry hname hsearch hchild hlink,
              if_neg (hne hafter), he after hafter]
        | true =>
          obtain ⟨modified, target, rfl⟩ := Node.exists_link hlink
          cases links with
          | zero =>
            refine Or.inr ⟨.tooManyLinks, fun after hafter last => ?_⟩
            rw [List.cons_append,
              resolveFrom_link_zero hname hsearch hchild fun h => hne hafter h.1]
          | succ links =>
            rcases ihlinks links (Nat.lt_succ_self links) (linkStart here target)
              (pathSegments target ++ before) with ⟨k, hk, middle, hleads⟩ | ⟨e, he⟩
            · obtain ⟨m, n, place, htarget, hbefore, rfl⟩ := hleads.exists_of_append
              exact Or.inl ⟨m + n + 1, Nat.succ_le_succ hk, middle,
                .link hname hsearch hchild htarget hbefore⟩
            · refine Or.inr ⟨e, fun after hafter last => ?_⟩
              rw [List.cons_append,
                resolveFrom_link_succ hname hsearch hchild fun h => hne hafter h.1,
                if_neg (hne hafter), ← List.append_assoc, he after hafter]

/-- The last of the segments is a link to `target`, in a directory to which the others lead over `n`
links. -/
inductive EndsInLink (fs : FileSystem) (here : Location) (segments : List Bytes) (n : Nat)
    (middle : Location) (name target : Bytes) : Prop
  | mk {before : List Bytes} {directory : Node} {modified : Timestamp}
      (hsegments : segments = before ++ [name]) (hbefore : Leads fs here before n middle)
      (hname : IsLookedUp name) (hsearch : fs.search middle = .ok directory)
      (hchild : directory.child? name = some (.link modified target))

namespace EndsInLink

variable {here middle : Location} {segments : List Bytes} {n : Nat} {name target : Bytes}

theorem resolveFrom_unfollowed (h : EndsInLink fs here segments n middle name target) {links : Nat}
    (hn : n ≤ links) :
    fs.resolveFrom links here segments ⟨false, false⟩ = .ok (.found (middle ++ [name])) := by
  obtain ⟨rfl, hbefore, hname, hsearch, hchild⟩ := h
  rw [resolveFrom_append hbefore (List.cons_ne_nil _ _), if_pos hn]
  exact resolveFrom_link_last hname hsearch hchild ⟨rfl, Bool.false_ne_true, Bool.false_ne_true⟩

theorem nodeAt? (h : EndsInLink fs here segments n middle name target) :
    ∃ modified, fs.nodeAt? (middle ++ [name]) = some (.link modified target) := by
  obtain ⟨-, -, -, hsearch, hchild⟩ := h
  exact ⟨_, (nodeAt?_append_singleton hsearch name).trans hchild⟩

end EndsInLink

/-- A last segment that is no link is resolved without links, and need not be followed. -/
theorem resolveFrom_singleton_cases (fs : FileSystem) (here : Location) (name : Bytes) :
    (∃ target, EndsInLink fs here [name] 0 here name target) ∨
      ∀ links more follow directory,
        fs.resolveFrom more here [name] ⟨false, directory⟩ =
          fs.resolveFrom links here [name] ⟨follow, directory⟩ := by
  cases hsearch : fs.search here with
  | error e =>
    refine Or.inr fun links more follow directory => ?_
    rw [resolveFrom_of_search_error hsearch, resolveFrom_of_search_error hsearch]
  | ok directory =>
    by_cases hdot : name = [Path.dot]
    · subst hdot
      refine Or.inr fun links more follow directory => ?_
      rw [resolveFrom_current hsearch, resolveFrom_current hsearch, resolveFrom, resolveFrom]
    by_cases hdots : name = [Path.dot, Path.dot]
    · subst hdots
      refine Or.inr fun links more follow directory => ?_
      rw [resolveFrom_parent hsearch, resolveFrom_parent hsearch, resolveFrom, resolveFrom]
    by_cases hlength : nameLimit < name.length
    · refine Or.inr fun links more follow directory => ?_
      rw [resolveFrom_nameTooLong hsearch hdot hdots hlength,
        resolveFrom_nameTooLong hsearch hdot hdots hlength]
    have hname : IsLookedUp name := ⟨hdot, hdots, Nat.not_lt.mp hlength⟩
    cases hchild : directory.child? name with
    | none =>
      refine Or.inr fun links more follow directory => ?_
      rw [resolveFrom_absent hsearch hname hchild, resolveFrom_absent hsearch hname hchild]
    | some node =>
      cases hlink : node.isLink with
      | false =>
        refine Or.inr fun links more follow directory => ?_
        rw [resolveFrom_entry hname hsearch hchild hlink,
          resolveFrom_entry hname hsearch hchild hlink, if_pos rfl, if_pos rfl, arrive, arrive]
      | true =>
        obtain ⟨modified, target, rfl⟩ := Node.exists_link hlink
        exact Or.inl ⟨target, rfl, .here here, hname, hsearch, hchild⟩

/-- Where a slash demands a directory, a link at the end is followed anyhow. -/
theorem resolveFrom_directory (links : Nat) (here : Location) (segments : List Bytes) :
    fs.resolveFrom links here segments ⟨false, true⟩ =
      fs.resolveFrom links here segments ⟨true, true⟩ := by
  rcases List.eq_nil_or_concat' segments with rfl | ⟨before, name, rfl⟩
  · rw [resolveFrom, resolveFrom]
  rcases resolveFrom_append_cases fs links here before with ⟨n, hn, middle, hleads⟩ | ⟨e, he⟩
  · rw [resolveFrom_append hleads (List.cons_ne_nil _ _), if_pos hn,
      resolveFrom_append hleads (List.cons_ne_nil _ _), if_pos hn]
    rcases resolveFrom_singleton_cases fs middle name with
      ⟨target, hsegments, -, hname, hsearch, hchild⟩ | hplace
    · cases links - n with
      | zero =>
        rw [resolveFrom_link_zero hname hsearch hchild fun h => h.2.2 rfl,
          resolveFrom_link_zero hname hsearch hchild fun h => h.2.2 rfl]
      | succ links =>
        rw [resolveFrom_link_succ hname hsearch hchild fun h => h.2.2 rfl,
          resolveFrom_link_succ hname hsearch hchild fun h => h.2.2 rfl, if_pos rfl, if_pos rfl]
    · exact hplace _ _ _ _
  · rw [he _ (List.cons_ne_nil _ _), he _ (List.cons_ne_nil _ _)]

/-- A resolution that follows a link at the end does what one does that names it, or it goes on from
the link. -/
theorem resolveFrom_follow_cases {links : Nat} {here : Location} {segments : List Bytes}
    (h : fs.resolveFrom links here segments ⟨true, false⟩ ≠ .error .tooManyLinks) :
    (∀ more ≥ links, fs.resolveFrom more here segments ⟨false, false⟩ =
        fs.resolveFrom links here segments ⟨true, false⟩) ∨
      ∃ n middle name target, EndsInLink fs here segments n middle name target ∧ n < links ∧
        fs.resolveFrom links here segments ⟨true, false⟩ =
          fs.resolveFrom (links - (n + 1)) (linkStart middle target) (pathSegments target)
            ⟨true, endsInSlash target⟩ := by
  rcases List.eq_nil_or_concat' segments with rfl | ⟨before, name, rfl⟩
  · refine Or.inl fun more _ => ?_
    rw [resolveFrom, resolveFrom]
  have hlast : [name] ≠ [] := List.cons_ne_nil name []
  rcases resolveFrom_append_cases fs links here before with ⟨n, hn, middle, hleads⟩ | ⟨e, he⟩
  · rw [resolveFrom_append hleads hlast, if_pos hn] at h ⊢
    rcases resolveFrom_singleton_cases fs middle name with ⟨target, hend⟩ | hplace
    · right
      obtain ⟨hsegments, -, hname, hsearch, hchild⟩ := hend
      obtain ⟨left, hleft⟩ : ∃ left, links - n = left + 1 := by
        refine Nat.exists_eq_succ_of_ne_zero fun hzero => h ?_
        rw [hzero, resolveFrom_link_zero hname hsearch hchild fun h => h.2.1 rfl]
      refine ⟨n, middle, name, target, ⟨rfl, hleads, hname, hsearch, hchild⟩, by omega, ?_⟩
      rw [hleft, resolveFrom_link_succ hname hsearch hchild fun h => h.2.1 rfl, if_pos rfl,
        List.append_nil, show links - (n + 1) = left by omega]
      rfl
    · refine Or.inl fun more hmore => ?_
      rw [resolveFrom_append hleads hlast, if_pos (hn.trans hmore)]
      exact hplace _ _ _ _
  · refine Or.inl fun more hmore => ?_
    rw [he _ hlast] at h ⊢
    rw [← he _ hlast ⟨false, false⟩] at h ⊢
    exact resolveFrom_of_le hmore h

/-- The link that the target of the link at a location ends in, if it ends in one. -/
def nextLink? (fs : FileSystem) (location : Location) : Option Location :=
  match fs.nodeAt? location with
  | some (.link _ target) =>
    match fs.resolveFrom linkLimit (linkStart location.dropLast target) (pathSegments target)
        ⟨false, endsInSlash target⟩ with
    | .ok (.found next) => if (fs.nodeAt? next).any Node.isLink then some next else none
    | _ => none
  | _ => none

def nthLink? (fs : FileSystem) : Nat → Location → Option Location
  | 0, location => some location
  | n + 1, location => (fs.nextLink? location).bind (fs.nthLink? n)

noncomputable def linksMet (fs : FileSystem) (location : Location) : ℕ∞ :=
  Set.encard {n | (fs.nthLink? n location).isSome = true}

theorem nthLink?_add (m n : Nat) (location : Location) :
    fs.nthLink? (m + n) location = (fs.nthLink? m location).bind (fs.nthLink? n) := by
  induction m generalizing location with
  | zero => rw [Nat.zero_add, nthLink?, Option.bind_some]
  | succ m ih =>
    rw [Nat.add_right_comm, nthLink?, nthLink?, Option.bind_assoc]
    exact Option.bind_congr fun next _ => ih next

theorem isSome_nthLink?_of_le {m n : Nat} (hle : m ≤ n) {location : Location}
    (h : (fs.nthLink? n location).isSome = true) : (fs.nthLink? m location).isSome = true := by
  obtain ⟨k, rfl⟩ := Nat.exists_eq_add_of_le hle
  rw [nthLink?_add] at h
  cases hm : fs.nthLink? m location with
  | none => simp [hm] at h
  | some => rfl

theorem lt_linksMet_iff {m : Nat} {location : Location} :
    m < fs.linksMet location ↔ (fs.nthLink? m location).isSome = true := by
  constructor
  · intro h
    by_contra hnone
    have hsub : {n | (fs.nthLink? n location).isSome = true} ⊆ (Finset.range m : Set ℕ) := by
      intro n hn
      rw [Finset.coe_range, Set.mem_Iio]
      by_contra hle
      exact hnone (isSome_nthLink?_of_le (Nat.not_lt.mp hle) hn)
    have hcard := Set.encard_le_encard hsub
    rw [Set.encard_coe_eq_coe_finsetCard, Finset.card_range] at hcard
    exact absurd h (not_lt.mpr hcard)
  · intro h
    have hsub : (Finset.range (m + 1) : Set ℕ) ⊆ {n | (fs.nthLink? n location).isSome = true} := by
      intro n hn
      rw [Finset.coe_range, Set.mem_Iio] at hn
      exact isSome_nthLink?_of_le (Nat.le_of_lt_succ hn) h
    have hcard := Set.encard_le_encard hsub
    rw [Set.encard_coe_eq_coe_finsetCard, Finset.card_range] at hcard
    exact lt_of_lt_of_le (Nat.cast_lt.mpr (Nat.lt_succ_self m)) hcard

theorem linksMet_le_iff {m : Nat} {location : Location} :
    fs.linksMet location ≤ m ↔ fs.nthLink? m location = none := by
  rw [← not_lt, lt_linksMet_iff, Bool.not_eq_true, Option.isSome_eq_false_iff,
    Option.isNone_iff_eq_none]

theorem linksMet_eq_top {location : Location} {n : Nat}
    (h : fs.nthLink? (n + 1) location = some location) : fs.linksMet location = ⊤ := by
  have hround (k : Nat) : (fs.nthLink? (k * (n + 1)) location).isSome = true := by
    induction k with
    | zero => rw [Nat.zero_mul]; rfl
    | succ k ih => rwa [Nat.succ_mul, Nat.add_comm, nthLink?_add, h, Option.bind_some]
  refine ENat.eq_top_iff_forall_gt.mpr fun k => lt_linksMet_iff.mpr ?_
  exact isSome_nthLink?_of_le (Nat.le_mul_of_pos_right k (Nat.succ_pos n)) (hround k)

theorem EndsInLink.nextLink? {location middle : Location} {modified : Timestamp}
    {target name next : Bytes} {n : Nat}
    (hnode : fs.nodeAt? location = some (.link modified target))
    (hslash : endsInSlash target = false)
    (h : EndsInLink fs (linkStart location.dropLast target) (pathSegments target) n middle name
      next)
    (hn : n ≤ linkLimit) : fs.nextLink? location = some (middle ++ [name]) := by
  obtain ⟨modified', hnext⟩ := h.nodeAt?
  rw [FileSystem.nextLink?, hnode]
  simp only [hslash, h.resolveFrom_unfollowed hn, hnext]
  rfl

theorem exists_of_nextLink? {location : Location} {modified : Timestamp} {target : Bytes}
    (hnode : fs.nodeAt? location = some (.link modified target))
    (h : (fs.nthLink? 1 location).isSome = true) :
    ∃ next modified' bytes, fs.nextLink? location = some next ∧
      fs.resolveFrom linkLimit (linkStart location.dropLast target) (pathSegments target)
        ⟨false, endsInSlash target⟩ = .ok (.found next) ∧
      fs.nodeAt? next = some (.link modified' bytes) := by
  obtain ⟨next, hnext⟩ : ∃ next, fs.nextLink? location = some next := by
    rw [nthLink?] at h
    cases hlink : fs.nextLink? location with
    | none => simp [hlink] at h
    | some next => exact ⟨next, rfl⟩
  have heq := hnext
  rw [nextLink?, hnode] at heq
  dsimp only at heq
  split at heq
  · rename_i found hfound
    split_ifs at heq with hlink
    obtain rfl := Option.some.inj heq
    obtain ⟨node, hat, hlink⟩ := Option.any_eq_true _ _ |>.mp hlink
    obtain ⟨modified', bytes, rfl⟩ := Node.exists_link hlink
    exact ⟨found, modified', bytes, hnext, hfound, hat⟩
  · cases heq

theorem Leads.append {here middle location : Location} {before after : List Bytes} {m n : Nat}
    (h : Leads fs here before m middle) (h' : Leads fs middle after n location) :
    Leads fs here (before ++ after) (m + n) location := by
  induction h with
  | here => rwa [List.nil_append, Nat.zero_add]
  | current hsearch _ ih => exact .current hsearch (ih h')
  | parent hsearch _ ih => exact .parent hsearch (ih h')
  | entry hname hsearch hchild hnode _ ih => exact .entry hname hsearch hchild hnode (ih h')
  | @link _ _ _ _ _ k m _ _ _ hname hsearch hchild htarget _ _ ih =>
    rw [show k + m + 1 + n = k + (m + n) + 1 by omega]
    exact .link hname hsearch hchild htarget (ih h')

theorem Leads.trimmed {path : Path} {n : Nat} {location : Location}
    (h : Leads fs [] (pathSegments path.bytes) n location) :
    Leads fs [] (pathSegments path.trimmed.bytes) n location := by
  obtain ⟨dots, hdots, hsegments⟩ := exists_pathSegments_trimmed_append path
  rw [hsegments] at h
  obtain ⟨m, k, middle, htrimmed, hend, rfl⟩ := h.exists_of_append
  obtain ⟨rfl, rfl⟩ := hend.eq_of_dots hdots
  exact htrimmed

/-- The parent of a joined path whose last segment is a link leads to the directory of that link,
over no more links than the whole. -/
theorem EndsInLink.exists_parent {parent : Path} {here middle : Location} {c n : Nat}
    {target name next : Bytes} (hparent : Leads fs [] (pathSegments parent.bytes) c here)
    (hne : target ≠ []) (hslash : endsInSlash target = false)
    (h : EndsInLink fs (linkStart here target) (pathSegments target) n middle name next) :
    ∃ other k, (parent.join target).parent? = some other ∧ k ≤ c + n ∧
      Leads fs [] (pathSegments other.bytes) k middle := by
  obtain @⟨before, _, _, hsegments, hbefore, hname, -, -⟩ := h
  obtain ⟨whole, k, hk, hjoined, hleads⟩ : ∃ whole k, k ≤ c + n ∧
      pathSegments (parent.join target).bytes = whole ++ [name] ∧
      Leads fs [] whole k middle := by
    rw [linkStart] at hbefore
    cases hstart : startsAtRoot target with
    | true =>
      rw [hstart, if_pos rfl] at hbefore
      refine ⟨before, n, Nat.le_add_left n c, ?_, hbefore⟩
      rw [Path.join, if_pos (Or.inl (by simpa [startsAtRoot] using hstart)), hsegments]
    | false =>
      rw [hstart, if_neg Bool.false_ne_true] at hbefore
      refine ⟨_, c + n, le_rfl, ?_, hparent.append hbefore⟩
      rw [pathSegments_join parent hstart, hsegments, List.append_assoc]
  have hend : endsInSlash (parent.join target).bytes = false := by
    rw [endsInSlash_join parent hne, hslash]
  obtain ⟨start, hpath, hstart⟩ := exists_join_of_pathSegments hjoined hend
  have hmem : name ∈ pathSegments (parent.join target).bytes := by simp [hjoined]
  obtain ⟨hnil, hnoslash⟩ := notMem_of_mem_pathSegments hmem
  have hentry := Node.isEntryName_iff.mpr ⟨hnil, hnoslash, hname.1, hname.2.1⟩
  refine ⟨start.trimmed, k, ?_, hk, Leads.trimmed (hstart ▸ hleads)⟩
  rw [hpath, Path.parent?_join start hentry]

end FileSystem
end MerkleDir
