import MerkleDir.Proofs.FileSystem.Leads

namespace MerkleDir.FileSystem

variable {fs : FileSystem}

section Steps

variable {links : Nat} {here : Location} {rest : List Bytes} {last : LastSegment}
  {directory : Node}

theorem resolveFrom_current (hsearch : fs.search here = .ok directory) :
    fs.resolveFrom links here ([Path.dot] :: rest) last = fs.resolveFrom links here rest last := by
  rw [resolveFrom, hsearch]
  simp only [if_pos]

theorem resolveFrom_parent (hsearch : fs.search here = .ok directory) :
    fs.resolveFrom links here ([Path.dot, Path.dot] :: rest) last =
      fs.resolveFrom links here.dropLast rest last := by
  rw [resolveFrom, hsearch]
  simp

theorem resolveFrom_entry {name : Bytes} {node : Node} (hname : IsLookedUp name)
    (hsearch : fs.search here = .ok directory) (hchild : directory.child? name = some node)
    (hnode : node.isLink = false) :
    fs.resolveFrom links here (name :: rest) last =
      if rest = [] then fs.arrive last (here ++ [name])
      else fs.resolveFrom links (here ++ [name]) rest last := by
  obtain ⟨hdot, hdots, hlength⟩ := hname
  rw [resolveFrom, hsearch]
  simp only [if_neg hdot, if_neg hdots, if_neg hlength.not_gt, hchild]
  cases node with
  | link => cases hnode
  | file => rfl
  | special => rfl
  | directory => rfl

theorem resolveFrom_link_last {name target : Bytes} {modified : Timestamp}
    (hname : IsLookedUp name) (hsearch : fs.search here = .ok directory)
    (hchild : directory.child? name = some (.link modified target))
    (hfollow : rest = [] ∧ ¬ last.follow ∧ ¬ last.directory) :
    fs.resolveFrom links here (name :: rest) last = .ok (.found (here ++ [name])) := by
  obtain ⟨hdot, hdots, hlength⟩ := hname
  rw [resolveFrom, hsearch]
  simp only [if_neg hdot, if_neg hdots, if_neg hlength.not_gt, hchild, if_pos hfollow]

theorem resolveFrom_link_zero {name target : Bytes} {modified : Timestamp}
    (hname : IsLookedUp name) (hsearch : fs.search here = .ok directory)
    (hchild : directory.child? name = some (.link modified target))
    (hfollow : ¬ (rest = [] ∧ ¬ last.follow ∧ ¬ last.directory)) :
    fs.resolveFrom 0 here (name :: rest) last = .error .tooManyLinks := by
  obtain ⟨hdot, hdots, hlength⟩ := hname
  rw [resolveFrom, hsearch]
  simp only [if_neg hdot, if_neg hdots, if_neg hlength.not_gt, hchild, if_neg hfollow]

theorem resolveFrom_link_succ {name target : Bytes} {modified : Timestamp}
    (hname : IsLookedUp name) (hsearch : fs.search here = .ok directory)
    (hchild : directory.child? name = some (.link modified target))
    (hfollow : ¬ (rest = [] ∧ ¬ last.follow ∧ ¬ last.directory)) :
    fs.resolveFrom (links + 1) here (name :: rest) last =
      fs.resolveFrom links (linkStart here target) (pathSegments target ++ rest)
        (if rest = [] then ⟨true, last.directory || endsInSlash target⟩ else last) := by
  obtain ⟨hdot, hdots, hlength⟩ := hname
  rw [resolveFrom, hsearch]
  simp only [if_neg hdot, if_neg hdots, if_neg hlength.not_gt, hchild, if_neg hfollow]
  rfl

end Steps

/-- What comes after segments is resolved where they lead, with as many links less. -/
theorem resolveFrom_append {here location : Location} {segments : List Bytes} {n : Nat}
    (h : Leads fs here segments n location) {rest : List Bytes} (hrest : rest ≠ []) (links : Nat)
    (last : LastSegment) : fs.resolveFrom links here (segments ++ rest) last =
      if n ≤ links then fs.resolveFrom (links - n) location rest last
      else .error .tooManyLinks := by
  induction h generalizing links rest with
  | here location => simp
  | current hsearch _ ih => rw [List.cons_append, resolveFrom_current hsearch, ih hrest]
  | parent hsearch _ ih => rw [List.cons_append, resolveFrom_parent hsearch, ih hrest]
  | @entry _ _ _ segments _ _ _ hname hsearch hchild hnode _ ih =>
    have hne : segments ++ rest ≠ [] := List.append_ne_nil_of_right_ne_nil _ hrest
    rw [List.cons_append, resolveFrom_entry hname hsearch hchild hnode, if_neg hne, ih hrest]
  | @link _ _ _ _ segments m n _ _ _ hname hsearch hchild _ _ ihtarget ihrest =>
    have hne : segments ++ rest ≠ [] := List.append_ne_nil_of_right_ne_nil _ hrest
    cases links with
    | zero =>
      rw [List.cons_append, resolveFrom_link_zero hname hsearch hchild fun h => hne h.1,
        if_neg (by omega)]
    | succ links =>
      rw [List.cons_append, resolveFrom_link_succ hname hsearch hchild fun h => hne h.1,
        if_neg hne, ihtarget hne, ihrest hrest]
      by_cases hm : m ≤ links
      · rw [if_pos hm]
        by_cases hn : n ≤ links - m
        · rw [if_pos hn, if_pos (by omega), show links + 1 - (m + n + 1) = links - m - n by omega]
        · rw [if_neg hn, if_neg (by omega)]
      · rw [if_neg hm, if_neg (by omega)]

/-- A link is named, if it is last and need not be followed, or its target takes its place. -/
theorem resolveFrom_link_eq_ok {links : Nat} {here : Location} {name target : Bytes}
    {rest : List Bytes} {last : LastSegment} {directory : Node} {modified : Timestamp}
    {resolution : Resolution} (hname : IsLookedUp name) (hsearch : fs.search here = .ok directory)
    (hchild : directory.child? name = some (.link modified target))
    (h : fs.resolveFrom links here (name :: rest) last = .ok resolution) :
    (rest = [] ∧ ¬ last.follow ∧ ¬ last.directory) ∧ resolution = .found (here ++ [name]) ∨
      ¬ (rest = [] ∧ ¬ last.follow ∧ ¬ last.directory) ∧ ∃ fewer, links = fewer + 1 ∧
        fs.resolveFrom fewer (linkStart here target) (pathSegments target ++ rest)
          (if rest = [] then ⟨true, last.directory || endsInSlash target⟩ else last) =
            .ok resolution := by
  by_cases hfollow : rest = [] ∧ ¬ last.follow ∧ ¬ last.directory
  · rw [resolveFrom_link_last hname hsearch hchild hfollow] at h
    exact Or.inl ⟨hfollow, (Except.ok.inj h).symm⟩
  · cases links with
    | zero =>
      rw [resolveFrom_link_zero hname hsearch hchild hfollow] at h
      cases h
    | succ links =>
      rw [resolveFrom_link_succ hname hsearch hchild hfollow] at h
      exact Or.inr ⟨hfollow, links, rfl, h⟩

theorem resolveFrom_cons_eq_ok {links : Nat} {here : Location} {name : Bytes} {rest : List Bytes}
    {last : LastSegment} {resolution : Resolution}
    (h : fs.resolveFrom links here (name :: rest) last = .ok resolution) :
    ∃ directory, fs.search here = .ok directory ∧
      ((name = [Path.dot] ∧ fs.resolveFrom links here rest last = .ok resolution) ∨
        (name = [Path.dot, Path.dot] ∧
          fs.resolveFrom links here.dropLast rest last = .ok resolution) ∨
        IsLookedUp name ∧
          ((directory.child? name = none ∧ rest = [] ∧ resolution = .absent here name) ∨
            (∃ node, directory.child? name = some node ∧ node.isLink = false ∧
              (if rest = [] then fs.arrive last (here ++ [name])
                else fs.resolveFrom links (here ++ [name]) rest last) = .ok resolution) ∨
            ∃ modified target, directory.child? name = some (.link modified target) ∧
              ((rest = [] ∧ ¬ last.follow ∧ ¬ last.directory) ∧
                  resolution = .found (here ++ [name]) ∨
                ¬ (rest = [] ∧ ¬ last.follow ∧ ¬ last.directory) ∧ ∃ fewer, links = fewer + 1 ∧
                  fs.resolveFrom fewer (linkStart here target) (pathSegments target ++ rest)
                    (if rest = [] then ⟨true, last.directory || endsInSlash target⟩ else last) =
                      .ok resolution))) := by
  cases hsearch : fs.search here with
  | error e =>
    rw [resolveFrom, hsearch] at h
    cases h
  | ok directory =>
    refine ⟨directory, rfl, ?_⟩
    by_cases hdot : name = [Path.dot]
    · subst hdot
      rw [resolveFrom_current hsearch] at h
      exact Or.inl ⟨rfl, h⟩
    by_cases hdots : name = [Path.dot, Path.dot]
    · subst hdots
      rw [resolveFrom_parent hsearch] at h
      exact Or.inr (Or.inl ⟨rfl, h⟩)
    by_cases hlength : nameLimit < name.length
    · rw [resolveFrom, hsearch] at h
      simp only [if_neg hdot, if_neg hdots, if_pos hlength] at h
      cases h
    have hname : IsLookedUp name := ⟨hdot, hdots, Nat.not_lt.mp hlength⟩
    refine Or.inr (Or.inr ⟨hname, ?_⟩)
    cases hchild : directory.child? name with
    | none =>
      rw [resolveFrom, hsearch] at h
      simp only [if_neg hdot, if_neg hdots, if_neg hlength, hchild] at h
      split at h
      · exact Or.inl ⟨rfl, ‹_›, (Except.ok.inj h).symm⟩
      · cases h
    | some node =>
      cases hlink : node.isLink with
      | false =>
        rw [resolveFrom_entry hname hsearch hchild hlink] at h
        exact Or.inr (Or.inl ⟨node, rfl, hlink, h⟩)
      | true =>
        obtain ⟨modified, target, rfl⟩ : ∃ modified target, node = .link modified target := by
          cases node with
          | link modified target => exact ⟨modified, target, rfl⟩
          | file => cases hlink
          | special => cases hlink
          | directory => cases hlink
        exact Or.inr (Or.inr ⟨modified, target, rfl,
          resolveFrom_link_eq_ok hname hsearch hchild h⟩)

theorem eq_of_arrive {last : LastSegment} {location : Location} {resolution : Resolution}
    (h : fs.arrive last location = .ok resolution) : resolution = .found location := by
  rw [arrive] at h
  split at h
  · split at h
    · exact (Except.ok.inj h).symm
    · cases h
    · cases h
  · exact (Except.ok.inj h).symm

/-- A resolution that does not fail has come to all segments but the last. -/
theorem exists_leads {links : Nat} {here : Location} {before after : List Bytes}
    (hafter : after ≠ []) {last : LastSegment} {resolution : Resolution}
    (h : fs.resolveFrom links here (before ++ after) last = .ok resolution) :
    ∃ n ≤ links, ∃ location, Leads fs here before n location := by
  -- a link puts its target in place of a segment, and one link less is left
  induction links using Nat.strong_induction_on generalizing here before with
  | h links ihlinks =>
    induction before generalizing here with
    | nil => exact ⟨0, Nat.zero_le links, here, .here here⟩
    | cons name before ih =>
      have hne : before ++ after ≠ [] := List.append_ne_nil_of_right_ne_nil _ hafter
      rw [List.cons_append] at h
      obtain ⟨directory, hsearch, ⟨rfl, hrest⟩ | ⟨rfl, hrest⟩ | ⟨hname, hrest⟩⟩ :=
        resolveFrom_cons_eq_ok h
      · obtain ⟨n, hn, location, hbefore⟩ := ih hrest
        exact ⟨n, hn, location, .current hsearch hbefore⟩
      · obtain ⟨n, hn, location, hbefore⟩ := ih hrest
        exact ⟨n, hn, location, .parent hsearch hbefore⟩
      rcases hrest with ⟨-, hnil, -⟩ | ⟨node, hchild, hnode, hrest⟩ |
        ⟨modified, target, hchild, ⟨⟨hnil, -⟩, -⟩ | ⟨-, fewer, rfl, hrest⟩⟩
      · exact absurd hnil hne
      · rw [if_neg hne] at hrest
        obtain ⟨n, hn, location, hbefore⟩ := ih hrest
        exact ⟨n, hn, location, .entry hname hsearch hchild hnode hbefore⟩
      · exact absurd hnil hne
      · rw [if_neg hne, ← List.append_assoc] at hrest
        obtain ⟨k, hk, location, hleads⟩ := ihlinks fewer (Nat.lt_succ_self fewer) hrest
        obtain ⟨m, n, middle, htarget, hbefore, rfl⟩ := hleads.exists_of_append
        exact ⟨m + n + 1, Nat.succ_le_succ hk, location,
          .link hname hsearch hchild htarget hbefore⟩

theorem exists_leads_of_follow {links : Nat} {here location : Location} {segments : List Bytes}
    {last : LastSegment} (hfollow : last.follow = true)
    (h : fs.resolveFrom links here segments last = .ok (.found location)) :
    ∃ n ≤ links, Leads fs here segments n location := by
  induction links using Nat.strong_induction_on generalizing here segments last with
  | h links ihlinks =>
    induction segments generalizing here with
    | nil =>
      rw [resolveFrom, Except.ok.injEq, Resolution.found.injEq] at h
      exact ⟨0, Nat.zero_le links, h ▸ .here here⟩
    | cons name rest ih =>
      obtain ⟨directory, hsearch, ⟨rfl, hrest⟩ | ⟨rfl, hrest⟩ | ⟨hname, hrest⟩⟩ :=
        resolveFrom_cons_eq_ok h
      · obtain ⟨n, hn, hleads⟩ := ih hrest
        exact ⟨n, hn, .current hsearch hleads⟩
      · obtain ⟨n, hn, hleads⟩ := ih hrest
        exact ⟨n, hn, .parent hsearch hleads⟩
      rcases hrest with ⟨-, -, habsent⟩ | ⟨node, hchild, hnode, hrest⟩ |
        ⟨modified, target, hchild, ⟨⟨-, hunfollowed, -⟩, -⟩ | ⟨-, fewer, rfl, hrest⟩⟩
      · cases habsent
      · split_ifs at hrest with hnil
        · obtain rfl := Resolution.found.inj (eq_of_arrive hrest)
          subst hnil
          exact ⟨0, Nat.zero_le links, .entry hname hsearch hchild hnode (.here _)⟩
        · obtain ⟨n, hn, hleads⟩ := ih hrest
          exact ⟨n, hn, .entry hname hsearch hchild hnode hleads⟩
      · exact absurd hfollow hunfollowed
      · have hlast : (if rest = [] then ⟨true, last.directory || endsInSlash target⟩
            else last : LastSegment).follow = true := by
          split_ifs
          · rfl
          · exact hfollow
        obtain ⟨k, hk, hleads⟩ := ihlinks fewer (Nat.lt_succ_self fewer) hlast hrest
        obtain ⟨m, n, middle, htarget, hafter, rfl⟩ := hleads.exists_of_append
        exact ⟨m + n + 1, Nat.succ_le_succ hk, .link hname hsearch hchild htarget hafter⟩

/-- More links make a difference only where there have been too few. -/
theorem resolveFrom_of_le {fewer links : Nat} (hle : fewer ≤ links) {here : Location}
    {segments : List Bytes} {last : LastSegment}
    (h : fs.resolveFrom fewer here segments last ≠ .error .tooManyLinks) :
    fs.resolveFrom links here segments last = fs.resolveFrom fewer here segments last := by
  fun_induction resolveFrom fs fewer here segments last generalizing links with
  | case9 => exact absurd rfl h
  | case10 here last name rest directory hsearch hdot hdots hlength modified target hchild hfollow
      fewer ih =>
    obtain ⟨more, rfl⟩ := Nat.exists_eq_succ_of_ne_zero (Nat.ne_of_gt (Nat.zero_lt_of_lt hle))
    rw [resolveFrom_link_succ ⟨hdot, hdots, Nat.not_lt.mp hlength⟩ hsearch hchild hfollow]
    exact ih (Nat.le_of_succ_le_succ hle) h
  | _ => simp_all [resolveFrom]

end MerkleDir.FileSystem
