import MerkleDir.Proofs.FileSystem.PathSegments
import MerkleDir.Proofs.FileSystem.Resolution

/-!
# What a path reaches

All paths that reach one location are interchangeable at the start of a longer path, as long as
neither result says more about the path than about what is there. A link that a path names lies in
the directory that the parent of the path reaches.
-/
namespace MerkleDir.FileSystem

variable {fs : FileSystem}

def Reaches (fs : FileSystem) (path : Path) (location : Location) : Prop :=
  ∃ n, Leads fs [] (pathSegments path.bytes) n location

/-- A result that tells whether something is there. -/
def IsSettled {α : Type} (result : Except OsError α) : Prop :=
  ∀ e, result = .error e → e = .notFound

theorem isSettled_ok {α : Type} (a : α) : IsSettled (.ok a) := nofun

def nodeFound (fs : FileSystem) : Except OsError Resolution → Except OsError Node
  | .ok (.found location) => (fs.nodeAt? location).elim (.error .notFound) .ok
  | .ok (.absent _ _) => .error .notFound
  | .error e => .error e

theorem nodeOf_eq (path : Path) (followLast : Bool) :
    fs.nodeOf path followLast = fs.nodeFound (fs.resolve path followLast) := by
  rw [nodeOf, locate]
  cases fs.resolve path followLast with
  | error e => rfl
  | ok resolution => cases resolution <;> rfl

theorem nodeFound_of_follow {links : Nat} {here : Location} {segments : List Bytes}
    {last : LastSegment} (hhere : fs.IsPlace here) (hfollow : last.follow = true)
    {modified : Timestamp} {target : Bytes} :
    fs.nodeFound (fs.resolveFrom links here segments last) ≠ .ok (.link modified target) := by
  intro h
  cases hresolve : fs.resolveFrom links here segments last with
  | error e =>
    rw [hresolve] at h
    cases h
  | ok resolution =>
    cases resolution with
    | absent directory name =>
      rw [hresolve] at h
      cases h
    | found location =>
      obtain ⟨n, -, hleads⟩ := exists_leads_of_follow hfollow hresolve
      obtain ⟨node, hnode, hlink⟩ := hleads.isPlace hhere
      rw [hresolve, nodeFound, hnode] at h
      obtain rfl := Except.ok.inj h
      cases hlink

section Located

variable {path : Path} {followLast : Bool}

theorem locate_eq_ok_iff {location : Location} : fs.locate path followLast = .ok location ↔
    fs.resolve path followLast = .ok (.found location) := by
  rw [locate]
  cases fs.resolve path followLast with
  | error e => simp
  | ok resolution => cases resolution <;> simp

theorem IsSettled.resolve (h : IsSettled (fs.locate path followLast)) :
    IsSettled (fs.resolve path followLast) := by
  intro e he
  refine h e ?_
  rw [locate, he]

theorem IsSettled.locate (h : IsSettled (fs.nodeOf path followLast)) :
    IsSettled (fs.locate path followLast) := by
  intro e he
  refine h e ?_
  rw [nodeOf, he]

theorem IsSettled.resolve_eq (hne : path.bytes ≠ [])
    (h : IsSettled (fs.resolve path followLast)) :
    fs.resolve path followLast =
      fs.resolveFrom linkLimit [] (pathSegments path.bytes)
        ⟨followLast, endsInSlash path.bytes⟩ := by
  rw [FileSystem.resolve] at h ⊢
  split_ifs at h ⊢
  · cases h .nulByte rfl
  · cases h .nameTooLong rfl
  · rfl

end Located

theorem ne_nil_of_resolve {path : Path} {followLast : Bool} {resolution : Resolution}
    (h : fs.resolve path followLast = .ok resolution) : path.bytes ≠ [] := by
  intro hnil
  rw [resolve] at h
  split_ifs at h

theorem resolveFrom_of_resolve {path : Path} {followLast : Bool} {resolution : Resolution}
    (h : fs.resolve path followLast = .ok resolution) :
    fs.resolveFrom linkLimit [] (pathSegments path.bytes) ⟨followLast, endsInSlash path.bytes⟩ =
      .ok resolution := by
  have hsettled : IsSettled (fs.resolve path followLast) := h ▸ isSettled_ok resolution
  rw [← hsettled.resolve_eq (ne_nil_of_resolve h), h]

theorem reaches_of_locate {path : Path} {location : Location}
    (h : fs.locate path true = .ok location) : fs.Reaches path location := by
  obtain ⟨n, -, hleads⟩ :=
    exists_leads_of_follow rfl (resolveFrom_of_resolve (locate_eq_ok_iff.mp h))
  exact ⟨n, hleads⟩

theorem Reaches.trimmed {path : Path} {location : Location} (h : fs.Reaches path location) :
    fs.Reaches path.trimmed location := by
  obtain ⟨n, hleads⟩ := h
  obtain ⟨dots, hdots, hsegments⟩ := exists_pathSegments_trimmed_append path
  rw [hsegments] at hleads
  obtain ⟨m, k, middle, htrimmed, hend, -⟩ := hleads.exists_of_append
  obtain ⟨rfl, -⟩ := hend.eq_of_dots hdots
  exact ⟨m, htrimmed⟩

theorem Reaches.resolve_join {path : Path} {here : Location} (h : fs.Reaches path here)
    {bytes : Bytes} (hne : bytes ≠ []) {followLast : Bool}
    (hsettled : IsSettled (fs.resolve (path.join bytes) followLast)) :
    fs.resolve (path.join bytes) followLast =
      fs.resolveFrom linkLimit (linkStart here bytes) (pathSegments bytes)
        ⟨followLast, endsInSlash bytes⟩ := by
  have hbytes : (path.join bytes).bytes ≠ [] := by
    rw [Path.join]
    split_ifs <;> simp [hne]
  rw [linkStart]
  cases hstart : startsAtRoot bytes with
  | true =>
    have hroot : path.join bytes = ⟨bytes⟩ := by
      rw [Path.join, if_pos (Or.inl (by simpa [startsAtRoot] using hstart))]
    rw [hroot] at hsettled ⊢
    rw [hsettled.resolve_eq hne, if_pos rfl]
  | false =>
    obtain ⟨n, hleads⟩ := h
    have hsegments := pathSegments_ne_nil hne hstart
    have hresolve := hsettled.resolve_eq hbytes
    rw [pathSegments_join path hstart, endsInSlash_join path hne,
      resolveFrom_append hleads hsegments] at hresolve
    rw [hresolve] at hsettled ⊢
    rw [if_neg Bool.false_ne_true]
    split_ifs at hsettled ⊢ with hn
    · refine (resolveFrom_of_le (Nat.sub_le linkLimit n) fun hmany => ?_).symm
      cases hsettled _ hmany
    · cases hsettled .tooManyLinks rfl

theorem Reaches.resolveFrom_of_locate_join {path : Path} {here : Location}
    (h : fs.Reaches path here) {bytes : Bytes} (hne : bytes ≠ []) {followLast : Bool}
    {location : Location} (hlocate : fs.locate (path.join bytes) followLast = .ok location) :
    fs.resolveFrom linkLimit (linkStart here bytes) (pathSegments bytes)
      ⟨followLast, endsInSlash bytes⟩ = .ok (.found location) := by
  have hresolve := locate_eq_ok_iff.mp hlocate
  rw [← h.resolve_join hne (hresolve ▸ isSettled_ok _), hresolve]

/-- Where a name leads from a directory does not depend on the path that reaches it. -/
theorem Reaches.locate_join_unique {path other : Path} {here : Location}
    (hpath : fs.Reaches path here) (hother : fs.Reaches other here) {bytes : Bytes}
    (hne : bytes ≠ []) {followLast : Bool} {location location' : Location}
    (h : fs.locate (path.join bytes) followLast = .ok location)
    (h' : fs.locate (other.join bytes) followLast = .ok location') : location = location' := by
  have hresolve := hpath.resolveFrom_of_locate_join hne h
  have hresolve' := hother.resolveFrom_of_locate_join hne h'
  exact Resolution.found.inj (Except.ok.inj (hresolve.symm.trans hresolve'))

theorem Reaches.locate_entry {path : Path} {here : Location} (h : fs.Reaches path here)
    {name : Bytes} (hname : Node.isEntryName name = true) {location : Location}
    (hlocate : fs.locate (path.join name) false = .ok location) : location = here ++ [name] := by
  obtain ⟨hne, hslash, hdot, hdots⟩ := Node.isEntryName_iff.mp hname
  have hstart : startsAtRoot name = false := by
    rw [startsAtRoot, beq_eq_false_iff_ne]
    exact fun hs => hslash (List.mem_of_head? hs)
  have hend : endsInSlash name = false := by
    rw [endsInSlash, beq_eq_false_iff_ne]
    exact fun hs => hslash (List.mem_of_getLast? hs)
  have hresolve := h.resolveFrom_of_locate_join hne hlocate
  rw [linkStart, hstart, hend, if_neg Bool.false_ne_true, pathSegments_of_notMem hne hslash]
    at hresolve
  obtain ⟨directory, -, ⟨rfl, -⟩ | ⟨rfl, -⟩ | ⟨-, hrest⟩⟩ := resolveFrom_cons_eq_ok hresolve
  · exact absurd rfl hdot
  · exact absurd rfl hdots
  rcases hrest with ⟨-, -, habsent⟩ | ⟨node, -, -, harrive⟩ |
    ⟨modified, target, -, ⟨-, hfound⟩ | ⟨hfollow, -⟩⟩
  · cases habsent
  · rw [if_pos rfl] at harrive
    exact Resolution.found.inj (eq_of_arrive harrive)
  · exact Resolution.found.inj hfound
  · exact absurd ⟨rfl, Bool.false_ne_true, Bool.false_ne_true⟩ hfollow

theorem lstat_entry {path : Path} {here : Location} (hpath : fs.Reaches path here)
    {directory : Node} (hsearch : fs.search here = .ok directory) {name : Bytes}
    (hname : Node.isEntryName name = true) {child node : Node}
    (hchild : directory.child? name = some child) (h : fs.lstat (path.join name) = .ok node) :
    node = child := by
  obtain ⟨location, hlocate, hnode⟩ := nodeOf_eq_ok_iff.mp h
  rw [hpath.locate_entry hname hlocate, nodeAt?_append_singleton hsearch, hchild] at hnode
  exact (Option.some.inj hnode).symm

theorem IsPlace.not_link {location : Location} (h : fs.IsPlace location) {modified : Timestamp}
    {target : Bytes} : fs.nodeAt? location ≠ some (.link modified target) := by
  intro hlink
  obtain ⟨node, hnode, hfalse⟩ := h
  obtain rfl := Option.some.inj (hlink.symm.trans hnode)
  cases hfalse

theorem exists_parent_of_link (hroot : fs.IsPlace []) {path : Path} {location : Location}
    (h : fs.resolve path false = .ok (.found location)) {modified : Timestamp} {target : Bytes}
    (hnode : fs.nodeAt? location = some (.link modified target)) :
    ∃ parent, path.parent? = some parent ∧ fs.Reaches parent location.dropLast := by
  replace h := resolveFrom_of_resolve h
  rcases List.eq_nil_or_concat' (pathSegments path.bytes) with hnil | ⟨before, name, hsegments⟩
  · rw [hnil, resolveFrom, Except.ok.injEq, Resolution.found.injEq] at h
    subst h
    exact absurd hnode hroot.not_link
  have hlast : [name] ≠ [] := List.cons_ne_nil name []
  rw [hsegments] at h
  obtain ⟨n, hn, here, hleads⟩ := exists_leads hlast h
  rw [resolveFrom_append hleads hlast, if_pos hn] at h
  obtain ⟨directory, hsearch, ⟨-, hrest⟩ | ⟨-, hrest⟩ | ⟨hname, hrest⟩⟩ := resolveFrom_cons_eq_ok h
  · rw [resolveFrom, Except.ok.injEq, Resolution.found.injEq] at hrest
    subst hrest
    exact absurd hnode (isPlace_of_search hsearch).not_link
  · rw [resolveFrom, Except.ok.injEq, Resolution.found.injEq] at hrest
    subst hrest
    exact absurd hnode (isPlace_of_search hsearch).dropLast.not_link
  rcases hrest with ⟨-, -, habsent⟩ | ⟨node, hchild, hlink, harrive⟩ |
    ⟨modified', target', hchild, ⟨⟨-, -, hend⟩, hfound⟩ | ⟨-, fewer, -, hfollow⟩⟩
  · cases habsent
  · rw [if_pos rfl] at harrive
    obtain rfl := Resolution.found.inj (eq_of_arrive harrive)
    have hplace := (nodeAt?_append_singleton hsearch name).trans hchild
    exact absurd hnode (IsPlace.not_link ⟨node, hplace, hlink⟩)
  · obtain rfl := Resolution.found.inj hfound
    obtain ⟨start, rfl, hstart⟩ :=
      exists_join_of_pathSegments hsegments (Bool.eq_false_of_not_eq_true hend)
    have hmem : name ∈ pathSegments (start.join name).bytes := by simp [hsegments]
    obtain ⟨hne, hslash⟩ := notMem_of_mem_pathSegments hmem
    have hentry := Node.isEntryName_iff.mpr ⟨hne, hslash, hname.1, hname.2.1⟩
    refine ⟨start.trimmed, Path.parent?_join start hentry, ?_⟩
    rw [List.dropLast_concat]
    exact Reaches.trimmed ⟨n, hstart ▸ hleads⟩
  · rw [if_pos rfl] at hfollow
    obtain ⟨k, -, htarget⟩ := exists_leads_of_follow rfl hfollow
    refine absurd hnode (htarget.isPlace ?_).not_link
    rw [linkStart]
    split_ifs
    · exact hroot
    · exact isPlace_of_search hsearch

theorem ne_nil_of_readLink {path : Path} {target : Bytes}
    (h : fs.readLink path = .ok target) : target ≠ [] := by
  rw [readLink] at h
  split at h
  · rename_i modified bytes hlstat
    obtain ⟨location, -, hnode⟩ := nodeOf_eq_ok_iff.mp hlstat
    obtain rfl := Except.ok.inj h
    have hwell := isWellFormed_of_nodeAt? hnode
    rw [Node.isWellFormed, Bool.and_eq_true] at hwell
    exact of_decide_eq_true hwell.2
  · cases h
  · cases h

end MerkleDir.FileSystem
