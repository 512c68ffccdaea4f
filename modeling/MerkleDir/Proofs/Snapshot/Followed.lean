import MerkleDir.Proofs.FileSystem.Links
import MerkleDir.Proofs.Snapshot.Subdirectories

/-!
# Links that are followed

The walk follows a chain of links one link at a time, by paths of its own making. As long as the
chain is no longer than the limit, it comes to what the file system finds in one go.
-/
namespace MerkleDir

open Logged (result)

namespace FileSystem

variable {fs : FileSystem} {path parent : Path} {here : Location} {bytes : Bytes} {c : Nat}

def IsAdmissible (path : Path) : Prop :=
  path.bytes.contains 0 = false ∧ path.bytes.length < pathLimit

theorem IsAdmissible.resolve_eq (h : IsAdmissible path) (hne : path.bytes ≠ [])
    (followLast : Bool) : fs.resolve path followLast =
      fs.resolveFrom linkLimit [] (pathSegments path.bytes)
        ⟨followLast, endsInSlash path.bytes⟩ := by
  rw [resolve, h.1, if_neg Bool.false_ne_true, if_neg hne, if_neg (Nat.not_le.mpr h.2)]

theorem isAdmissible_of_resolve {followLast : Bool} {resolution : Resolution}
    (h : fs.resolve path followLast = .ok resolution) : IsAdmissible path := by
  rw [resolve] at h
  split_ifs at h with hnul hnil hlong
  exact ⟨Bool.eq_false_of_not_eq_true hnul, Nat.not_le.mp hlong⟩

theorem Leads.resolve_join (hparent : Leads fs [] (pathSegments parent.bytes) c here)
    (hne : bytes ≠ []) (h : IsAdmissible (parent.join bytes)) (followLast : Bool) :
    (linkLimit < c ∧ fs.resolve (parent.join bytes) followLast = .error .tooManyLinks) ∨
      ∃ links, linkLimit ≤ links + c ∧ links ≤ linkLimit ∧
        fs.resolve (parent.join bytes) followLast =
          fs.resolveFrom links (linkStart here bytes) (pathSegments bytes)
            ⟨followLast, endsInSlash bytes⟩ := by
  have hbytes : (parent.join bytes).bytes ≠ [] := by
    rw [Path.join]
    split_ifs <;> simp [hne]
  rw [h.resolve_eq hbytes, linkStart]
  cases hstart : startsAtRoot bytes with
  | true =>
    have hroot : parent.join bytes = ⟨bytes⟩ := by
      rw [Path.join, if_pos (Or.inl (by simpa [startsAtRoot] using hstart))]
    exact Or.inr ⟨linkLimit, Nat.le_add_right _ c, le_rfl, by rw [hroot, if_pos rfl]⟩
  | false =>
    rw [pathSegments_join parent hstart, endsInSlash_join parent hne,
      resolveFrom_append hparent (pathSegments_ne_nil hne hstart), if_neg Bool.false_ne_true]
    split_ifs with hc
    · exact Or.inr ⟨linkLimit - c, by omega, Nat.sub_le _ _, rfl⟩
    · exact Or.inl ⟨Nat.not_le.mp hc, rfl⟩

/-- From a place a path leads on as the system does from there, unless there are too many links. -/
theorem Reaches.resolve_join_cases (hparent : fs.Reaches parent here) (hne : bytes ≠ [])
    (h : IsAdmissible (parent.join bytes)) (followLast : Bool) :
    fs.resolve (parent.join bytes) followLast = .error .tooManyLinks ∨
      fs.resolve (parent.join bytes) followLast =
        fs.resolveFrom linkLimit (linkStart here bytes) (pathSegments bytes)
          ⟨followLast, endsInSlash bytes⟩ := by
  obtain ⟨c, hleads⟩ := hparent
  rcases hleads.resolve_join hne h followLast with ⟨-, hmany⟩ | ⟨links, -, hlinks, hresolve⟩
  · exact Or.inl hmany
  · rw [hresolve, or_iff_not_imp_left]
    exact fun hfew => (resolveFrom_of_le hlinks hfew).symm

section Entry

variable {name : Bytes} (hlocate : fs.locate path true = .ok here)
  (hname : Node.isEntryName name = true) (h : IsAdmissible (path.join name))

include hlocate hname h

theorem resolve_entry :
    ∃ n ≤ linkLimit, Leads fs [] (pathSegments path.bytes) n here ∧ ∀ followLast,
      fs.resolve (path.join name) followLast =
        fs.resolveFrom (linkLimit - n) here [name] ⟨followLast, false⟩ := by
  obtain ⟨n, hn, hleads⟩ :=
    exists_leads_of_follow rfl (resolveFrom_of_resolve (locate_eq_ok_iff.mp hlocate))
  obtain ⟨hne, hslash, -, -⟩ := Node.isEntryName_iff.mp hname
  have hstart : startsAtRoot name = false := by
    rw [startsAtRoot, beq_eq_false_iff_ne]
    exact fun hs => hslash (List.mem_of_head? hs)
  have hend : endsInSlash name = false := by
    rw [endsInSlash, beq_eq_false_iff_ne]
    exact fun hs => hslash (List.mem_of_getLast? hs)
  have hbytes : (path.join name).bytes ≠ [] := by
    rw [Path.join]
    split_ifs <;> simp [hne]
  refine ⟨n, hn, hleads, fun followLast => ?_⟩
  rw [h.resolve_eq hbytes, pathSegments_join path hstart, endsInSlash_join path hne, hend,
    pathSegments_of_notMem hne hslash, resolveFrom_append hleads (List.cons_ne_nil _ _), if_pos hn]

variable {directory : Node} (hsearch : fs.search here = .ok directory)

include hsearch

theorem nodeOf_entry_nameTooLong (hlength : nameLimit < name.length) (followLast : Bool) :
    fs.nodeOf (path.join name) followLast = .error .nameTooLong := by
  obtain ⟨-, -, hdot, hdots⟩ := Node.isEntryName_iff.mp hname
  obtain ⟨n, -, -, hresolve⟩ := resolve_entry hlocate hname h
  rw [nodeOf_eq, hresolve, resolveFrom_nameTooLong hsearch hdot hdots hlength]
  rfl

theorem readLink_entry (hlookup : IsLookedUp name) {modified : Timestamp} {target : Bytes}
    (hchild : directory.child? name = some (.link modified target)) :
    fs.readLink (path.join name) = .ok target := by
  obtain ⟨n, -, -, hresolve⟩ := resolve_entry hlocate hname h
  rw [readLink, lstat, nodeOf_eq, hresolve, resolveFrom_link_last hlookup hsearch hchild
    ⟨rfl, Bool.false_ne_true, Bool.false_ne_true⟩, nodeFound, nodeAt?_append_singleton hsearch,
    hchild]
  rfl

/-- A link in a directory is followed from there, with as many links less as lead to it. -/
theorem resolve_entry_link (hlookup : IsLookedUp name) {modified : Timestamp} {target : Bytes}
    (hchild : directory.child? name = some (.link modified target)) :
    fs.resolve (path.join name) true = .error .tooManyLinks ∨
      ∃ n links, Leads fs [] (pathSegments path.bytes) n here ∧ n + links + 1 ≤ linkLimit ∧
        fs.resolve (path.join name) true =
          fs.resolveFrom links (linkStart here target) (pathSegments target)
            ⟨true, endsInSlash target⟩ := by
  obtain ⟨n, hn, hleads, hresolve⟩ := resolve_entry hlocate hname h
  rw [hresolve]
  cases hleft : linkLimit - n with
  | zero => exact Or.inl (resolveFrom_link_zero hlookup hsearch hchild fun h => h.2.1 rfl)
  | succ links =>
    refine Or.inr ⟨n, links, hleads, by omega, ?_⟩
    rw [resolveFrom_link_succ hlookup hsearch hchild fun h => h.2.1 rfl, if_pos rfl,
      List.append_nil, Bool.false_or]

end Entry

end FileSystem

namespace Walk

open FileSystem (IsAdmissible)

variable {fs : FileSystem} {options : SnapshotOptions} {root : Path}

/-- The path that is formed after reading `n` links, the first of them at `path`. -/
def pathAfter? (fs : FileSystem) : Nat → Path → Option Path
  | 0, path => some path
  | n + 1, path =>
    match fs.readLink path with
    | .ok target => pathAfter? fs n (linkTarget path target)
    | .error _ => none

theorem pathAfter?_succ {path next : Path} {target : Bytes} (h : fs.readLink path = .ok target)
    (hnext : linkTarget path target = next) (n : Nat) :
    pathAfter? fs (n + 1) path = pathAfter? fs n next := by
  rw [pathAfter?, h, ← hnext]

/-- Whether the entry `name` at `link` became what the system finds there. -/
def AgreesWith (name : Bytes) (link : Path) :
    Except OsError Node → Except SnapshotError (Option WalkItem) → Prop
  | .ok (.file modified _), outcome => ∃ target, outcome =
      .ok (some (.leaf ⟨name, link, modified, .followedSymlink target⟩))
  | .ok (.directory _ _), outcome => outcome = .ok (some (.directory link))
  | .ok .special, outcome => outcome = .ok none
  | .error .notFound, outcome => outcome = .ok none
  | _, _ => True

section Following

variable {limit : Nat} {name : Bytes} {link current parent : Path} {location : Location}
  {target : Bytes} {modified : Timestamp}

theorem agreesWith_follow_succ {steps : Nat} {next : Path}
    (htarget : fs.readLink current = .ok target) (hnext : linkTarget current target = next)
    (hlink : ∀ modified bytes, fs.lstat next ≠ .ok (.link modified bytes)) :
    AgreesWith name link (fs.lstat next)
      (result (follow fs limit name link (steps + 1) current)) := by
  rw [result_follow_succ, htarget]
  dsimp only
  rw [hnext]
  cases hlstat : fs.lstat next with
  | error e => cases e <;> trivial
  | ok node =>
    cases node with
    | file modified content => exact ⟨next, rfl⟩
    | link modified bytes => exact absurd hlstat (hlink modified bytes)
    | special => rfl
    | directory => rfl

/-- A chain that ends within the limit is followed to the same end as by the system, which has no
more links left than the walk. -/
theorem agreesWith_follow (hroot : fs.IsPlace []) {steps c links : Nat}
    (hparent : current.parent? = some parent)
    (hleads : FileSystem.Leads fs [] (FileSystem.pathSegments parent.bytes) c location.dropLast)
    (hlinks : c + links + 1 ≤ FileSystem.linkLimit) (htarget : fs.readLink current = .ok target)
    (hnode : fs.nodeAt? location = some (.link modified target))
    (hend : fs.nthLink? steps location = none)
    (hadmissible : ∀ n ≤ steps, ∀ path, pathAfter? fs n current = some path → IsAdmissible path)
    (hfew : fs.resolveFrom links (FileSystem.linkStart location.dropLast target)
      (FileSystem.pathSegments target) ⟨true, FileSystem.endsInSlash target⟩ ≠
        .error .tooManyLinks) :
    AgreesWith name link (fs.nodeFound (fs.resolveFrom links
        (FileSystem.linkStart location.dropLast target) (FileSystem.pathSegments target)
        ⟨true, FileSystem.endsInSlash target⟩))
      (result (follow fs limit name link steps current)) := by
  induction steps generalizing current parent location c links target modified with
  | zero => cases hend
  | succ steps ih =>
    have hne := FileSystem.ne_nil_of_readLink htarget
    have hnext : linkTarget current target = parent.join target := by rw [linkTarget, hparent]
    have hpath (n : Nat) : pathAfter? fs (n + 1) current = pathAfter? fs n (parent.join target) :=
      pathAfter?_succ htarget hnext n
    have hadm : IsAdmissible (parent.join target) := hadmissible 1 (by omega) _ (hpath 0)
    have hplace : fs.IsPlace (FileSystem.linkStart location.dropLast target) := by
      rw [FileSystem.linkStart]
      split_ifs
      · exact hroot
      · exact hleads.isPlace hroot
    obtain ⟨hmany, -⟩ | ⟨more, hmore, -, hresolve⟩ := hleads.resolve_join hne hadm false
    · omega
    -- the same is found whether the last segment of the target is followed or not
    have hdone (heq : fs.resolveFrom more (FileSystem.linkStart location.dropLast target)
        (FileSystem.pathSegments target) ⟨false, FileSystem.endsInSlash target⟩ =
          fs.resolveFrom links (FileSystem.linkStart location.dropLast target)
            (FileSystem.pathSegments target) ⟨true, FileSystem.endsInSlash target⟩) :
        AgreesWith name link (fs.nodeFound (fs.resolveFrom links
            (FileSystem.linkStart location.dropLast target) (FileSystem.pathSegments target)
            ⟨true, FileSystem.endsInSlash target⟩))
          (result (follow fs limit name link (steps + 1) current)) := by
      have hlstat : fs.lstat (parent.join target) = fs.nodeFound (fs.resolveFrom links
          (FileSystem.linkStart location.dropLast target) (FileSystem.pathSegments target)
          ⟨true, FileSystem.endsInSlash target⟩) := by
        rw [FileSystem.lstat, FileSystem.nodeOf_eq, hresolve, heq]
      rw [← hlstat]
      refine agreesWith_follow_succ htarget hnext fun modified bytes => ?_
      rw [hlstat]
      exact FileSystem.nodeFound_of_follow hplace rfl
    cases hslash : FileSystem.endsInSlash target with
    | true =>
      rw [hslash] at hdone hfew
      refine hdone ?_
      rw [FileSystem.resolveFrom_directory, FileSystem.resolveFrom_of_le (by omega) hfew]
    | false =>
      rw [hslash] at hdone hfew hresolve
      rcases FileSystem.resolveFrom_follow_cases hfew with
        hsame | ⟨n, middle, last, next, hlast, hn, hrest⟩
      · exact hdone (hsame more (by omega))
      · obtain ⟨other, k, hother, hk, hleads'⟩ := hlast.exists_parent hleads hne hslash
        obtain ⟨modified', hnode'⟩ := hlast.nodeAt?
        have hlstat : fs.lstat (parent.join target) = .ok (.link modified' next) := by
          rw [FileSystem.lstat, FileSystem.nodeOf_eq, hresolve,
            hlast.resolveFrom_unfollowed (by omega), FileSystem.nodeFound, hnode']
          rfl
        have hread : fs.readLink (parent.join target) = .ok next := by
          rw [FileSystem.readLink, hlstat]
        have hfollow : result (follow fs limit name link (steps + 1) current) =
            result (follow fs limit name link steps (parent.join target)) := by
          rw [result_follow_succ, htarget]
          dsimp only
          rw [hnext, hlstat]
        rw [FileSystem.nthLink?, hlast.nextLink? hnode hslash (by omega), Option.bind_some] at hend
        rw [hrest] at hfew ⊢
        rw [hfollow]
        have hmiddle : (middle ++ [last]).dropLast = middle := List.dropLast_concat
        rw [← hmiddle] at hleads' hfew ⊢
        refine ih hother hleads' (by omega) hread hnode' hend (fun m hm path hp => ?_) hfew
        exact hadmissible (m + 1) (by omega) path ((hpath m).trans hp)

/-- A chain that goes on after the limit exceeds it, unless the path to its next link has too many
links itself. -/
theorem follow_of_lt_linksMet (hroot : fs.IsPlace []) {steps : Nat} {path : Path}
    (hparent : current.parent? = some parent) (hreaches : fs.Reaches parent location.dropLast)
    (htarget : fs.readLink current = .ok target)
    (hnode : fs.nodeAt? location = some (.link modified target))
    (hmet : (fs.nthLink? steps location).isSome = true)
    (hadmissible : ∀ n ≤ steps, ∀ path, pathAfter? fs n current = some path → IsAdmissible path)
    (hpath : pathAfter? fs steps current = some path) :
    (fs.lstat path ≠ .error .tooManyLinks →
        result (follow fs limit name link steps current) = .error (.linkDepthExceeded link limit)) ∧
      (fs.lstat path = .error .tooManyLinks →
        result (follow fs limit name link steps current) =
          .error (.filesystem path (.os .tooManyLinks))) := by
  induction steps generalizing current parent location target modified with
  | zero =>
    obtain rfl := Option.some.inj hpath
    refine ⟨fun _ => rfl, fun hmany => ?_⟩
    rw [FileSystem.readLink, hmany] at htarget
    cases htarget
  | succ steps ih =>
    have hne := FileSystem.ne_nil_of_readLink htarget
    have hnext : linkTarget current target = parent.join target := by rw [linkTarget, hparent]
    have hafter (n : Nat) : pathAfter? fs (n + 1) current = pathAfter? fs n (parent.join target) :=
      pathAfter?_succ htarget hnext n
    have hadm : IsAdmissible (parent.join target) := hadmissible 1 (by omega) _ (hafter 0)
    rw [hafter] at hpath
    have hfollow := @result_follow_succ fs limit steps name link current
    rw [htarget] at hfollow
    dsimp only at hfollow
    rw [hnext] at hfollow
    rcases hreaches.resolve_join_cases hne hadm false with hmany | hresolve
    · have hlstat : fs.lstat (parent.join target) = .error .tooManyLinks := by
        rw [FileSystem.lstat, FileSystem.nodeOf_eq, hmany]
        rfl
      -- no link can be read there, so it is the last of the paths
      cases steps with
      | zero =>
        obtain rfl := Option.some.inj hpath
        rw [hlstat] at hfollow
        exact ⟨fun hfew => absurd hlstat hfew, fun _ => hfollow⟩
      | succ steps =>
        rw [pathAfter?, FileSystem.readLink, hlstat] at hpath
        cases hpath
    · obtain ⟨next, modified', bytes, hnextLink, hfound, hnode'⟩ :=
        FileSystem.exists_of_nextLink? hnode (FileSystem.isSome_nthLink?_of_le (by omega) hmet)
      rw [hfound] at hresolve
      have hlstat : fs.lstat (parent.join target) = .ok (.link modified' bytes) := by
        rw [FileSystem.lstat, FileSystem.nodeOf_eq, hresolve, FileSystem.nodeFound, hnode']
        rfl
      have hread : fs.readLink (parent.join target) = .ok bytes := by
        rw [FileSystem.readLink, hlstat]
      obtain ⟨other, hother, hreaches'⟩ :=
        FileSystem.exists_parent_of_link hroot hresolve hnode'
      rw [FileSystem.nthLink?, hnextLink, Option.bind_some] at hmet
      rw [hlstat] at hfollow
      rw [hfollow]
      refine ih hother hreaches' hread hnode' hmet (fun n hn p hp => ?_) hpath
      exact hadmissible (n + 1) (by omega) p ((hafter n).trans hp)

theorem agreesWith_follow_entry {steps : Nat} {here : Location} {directory : Node}
    (hlocate : fs.locate root true = .ok here) (hsearch : fs.search here = .ok directory)
    (hname : Node.isEntryName name = true) (hlookup : FileSystem.IsLookedUp name)
    (hchild : directory.child? name = some (.link modified target))
    (hend : fs.nthLink? steps (here ++ [name]) = none)
    (hadmissible : ∀ n ≤ steps, ∀ path,
      pathAfter? fs n (root.join name) = some path → IsAdmissible path) :
    AgreesWith name link (fs.stat (root.join name))
      (result (follow fs limit name link steps (root.join name))) := by
  have hadm : IsAdmissible (root.join name) := hadmissible 0 (Nat.zero_le _) _ rfl
  have hread := FileSystem.readLink_entry hlocate hname hadm hsearch hlookup hchild
  have hnode := (FileSystem.nodeAt?_append_singleton hsearch name).trans hchild
  have hroot : fs.IsPlace [] := (FileSystem.isPlace_of_search hsearch).root
  have hhere : (here ++ [name]).dropLast = here := List.dropLast_concat
  rw [FileSystem.stat, FileSystem.nodeOf_eq]
  rcases FileSystem.resolve_entry_link hlocate hname hadm hsearch hlookup hchild with
    hmany | ⟨n, links, hleads, hlinks, hresolve⟩
  · rw [hmany]
    trivial
  · rw [hresolve]
    by_cases hmany : fs.resolveFrom links (FileSystem.linkStart here target)
        (FileSystem.pathSegments target) ⟨true, FileSystem.endsInSlash target⟩ =
          .error .tooManyLinks
    · rw [hmany]
      trivial
    · rw [← hhere] at hmany ⊢
      exact agreesWith_follow hroot (Path.parent?_join root hname) (hhere.symm ▸ hleads.trimmed)
        hlinks hread hnode hend hadmissible hmany

end Following

/-- What becomes of a link directly in `root` that is followed. If no more links are met from it
than the limit allows, the walk comes to what the system finds there. Otherwise, and if all links up
to the limit can be read, the limit is exceeded, unless the system finds too many links in the path
that the last of them leads to. -/
theorem classify_link (hpolicy : options.symlinks = .follow) {here : Location}
    (hlocate : fs.locate root true = .ok here) {es : List (Bytes × Node)}
    (hlist : fs.list root = .ok es) {name target : Bytes} {modified : Timestamp}
    (hentry : (name, .link modified target) ∈ es)
    (hadmissible : ∀ n ≤ options.maxLinkDepth, ∀ path,
      pathAfter? fs n (root.join name) = some path → IsAdmissible path) :
    (fs.linksMet (here ++ [name]) ≤ options.maxLinkDepth →
      AgreesWith name (root.join name) (fs.stat (root.join name))
        (result (classify fs options root (name, .link modified target)))) ∧
    (options.maxLinkDepth < fs.linksMet (here ++ [name]) → ∀ path,
      pathAfter? fs options.maxLinkDepth (root.join name) = some path →
      (fs.lstat path ≠ .error .tooManyLinks →
        result (classify fs options root (name, .link modified target)) =
          .error (.linkDepthExceeded (root.join name) options.maxLinkDepth)) ∧
      (fs.lstat path = .error .tooManyLinks →
        result (classify fs options root (name, .link modified target)) =
          .error (.filesystem path (.os .tooManyLinks)))) := by
  obtain ⟨location, hlocation, hdirectory⟩ := FileSystem.list_eq_ok_iff.mp hlist
  obtain rfl : here = location := Except.ok.inj (hlocate.symm.trans hlocation)
  have hsearch := FileSystem.search_eq_ok_iff.mpr ⟨es, hdirectory, rfl⟩
  have hwell := FileSystem.isWellFormed_of_nodeAt? hdirectory
  have hname := (Node.isWellFormed_of_mem hwell hentry).1
  have hchild := Node.child?_of_mem hwell hentry
  have hadm : IsAdmissible (root.join name) := hadmissible 0 (Nat.zero_le _) _ rfl
  have hclassify : classify fs options root (name, .link modified target) =
      follow fs options.maxLinkDepth name (root.join name) options.maxLinkDepth
        (root.join name) := by
    simp only [classify, hpolicy]
  rw [hclassify, FileSystem.linksMet_le_iff, FileSystem.lt_linksMet_iff]
  by_cases hlength : FileSystem.nameLimit < name.length
  · have hlong := FileSystem.nodeOf_entry_nameTooLong hlocate hname hadm hsearch hlength
    constructor
    · intro _
      rw [FileSystem.stat, hlong]
      trivial
    · intro _ path hpath
      -- the link cannot be read, so the limit allows for none
      cases hdepth : options.maxLinkDepth with
      | zero =>
        rw [hdepth] at hpath
        obtain rfl := Option.some.inj hpath
        rw [FileSystem.lstat, hlong]
        exact ⟨fun _ => rfl, fun hmany => by cases hmany⟩
      | succ steps =>
        rw [hdepth, pathAfter?, FileSystem.readLink, FileSystem.lstat, hlong] at hpath
        cases hpath
  · obtain ⟨-, -, hdot, hdots⟩ := Node.isEntryName_iff.mp hname
    have hlookup : FileSystem.IsLookedUp name := ⟨hdot, hdots, Nat.not_lt.mp hlength⟩
    constructor
    · intro hend
      exact agreesWith_follow_entry hlocate hsearch hname hlookup hchild hend hadmissible
    · intro hmet path hpath
      have hread := FileSystem.readLink_entry hlocate hname hadm hsearch hlookup hchild
      have hnode := (FileSystem.nodeAt?_append_singleton hsearch name).trans hchild
      have hroot : fs.IsPlace [] := (FileSystem.isPlace_of_search hsearch).root
      have hreaches : fs.Reaches root.trimmed (here ++ [name]).dropLast := by
        rw [List.dropLast_concat]
        exact (FileSystem.reaches_of_locate hlocate).trimmed
      exact follow_of_lt_linksMet hroot (Path.parent?_join root hname) hreaches hread hnode hmet
        hadmissible hpath

/-- A file `f`, and a directory `r` with a link `l` to `m` and a link `m` to `../f`. -/
def withTwoLinks : FileSystem :=
  ⟨.bits34, .directory true [([114], .directory true [([108], .link ⟨0, 0⟩ [109]),
    ([109], .link ⟨0, 0⟩ [46, 46, 47, 102])]), ([102], .file ⟨7, 0⟩ [])], by decide⟩

theorem pathAfter?_withTwoLinks {n : Nat} (hn : n ≤ 2) :
    pathAfter? withTwoLinks n ⟨[114, 47, 108]⟩ =
      [⟨[114, 47, 108]⟩, ⟨[114, 47, 109]⟩, ⟨[114, 47, 46, 46, 47, 102]⟩][n]? := by
  interval_cases n <;> cbv

theorem isAdmissible_withTwoLinks (n : Nat) (hn : n ≤ 2) (path : Path)
    (h : pathAfter? withTwoLinks n ⟨[114, 47, 108]⟩ = some path) : IsAdmissible path := by
  rw [pathAfter?_withTwoLinks hn] at h
  have hpaths : ∀ p ∈
      ([⟨[114, 47, 108]⟩, ⟨[114, 47, 109]⟩, ⟨[114, 47, 46, 46, 47, 102]⟩] : List Path),
      p.bytes.contains 0 = false ∧ p.bytes.length < FileSystem.pathLimit := by decide
  exact hpaths path (List.mem_of_getElem? h)

/-- Two links may be read, or one. -/
theorem classify_withTwoLinks :
    (∃ target, result (classify withTwoLinks ⟨.follow, .name, 2⟩ ⟨[114]⟩
        ([108], .link ⟨0, 0⟩ [109])) =
          .ok (some (.leaf ⟨[108], ⟨[114, 47, 108]⟩, ⟨7, 0⟩, .followedSymlink target⟩))) ∧
      result (classify withTwoLinks ⟨.follow, .name, 1⟩ ⟨[114]⟩ ([108], .link ⟨0, 0⟩ [109])) =
        .error (.linkDepthExceeded ⟨[114, 47, 108]⟩ 1) := by
  have hlocate : withTwoLinks.locate ⟨[114]⟩ true = .ok [[114]] := by cbv
  have hlist : withTwoLinks.list ⟨[114]⟩ = .ok [([108], .link ⟨0, 0⟩ [109]),
      ([109], .link ⟨0, 0⟩ [46, 46, 47, 102])] := by cbv
  have hstat : withTwoLinks.stat ⟨[114, 47, 108]⟩ = .ok (.file ⟨7, 0⟩ []) := by cbv
  have hlstat : withTwoLinks.lstat ⟨[114, 47, 109]⟩ = .ok (.link ⟨0, 0⟩ [46, 46, 47, 102]) := by
    cbv
  have hend : withTwoLinks.nthLink? 2 [[114], [108]] = none := by cbv
  have hmore : (withTwoLinks.nthLink? 1 [[114], [108]]).isSome = true := by cbv
  constructor
  · have h := (@classify_link withTwoLinks ⟨.follow, .name, 2⟩ ⟨[114]⟩ rfl [[114]] hlocate _ hlist
      [108] [109] ⟨0, 0⟩ List.mem_cons_self isAdmissible_withTwoLinks).1
        (FileSystem.linksMet_le_iff.mpr hend)
    rw [show (⟨[114]⟩ : Path).join [108] = ⟨[114, 47, 108]⟩ from rfl, hstat] at h
    exact h
  · have h := (@classify_link withTwoLinks ⟨.follow, .name, 1⟩ ⟨[114]⟩ rfl [[114]] hlocate _ hlist
      [108] [109] ⟨0, 0⟩ List.mem_cons_self fun n hn =>
        isAdmissible_withTwoLinks n (Nat.le_succ_of_le hn)).2 (FileSystem.lt_linksMet_iff.mpr hmore)
    refine (h ⟨[114, 47, 109]⟩ (pathAfter?_withTwoLinks (by decide))).1 fun hmany => ?_
    rw [hlstat] at hmany
    cases hmany

/-- A directory `r` with a link `a` to itself and a link `l` to `a/l`, which is `l` again. -/
def winding : FileSystem :=
  ⟨.bits34, .directory true [([114], .directory true [([97], .link ⟨0, 0⟩ [46]),
    ([108], .link ⟨0, 0⟩ [97, 47, 108])])], by decide⟩

def windingPath (n : Nat) : Path :=
  ⟨[114, 47] ++ (List.replicate n [97, 47]).flatten ++ [108]⟩

theorem search_winding : winding.search [[114]] = .ok (.directory true
    [([97], .link ⟨0, 0⟩ [46]), ([108], .link ⟨0, 0⟩ [97, 47, 108])]) := rfl

theorem leads_winding (n : Nat) :
    FileSystem.Leads winding [[114]] (List.replicate n [97]) n [[114]] := by
  induction n with
  | zero => exact .here _
  | succ n ih =>
    rw [List.replicate_succ, show n + 1 = 0 + n + 1 by omega]
    exact .link (by decide) search_winding rfl (.current search_winding (.here _)) ih

theorem reaches_winding : winding.Reaches ⟨[114]⟩ [[114]] :=
  ⟨0, .entry (by decide) (show winding.search [] = .ok _ from rfl) rfl rfl (.here _)⟩

theorem pathSegments_windingPath {n : Nat} (hn : n ≤ 41) :
    FileSystem.pathSegments (windingPath n).bytes = [114] :: List.replicate n [97] ++ [[108]] ∧
      FileSystem.endsInSlash (windingPath n).bytes = false ∧
      (windingPath n).bytes.contains 0 = false ∧
      (windingPath n).bytes.length < FileSystem.pathLimit ∧
      linkTarget (windingPath n) [97, 47, 108] = windingPath (n + 1) := by
  have hall : ∀ n < 42, FileSystem.pathSegments (windingPath n).bytes =
        [114] :: List.replicate n [97] ++ [[108]] ∧
      FileSystem.endsInSlash (windingPath n).bytes = false ∧
      (windingPath n).bytes.contains 0 = false ∧
      (windingPath n).bytes.length < FileSystem.pathLimit ∧
      linkTarget (windingPath n) [97, 47, 108] = windingPath (n + 1) := by decide +kernel
  exact hall n (Nat.lt_succ_of_le hn)

/-- Forty links are not too many, and one more is. -/
theorem lstat_windingPath {n : Nat} (hn : n ≤ 41) : winding.lstat (windingPath n) =
    if n ≤ 40 then .ok (.link ⟨0, 0⟩ [97, 47, 108]) else .error .tooManyLinks := by
  obtain ⟨hsegments, hend, hnul, hlength, -⟩ := pathSegments_windingPath hn
  have hleads : FileSystem.Leads winding [] ([114] :: List.replicate n [97]) n [[114]] :=
    .entry (by decide) (show winding.search [] = .ok _ from rfl) rfl rfl (leads_winding n)
  have hadmissible : FileSystem.IsAdmissible (windingPath n) := ⟨hnul, hlength⟩
  have hresolve := @FileSystem.IsAdmissible.resolve_eq winding _ hadmissible
    (by simp [windingPath]) false
  rw [hsegments, hend, FileSystem.resolveFrom_append hleads (List.cons_ne_nil _ _)] at hresolve
  rw [FileSystem.lstat, FileSystem.nodeOf_eq, hresolve]
  show winding.nodeFound (if n ≤ 40 then _ else _) = _
  split_ifs with hn
  · rw [FileSystem.resolveFrom_link_last (by decide) search_winding rfl
      ⟨rfl, Bool.false_ne_true, Bool.false_ne_true⟩]
    rfl
  · rfl

theorem readLink_windingPath {n : Nat} (hn : n ≤ 40) :
    winding.readLink (windingPath n) = .ok [97, 47, 108] := by
  rw [FileSystem.readLink, lstat_windingPath (Nat.le_succ_of_le hn), if_pos hn]

theorem pathAfter?_winding {m n : Nat} (h : m + n ≤ 41) :
    pathAfter? winding n (windingPath m) = some (windingPath (m + n)) := by
  induction n generalizing m with
  | zero => rfl
  | succ n ih =>
    obtain ⟨-, -, -, -, hnext⟩ := pathSegments_windingPath (show m ≤ 41 by omega)
    rw [pathAfter?_succ (readLink_windingPath (by omega)) hnext, ih (by omega)]
    congr 2
    omega

theorem isAdmissible_winding (n : Nat) (hn : n ≤ 41) (path : Path)
    (h : pathAfter? winding n (windingPath 0) = some path) : IsAdmissible path := by
  rw [pathAfter?_winding (by omega)] at h
  obtain rfl := Option.some.inj h
  obtain ⟨-, -, hnul, hlength, -⟩ := pathSegments_windingPath (show 0 + n ≤ 41 by omega)
  exact ⟨hnul, hlength⟩

theorem linksMet_winding : winding.linksMet [[114], [108]] = ⊤ := by
  refine FileSystem.linksMet_eq_top (n := 0) ?_
  cbv

/-- The links go round in a cycle and all up to the limit can be read, but the walk fails before it
exceeds the limit. -/
theorem not_linkDepthExceeded_winding :
    winding.linksMet [[114], [108]] = ⊤ ∧
      (∀ n < 41, winding.readLink (windingPath n) = .ok [97, 47, 108] ∧
        pathAfter? winding (n + 1) (windingPath 0) = some (windingPath (n + 1))) ∧
      (∀ n ≤ 41, ∀ path, pathAfter? winding n (windingPath 0) = some path → IsAdmissible path) ∧
      result (classify winding ⟨.follow, .name, 41⟩ ⟨[114]⟩
        ([108], .link ⟨0, 0⟩ [97, 47, 108])) =
          .error (.filesystem (windingPath 41) (.os .tooManyLinks)) ∧
      result (classify winding ⟨.follow, .name, 41⟩ ⟨[114]⟩
        ([108], .link ⟨0, 0⟩ [97, 47, 108])) ≠ .error (.linkDepthExceeded (windingPath 0) 41) := by
  have hmany : winding.lstat (windingPath 41) = .error .tooManyLinks :=
    lstat_windingPath le_rfl
  have hclassify : result (classify winding ⟨.follow, .name, 41⟩ ⟨[114]⟩
      ([108], .link ⟨0, 0⟩ [97, 47, 108])) =
        .error (.filesystem (windingPath 41) (.os .tooManyLinks)) :=
    (@follow_of_lt_linksMet winding 41 [108] (windingPath 0) (windingPath 0) ⟨[114]⟩
      [[114], [108]] _ _ (FileSystem.isPlace_of_search search_winding).root _ _ rfl reaches_winding
      (readLink_windingPath (Nat.zero_le 40)) rfl
      (FileSystem.lt_linksMet_iff.mp (linksMet_winding ▸ ENat.natCast_lt_top 41))
      isAdmissible_winding (pathAfter?_winding le_rfl)).2 hmany
  refine ⟨linksMet_winding, fun n hn => ⟨readLink_windingPath (by omega), ?_⟩,
    isAdmissible_winding, hclassify, ?_⟩
  · rw [pathAfter?_winding (by omega), Nat.zero_add]
  · rw [hclassify]
    exact nofun

end Walk
end MerkleDir
