import MerkleDir.Proofs.Snapshot.Failures
import MerkleDir.Proofs.Snapshot.Spelling

/-!
# What the policies for links do

A policy changes what becomes of links and of nothing else. Links that are ignored become nothing,
links that are copied become a leaf each, and links that are followed become what they end in. So
the numbers of entries differ by the number of links, or of those that end in files.
-/
namespace MerkleDir

open Logged (result)

namespace FileSystem

variable {fs : FileSystem} {root : Path} {here : Location}

/-- What a link in a directory ends in is what the system finds there, unless it counts too many
links. -/
theorem stat_entry_eq (hlocate : fs.locate root true = .ok here) {directory : Node}
    (hsearch : fs.search here = .ok directory) {name target : Bytes} {modified : Timestamp}
    (hentry : (name, .link modified target) ∈ directory.entries) {node : Node}
    (hlstat : fs.lstat (root.join name) = .ok node) {steps : Nat} {ending : Except OsError Node}
    (hend : fs.chainEnd? steps here target = some ending)
    (hfew : fs.stat (root.join name) ≠ .error .tooManyLinks) :
    fs.stat (root.join name) = ending := by
  have hplace := isPlace_of_search hsearch
  obtain ⟨es, hnode, rfl⟩ := search_eq_ok_iff.mp hsearch
  have hwell := isWellFormed_of_nodeAt? hnode
  have hname := (Node.isWellFormed_of_mem hwell hentry).1
  obtain ⟨-, -, hdot, hdots⟩ := Node.isEntryName_iff.mp hname
  obtain ⟨location, hlocation, -⟩ := nodeOf_eq_ok_iff.mp hlstat
  have hadm := isAdmissible_of_resolve (locate_eq_ok_iff.mp hlocation)
  have hlength : name.length ≤ nameLimit := by
    by_contra hlong
    rw [lstat, nodeOf_entry_nameTooLong hlocate hname hadm hsearch (Nat.not_le.mp hlong)] at hlstat
    cases hlstat
  rw [stat, nodeOf_eq] at hfew ⊢
  rcases resolve_entry_link hlocate hname hadm hsearch ⟨hdot, hdots, hlength⟩
    (Node.child?_of_mem hwell hentry) with hmany | ⟨n, links, -, hlinks, hresolve⟩
  · rw [hmany] at hfew
    exact absurd rfl hfew
  · rw [hresolve] at hfew ⊢
    refine (chainEnd?_eq_nodeFound hplace.root hplace (by omega) hend fun hmany => hfew ?_).symm
    rw [hmany]
    rfl

end FileSystem

def WalkItem.path : WalkItem → Path
  | .leaf l => l.path
  | .directory p => p

theorem filterMap_id_cons {α : Type} (a : Option α) (l : List (Option α)) :
    (a :: l).filterMap id = a.toList ++ l.filterMap id := by
  cases a <;> rfl

theorem filterMap_id_map {α β : Type} (f : α → Option β) (l : List α) :
    (l.map f).filterMap id = l.filterMap f := by
  rw [List.filterMap_map]
  rfl

namespace Walk

variable {fs : FileSystem} {options : SnapshotOptions} {root : Path} {here : Location}
  {es : List (Bytes × Node)}

def copiedItem (root : Path) : Bytes × Node → Option WalkItem
  | (name, .link modified _) => some (.leaf ⟨name, root.join name, modified, .symlinkCopy⟩)
  | entry => ownItem root entry

def endsInFile (fs : FileSystem) (limit : Nat) (here : Location) : Bytes × Node → Bool
  | (_, .link _ target) =>
    match fs.chainEnd? limit here target with
    | some (.ok (.file _ _)) => true
    | _ => false
  | _ => false

def isOfLink (root : Path) (es : List (Bytes × Node)) (item : WalkItem) : Bool :=
  es.any fun e => e.2.isLink && decide (root.join e.1 = item.path)

section Entry

variable {entry : Bytes × Node}

theorem classify_own (hlink : entry.2.isLink = false) {node : Node}
    (hlstat : fs.lstat (root.join entry.1) = .ok node) :
    result (classify fs options root entry) = .ok (ownItem root entry) := by
  obtain ⟨name, child⟩ := entry
  cases child with
  | file modified content =>
    simp only [classify, hlstat]
    rfl
  | link modified target => cases hlink
  | special => rfl
  | directory isOpen entries => rfl

theorem classify_ignored (hpolicy : options.symlinks = .ignore) {node : Node}
    (hlstat : fs.lstat (root.join entry.1) = .ok node) :
    result (classify fs options root entry) = .ok (ownItem root entry) := by
  cases hlink : entry.2.isLink with
  | false => exact classify_own hlink hlstat
  | true =>
    obtain ⟨name, child⟩ := entry
    obtain ⟨modified, target, rfl⟩ := Node.exists_link hlink
    simp only [classify, hpolicy]
    rfl

theorem classify_copied (hreaches : fs.Reaches root here) {directory : Node}
    (hsearch : fs.search here = .ok directory) (hentry : entry ∈ directory.entries)
    (hpolicy : options.symlinks = .copy) {node : Node}
    (hlstat : fs.lstat (root.join entry.1) = .ok node) :
    result (classify fs options root entry) = .ok (copiedItem root entry) := by
  obtain ⟨name, child⟩ := entry
  cases hlink : child.isLink with
  | false =>
    have hcopied : copiedItem root (name, child) = ownItem root (name, child) := by
      cases child with
      | link modified target => cases hlink
      | _ => rfl
    rw [hcopied]
    exact classify_own hlink hlstat
  | true =>
    obtain ⟨modified, target, rfl⟩ := Node.exists_link hlink
    have hwell := FileSystem.isWellFormed_of_search hsearch
    obtain rfl := FileSystem.lstat_entry hreaches hsearch
      (Node.isWellFormed_of_mem hwell hentry).1 (Node.child?_of_mem hwell hentry) hlstat
    simp only [classify, hpolicy]
    rw [Logged.result_bind, Attempt.result_ofOs, hlstat]
    rfl

end Entry

theorem walk_of_classify (hlist : fs.list root = .ok es) {f : Bytes × Node → Option WalkItem}
    (h : ∀ e ∈ es, result (classify fs options root e) = .ok (f e)) :
    result (walk fs options root) = .ok (es.filterMap f) := by
  refine walk_eq_ok_iff.mpr ⟨es, es.map f, hlist, ?_, ?_⟩
  · exact List.forall₂_map_right_iff.mpr (List.forall₂_same.mpr h)
  · exact (filterMap_id_map f es).symm

theorem walk_ignored (hpolicy : options.symlinks = .ignore) (hlist : fs.list root = .ok es)
    (hlstat : ∀ e ∈ es, ∃ node, fs.lstat (root.join e.1) = .ok node) :
    result (walk fs options root) = .ok (es.filterMap (ownItem root)) := by
  refine walk_of_classify hlist fun e he => ?_
  obtain ⟨node, hnode⟩ := hlstat e he
  exact classify_ignored hpolicy hnode

theorem walk_copied (hpolicy : options.symlinks = .copy) (hlocate : fs.locate root true = .ok here)
    (hlist : fs.list root = .ok es)
    (hlstat : ∀ e ∈ es, ∃ node, fs.lstat (root.join e.1) = .ok node) :
    result (walk fs options root) = .ok (es.filterMap (copiedItem root)) := by
  obtain ⟨location, hlocation, hnode⟩ := FileSystem.list_eq_ok_iff.mp hlist
  obtain rfl := Except.ok.inj (hlocate.symm.trans hlocation)
  have hsearch := FileSystem.search_eq_ok_iff.mpr ⟨es, hnode, rfl⟩
  refine walk_of_classify hlist fun e he => ?_
  obtain ⟨node, hnode⟩ := hlstat e he
  exact classify_copied (FileSystem.reaches_of_locate hlocate) hsearch he hpolicy hnode

theorem isMadeOf_of_list (hlocate : fs.locate root true = .ok here)
    (hlist : fs.list root = .ok es) {items : List WalkItem}
    (h : result (walk fs options root) = .ok items) :
    ∃ found, List.Forall₂ (IsMadeOf fs options root here) es found ∧
      items = found.filterMap id := by
  obtain ⟨es', found, hlist', hfound, rfl⟩ := isMadeOf_of_walk hlocate h
  obtain rfl := Except.ok.inj (hlist.symm.trans hlist')
  exact ⟨found, hfound, rfl⟩

theorem isOfLink_eq (hnodup : (es.map Prod.fst).Nodup)
    (hnames : ∀ e ∈ es, Node.isEntryName e.1 = true) {e : Bytes × Node} (he : e ∈ es)
    {item : WalkItem} (hpath : item.path = root.join e.1) : isOfLink root es item = e.2.isLink := by
  rw [isOfLink, Bool.eq_iff_iff, List.any_eq_true]
  simp only [Bool.and_eq_true, decide_eq_true_eq, hpath]
  constructor
  · rintro ⟨f, hf, hlink, hjoin⟩
    have hname := congrArg Path.fileName? hjoin
    rw [Path.fileName?_join root (hnames f hf), Path.fileName?_join root (hnames e he)] at hname
    rwa [← List.inj_on_of_nodup_map hnodup hf he (Option.some.inj hname)]
  · exact fun hlink => ⟨e, he, hlink, rfl⟩

theorem path_of_isItemOf {name : Bytes} {path : Path} {item : WalkItem}
    (h : IsItemOf name path item) : item.path = path := by
  rcases h with rfl | ⟨modified, kind, rfl⟩ <;> rfl

/-- The items that come from no link are told by the entries, in the order of the listing. -/
theorem filter_of_made {chosen : WalkItem → Bool} {found : List (Option WalkItem)}
    (h : List.Forall₂ (IsMadeOf fs options root here) es found)
    (hchosen : ∀ e ∈ es, ∀ item : WalkItem, item.path = root.join e.1 →
      chosen item = !e.2.isLink) :
    (found.filterMap id).filter chosen = es.filterMap (ownItem root) := by
  induction h with
  | nil => rfl
  | @cons e item es found hitem _ ih =>
    have hrest := ih fun f hf => hchosen f (List.mem_cons_of_mem _ hf)
    have hpath (i : WalkItem) (hi : item = some i) : chosen i = !e.2.isLink :=
      hchosen e List.mem_cons_self i (path_of_isItemOf (hi ▸ hitem).isItemOf)
    rw [← filterMap_id_map (ownItem root), List.map_cons, filterMap_id_cons, filterMap_id_cons,
      filterMap_id_map, List.filter_append, hrest]
    cases hlink : e.2.isLink with
    | false =>
      obtain rfl := (isMadeOf_own hlink).mp hitem
      cases hown : ownItem root e with
      | none => rfl
      | some i => simp [hpath i hown, hlink]
    | true =>
      have hown : ownItem root e = none := by
        obtain ⟨name, child⟩ := e
        obtain ⟨modified, target, rfl⟩ := Node.exists_link hlink
        rfl
      cases item with
      | none => simp [hown]
      | some i => simp [hown, hpath i rfl, hlink]

/-- If an entry becomes a leaf more than on its own account where `more` holds, the number of leaves
grows by as many. -/
theorem length_leaves_of_forall₂ {more : Bytes × Node → Bool} {found : List (Option WalkItem)}
    (h : List.Forall₂ (fun e item => (item.bind WalkItem.leaf?).toList.length =
      ((ownItem root e).bind WalkItem.leaf?).toList.length + (more e).toNat) es found) :
    ((found.filterMap id).filterMap WalkItem.leaf?).length =
      ((es.filterMap (ownItem root)).filterMap WalkItem.leaf?).length + es.countP more := by
  have hleaf (item : Option WalkItem) :
      item.toList.filterMap WalkItem.leaf? = (item.bind WalkItem.leaf?).toList := by
    cases item with
    | none => rfl
    | some i => cases hi : i.leaf? <;> simp [hi]
  rw [← filterMap_id_map (ownItem root)]
  induction h with
  | nil => rfl
  | @cons e item es found hitem _ ih =>
    rw [List.map_cons, filterMap_id_cons, filterMap_id_cons, List.filterMap_append,
      List.filterMap_append, hleaf, hleaf, List.length_append, List.length_append, hitem, ih,
      List.countP_cons]
    cases more e <;> simp <;> omega

theorem length_leaf_copiedItem (e : Bytes × Node) :
    ((copiedItem root e).bind WalkItem.leaf?).toList.length =
      ((ownItem root e).bind WalkItem.leaf?).toList.length + e.2.isLink.toNat := by
  obtain ⟨name, node⟩ := e
  cases node <;> rfl

theorem IsMadeOf.length_leaf (hpolicy : options.symlinks = .follow) {e : Bytes × Node}
    {item : Option WalkItem} (h : IsMadeOf fs options root here e item) :
    (item.bind WalkItem.leaf?).toList.length =
      ((ownItem root e).bind WalkItem.leaf?).toList.length +
        (endsInFile fs options.maxLinkDepth here e).toNat := by
  obtain ⟨name, node⟩ := e
  cases node with
  | link modified target =>
    obtain ⟨ending, hend, hitem⟩ := (isMadeOf_followed hpolicy).mp h
    rw [endsInFile, hend]
    cases hitem <;> rfl
  | file modified content => exact h ▸ rfl
  | directory isOpen es => exact h ▸ rfl
  | special => exact h ▸ rfl

end Walk

namespace Snapshot

open Walk

variable {algorithm : HashAlgorithm} {fs : FileSystem} {options : SnapshotOptions} {root : Path}
  {here : Location} {es : List (Bytes × Node)}

/-- What the policies make of a directory at `here` that lists the entries `es`. -/
structure DifferInLinks (algorithm : HashAlgorithm) (fs : FileSystem) (options : SnapshotOptions)
    (root : Path) (here : Location) (es : List (Bytes × Node)) : Prop where
  ignored : result (walk fs { options with symlinks := .ignore } root) =
    .ok (es.filterMap (ownItem root))
  copied : result (walk fs { options with symlinks := .copy } root) =
    .ok (es.filterMap (copiedItem root))
  followed : ∀ items, result (walk fs { options with symlinks := .follow } root) = .ok items →
    ∃ found, List.Forall₂ (IsMadeOf fs { options with symlinks := .follow } root here) es found ∧
      items = found.filterMap id
  others : ∀ policy items, result (walk fs { options with symlinks := policy } root) = .ok items →
    items.filter (fun item => !isOfLink root es item) = es.filterMap (ownItem root)
  ends : ∀ name modified target ending, (name, .link modified target) ∈ es →
    fs.chainEnd? options.maxLinkDepth here target = some ending →
    fs.stat (root.join name) ≠ .error .tooManyLinks → fs.stat (root.join name) = ending
  counts : ∃ ignored copied,
    result (take algorithm fs { options with symlinks := .ignore } root) = .ok ignored ∧
      result (take algorithm fs { options with symlinks := .copy } root) = .ok copied ∧
      copied.entryCount = ignored.entryCount + es.countP (·.2.isLink) ∧
      ∀ followed, result (take algorithm fs { options with symlinks := .follow } root) =
        .ok followed → followed.entryCount =
          ignored.entryCount + es.countP (endsInFile fs options.maxLinkDepth here)

theorem exists_directoryName (hlocation : fs.canonicalLocation root = .ok here) :
    ∃ name, directoryName fs root = .ok name := by
  rw [directoryName]
  cases root.fileName? with
  | some name => exact ⟨_, rfl⟩
  | none =>
    rw [canonicalText_of_canonicalLocation hlocation]
    dsimp only
    split <;> exact ⟨_, rfl⟩

theorem entryCount_of_take {s : Snapshot} {items : List WalkItem}
    (h : result (take algorithm fs options root) = .ok s)
    (hitems : result (walk fs options root) = .ok items) :
    s.entryCount = (items.filterMap WalkItem.leaf?).length := by
  obtain ⟨items', hitems', hrecords⟩ := records_of_take h
  obtain rfl := Except.ok.inj (hitems.symm.trans hitems')
  exact (List.length_map _).symm.trans hrecords.onePerLeaf.length_eq

/-- Two snapshots differ in size by the leaves that one policy makes more of the same entries. -/
theorem entryCount_of_more {options' : SnapshotOptions} {s t : Snapshot}
    {found : List (Option WalkItem)} {more : Bytes × Node → Bool}
    (hs : result (take algorithm fs options root) = .ok s)
    (hown : result (walk fs options root) = .ok (es.filterMap (ownItem root)))
    (ht : result (take algorithm fs options' root) = .ok t)
    (hfound : result (walk fs options' root) = .ok (found.filterMap id))
    (h : List.Forall₂ (fun e item => (item.bind WalkItem.leaf?).toList.length =
      ((ownItem root e).bind WalkItem.leaf?).toList.length + (more e).toNat) es found) :
    t.entryCount = s.entryCount + es.countP more := by
  rw [entryCount_of_take hs hown, entryCount_of_take ht hfound]
  exact length_leaves_of_forall₂ h

/-- In every directory that can be listed and whose entries can be read, the policies differ in what
becomes of links, and in nothing else. -/
theorem differInLinks_of_list (options : SnapshotOptions)
    (hlocate : fs.locate root true = .ok here) (hlist : fs.list root = .ok es)
    (hlstat : ∀ e ∈ es, ∃ node, fs.lstat (root.join e.1) = .ok node) :
    DifferInLinks algorithm fs options root here es := by
  obtain ⟨location, hlocation, hdirectory⟩ := FileSystem.list_eq_ok_iff.mp hlist
  obtain rfl : here = location := Except.ok.inj (hlocate.symm.trans hlocation)
  obtain ⟨hnodup, hentries⟩ :=
    Node.isWellFormed_directory.mp (FileSystem.isWellFormed_of_nodeAt? hdirectory)
  have hignored : result (walk fs { options with symlinks := .ignore } root) =
      .ok (es.filterMap (ownItem root)) := walk_ignored rfl hlist hlstat
  have hcopied : result (walk fs { options with symlinks := .copy } root) =
      .ok (es.filterMap (copiedItem root)) := walk_copied rfl hlocate hlist hlstat
  constructor
  case ignored => exact hignored
  case copied => exact hcopied
  case followed => exact fun items h => isMadeOf_of_list hlocate hlist h
  case others =>
    intro policy items h
    obtain ⟨found, hfound, rfl⟩ := isMadeOf_of_list hlocate hlist h
    refine filter_of_made hfound fun e he item hpath => ?_
    rw [isOfLink_eq hnodup (fun f hf => (hentries f hf).1) he hpath]
  case ends =>
    intro name modified target ending hentry hend hfew
    obtain ⟨node, hnode⟩ := hlstat _ hentry
    have hsearch := FileSystem.search_eq_ok_iff.mpr ⟨es, hdirectory, rfl⟩
    exact FileSystem.stat_entry_eq hlocate hsearch hentry hnode hend hfew
  case counts =>
    obtain ⟨name, hname⟩ :=
      exists_directoryName (FileSystem.canonicalLocation_of_list hlocate hlist)
    obtain ⟨ignored, htakeIgnored⟩ : ∃ s,
      result (take algorithm fs { options with symlinks := .ignore } root) = .ok s :=
        exists_take hignored hname
    obtain ⟨copied, htakeCopied⟩ : ∃ s,
      result (take algorithm fs { options with symlinks := .copy } root) = .ok s :=
        exists_take hcopied hname
    refine ⟨ignored, copied, htakeIgnored, htakeCopied, ?_, fun followed htake => ?_⟩
    · rw [← filterMap_id_map (copiedItem root)] at hcopied
      refine entryCount_of_more htakeIgnored hignored htakeCopied hcopied ?_
      exact List.forall₂_map_right_iff.mpr
        (List.forall₂_same.mpr fun e _ => length_leaf_copiedItem e)
    · obtain ⟨items, -, hitems, -⟩ := take_eq_ok_iff.mp htake
      obtain ⟨found, hfound, rfl⟩ := isMadeOf_of_list hlocate hlist hitems
      exact entryCount_of_more htakeIgnored hignored htake hitems
        (hfound.imp fun e item h => h.length_leaf rfl)

def allKinds : List (Bytes × Node) :=
  [([102], .file ⟨5, 0⟩ []), ([97], .link ⟨1, 0⟩ [102]), ([115], .emptyDirectory),
    ([98], .link ⟨2, 0⟩ [115]), ([99], .link ⟨3, 0⟩ [120]), ([112], .special),
    ([101], .link ⟨4, 0⟩ [97])]

/-- A directory `r`. Its links `a` and `e` end in a file, `b` in a directory, `c` in nothing. -/
def withAllKinds : FileSystem :=
  ⟨.bits34, .directory true [([114], .directory true allKinds)], by decide⟩

theorem list_withAllKinds : withAllKinds.list ⟨[114]⟩ = .ok allKinds := by cbv

theorem lstat_withAllKinds : ∀ e ∈ allKinds,
    ∃ node, withAllKinds.lstat ((⟨[114]⟩ : Path).join e.1) = .ok node := by
  simp only [allKinds, List.forall_mem_cons]
  refine ⟨⟨_, by cbv⟩, ⟨_, by cbv⟩, ⟨_, by cbv⟩, ⟨_, by cbv⟩, ⟨_, by cbv⟩, ⟨_, by cbv⟩, ⟨_, by cbv⟩,
    nofun⟩

theorem classify_dangling :
    result (classify withAllKinds .default ⟨[114]⟩ ([99], .link ⟨3, 0⟩ [120])) = .ok none := by
  have hread : withAllKinds.readLink ⟨[114, 47, 99]⟩ = .ok [120] := by cbv
  have hlstat : withAllKinds.lstat (linkTarget ⟨[114, 47, 99]⟩ [120]) = .error .notFound := by cbv
  show result (follow withAllKinds 32 [99] ⟨[114, 47, 99]⟩ (31 + 1) ⟨[114, 47, 99]⟩) = _
  rw [result_follow_succ, hread]
  dsimp only
  rw [hlstat]

theorem walk_withAllKinds : ∃ items, result (walk withAllKinds .default ⟨[114]⟩) = .ok items := by
  refine ⟨_, walk_eq_ok_iff.mpr ⟨allKinds,
    [some (.leaf ⟨[102], ⟨[114, 47, 102]⟩, ⟨5, 0⟩, .file⟩),
      some (.leaf ⟨[97], ⟨[114, 47, 97]⟩, ⟨5, 0⟩, .followedSymlink ⟨[114, 47, 102]⟩⟩),
      some (.directory ⟨[114, 47, 115]⟩), some (.directory ⟨[114, 47, 98]⟩), none, none,
      some (.leaf ⟨[101], ⟨[114, 47, 101]⟩, ⟨5, 0⟩, .followedSymlink ⟨[114, 47, 102]⟩⟩)],
    list_withAllKinds, ?_, rfl⟩⟩
  exact .cons (by cbv) (.cons (by cbv) (.cons (by cbv) (.cons (by cbv) (.cons classify_dangling
    (.cons rfl (.cons (by cbv) .nil))))))

theorem entryCount_withAllKinds : ∃ ignored copied followed,
    result (take leadingBytes withAllKinds ⟨.ignore, .name, 32⟩ ⟨[114]⟩) = .ok ignored ∧
      result (take leadingBytes withAllKinds ⟨.copy, .name, 32⟩ ⟨[114]⟩) = .ok copied ∧
      result (take leadingBytes withAllKinds ⟨.follow, .name, 32⟩ ⟨[114]⟩) = .ok followed ∧
      copied.entryCount = ignored.entryCount + 4 ∧
      followed.entryCount = ignored.entryCount + 2 := by
  have hlocate : withAllKinds.locate ⟨[114]⟩ true = .ok [[114]] := by cbv
  obtain ⟨items, hitems⟩ := walk_withAllKinds
  obtain ⟨name, hname⟩ :=
    exists_directoryName (FileSystem.canonicalLocation_of_list hlocate list_withAllKinds)
  obtain ⟨followed, hfollowed⟩ : ∃ s, result (take leadingBytes withAllKinds .default ⟨[114]⟩) =
    .ok s := exists_take hitems hname
  obtain ⟨ignored, copied, hignored, hcopied, hlinks, hfiles⟩ :=
    (differInLinks_of_list .default hlocate list_withAllKinds lstat_withAllKinds).counts
  have hcount : allKinds.countP
      (endsInFile withAllKinds SnapshotOptions.default.maxLinkDepth [[114]]) = 2 := by cbv
  have hfiles := hfiles followed hfollowed
  rw [hcount] at hfiles
  exact ⟨ignored, copied, followed, hignored, hcopied, hfollowed, hlinks, hfiles⟩

end Snapshot
end MerkleDir
