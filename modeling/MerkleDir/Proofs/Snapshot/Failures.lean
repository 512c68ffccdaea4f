import MerkleDir.Proofs.Snapshot.History

/-!
# Enumerations that fail

An enumeration may fail at its root, in the listing, at an entry, along a chain of links, or when all
else is done and only the name of the directory is missing. Wherever it fails, the snapshot stays what
it was. So a snapshot shows what a fresh one would have shown when it was last enumerated with success,
and nothing of what was there before.
-/
namespace MerkleDir

open Logged (result)

theorem result_mapM_eq_error {ε α β : Type} {f : α → ExceptT ε Logged β} {xs : List α} {e : ε} :
    result (xs.mapM f) = .error e ↔ ∃ before x after, xs = before ++ x :: after ∧
      (∀ b ∈ before, ∃ y, result (f b) = .ok y) ∧ result (f x) = .error e := by
  induction xs with
  | nil => simp
  | cons x xs ih =>
    have hrest (y : β) : result (xs.mapM f >>= fun ys => pure (y :: ys)) = .error e ↔
        result (xs.mapM f) = .error e := by
      rw [Logged.result_bind_eq_error]
      simp
    rw [List.mapM_cons, Logged.result_bind_eq_error]
    simp only [hrest]
    constructor
    · rintro (h | ⟨y, hy, h⟩)
      · exact ⟨[], x, xs, rfl, nofun, h⟩
      · obtain ⟨before, z, after, rfl, hbefore, hz⟩ := ih.mp h
        exact ⟨x :: before, z, after, rfl, List.forall_mem_cons.mpr ⟨⟨y, hy⟩, hbefore⟩, hz⟩
    · rintro ⟨before, z, after, hsplit, hbefore, hz⟩
      cases before with
      | nil =>
        obtain ⟨rfl, -⟩ := List.cons.inj hsplit
        exact Or.inl hz
      | cons b before =>
        obtain ⟨rfl, rfl⟩ := List.cons.inj hsplit
        obtain ⟨⟨y, hy⟩, hbefore⟩ := List.forall_mem_cons.mp hbefore
        exact Or.inr ⟨y, hy, ih.mpr ⟨before, z, after, rfl, hbefore, hz⟩⟩

variable {fs later : FileSystem} {options : SnapshotOptions} {root : Path} {e : SnapshotError}

namespace Walk

/-- How an entry of a listing fails: its metadata cannot be read, or its chain of links cannot be
followed. -/
inductive EntryFails (fs : FileSystem) (options : SnapshotOptions) (root : Path) :
    Bytes × Node → SnapshotError → Prop
  | metadata {name : Bytes} {modified : Timestamp} {content : Bytes} {cause : OsError}
      (h : fs.lstat (root.join name) = .error cause) :
      EntryFails fs options root (name, .file modified content)
        (.filesystem (root.join name) (.listing (root.join name) cause))
  | linkMetadata {name : Bytes} {modified : Timestamp} {target : Bytes} {cause : OsError}
      (hpolicy : options.symlinks = .copy) (h : fs.lstat (root.join name) = .error cause) :
      EntryFails fs options root (name, .link modified target)
        (.filesystem (root.join name) (.os cause))
  | chain {name : Bytes} {modified : Timestamp} {target : Bytes} {e : SnapshotError}
      (hpolicy : options.symlinks = .follow)
      (h : result (follow fs options.maxLinkDepth name (root.join name) options.maxLinkDepth
        (root.join name)) = .error e) :
      EntryFails fs options root (name, .link modified target) e

theorem classify_eq_error_iff {entry : Bytes × Node} :
    result (classify fs options root entry) = .error e ↔ EntryFails fs options root entry e := by
  obtain ⟨name, node⟩ := entry
  cases node with
  | directory isOpen es => refine iff_of_false (fun h => ?_) (fun h => ?_) <;> cases h
  | special => refine iff_of_false (fun h => ?_) (fun h => ?_) <;> cases h
  | file modified content =>
    constructor
    · intro h
      simp only [classify] at h
      split at h
      · cases h
      · rename_i cause hlstat
        rw [Attempt.result_fail, Except.error.injEq] at h
        exact h ▸ .metadata hlstat
    · rintro ⟨hlstat⟩
      simp only [classify, hlstat, Attempt.result_fail]
  | link modified target =>
    cases hpolicy : options.symlinks with
    | ignore =>
      simp only [classify, hpolicy]
      refine iff_of_false (fun h => by cases h) ?_
      rintro (_ | ⟨hcopy, -⟩ | ⟨hfollow, -⟩)
      · cases hpolicy.symm.trans hcopy
      · cases hpolicy.symm.trans hfollow
    | copy =>
      simp only [classify, hpolicy, Logged.result_bind, Attempt.result_ofOs]
      constructor
      · intro h
        cases hlstat : fs.lstat (root.join name) with
        | error cause =>
          rw [hlstat] at h
          exact Except.error.inj h ▸ .linkMetadata hpolicy hlstat
        | ok node =>
          rw [hlstat] at h
          cases node <;> cases h
      · rintro (_ | ⟨-, hlstat⟩ | ⟨hfollow, -⟩)
        · rw [hlstat]
          rfl
        · cases hpolicy.symm.trans hfollow
    | follow =>
      simp only [classify, hpolicy]
      refine ⟨.chain hpolicy, ?_⟩
      rintro (_ | ⟨hcopy, -⟩ | ⟨-, h⟩)
      · cases hpolicy.symm.trans hcopy
      · exact h

end Walk

inductive WalkFails (fs : FileSystem) (options : SnapshotOptions) (root : Path) :
    SnapshotError → Prop
  | stat {cause : OsError} (h : fs.stat root = .error cause) :
      WalkFails fs options root (.filesystem root (.os cause))
  | notADirectory {node : Node} (h : fs.stat root = .ok node) (hnode : node.isDirectory = false) :
      WalkFails fs options root (.notADirectory root)
  | listing {node : Node} {cause : OsError} (hstat : fs.stat root = .ok node)
      (hnode : node.isDirectory = true) (h : fs.list root = .error cause) :
      WalkFails fs options root (.filesystem root (.listing root cause))
  | entry {before after : List (Bytes × Node)} {entry : Bytes × Node} {e : SnapshotError}
      (hlist : fs.list root = .ok (before ++ entry :: after))
      (hbefore : ∀ other ∈ before, ∃ item, result (Walk.classify fs options root other) = .ok item)
      (h : Walk.EntryFails fs options root entry e) : WalkFails fs options root e

theorem walk_of_stat {node : Node} (h : fs.stat root = .ok node) :
    result (walk fs options root) = if node.isDirectory then
        match fs.list root with
        | .error cause => .error (.filesystem root (.listing root cause))
        | .ok es => (result (es.mapM (Walk.classify fs options root))).map (·.filterMap id)
      else .error (.notADirectory root) := by
  rw [walk, Logged.result_bind, Attempt.result_ofOs, h]
  cases node with
  | directory isOpen es =>
    show result _ = _
    dsimp only [Node.isDirectory, if_true]
    cases fs.list root with
    | error cause => rfl
    | ok es =>
      dsimp only
      rw [Logged.result_bind]
      cases result (es.mapM (Walk.classify fs options root)) <;> rfl
  | file => rfl
  | link => rfl
  | special => rfl

theorem walk_of_list {es : List (Bytes × Node)} (h : fs.list root = .ok es) :
    result (walk fs options root) =
      (result (es.mapM (Walk.classify fs options root))).map (·.filterMap id) := by
  obtain ⟨location, hlocate, hnode⟩ := FileSystem.list_eq_ok_iff.mp h
  rw [walk_of_stat (FileSystem.stat_of_locate hlocate hnode), h]
  rfl

theorem walk_eq_error_iff :
    result (walk fs options root) = .error e ↔ WalkFails fs options root e := by
  have hentries {es : List (Bytes × Node)} (hlist : fs.list root = .ok es) :
      result (walk fs options root) = .error e ↔
        result (es.mapM (Walk.classify fs options root)) = .error e := by
    rw [walk_of_list hlist]
    cases result (es.mapM (Walk.classify fs options root)) <;> simp [Except.map]
  constructor
  · intro h
    cases hstat : fs.stat root with
    | error cause =>
      rw [walk, Logged.result_bind, Attempt.result_ofOs, hstat] at h
      exact Except.error.inj h ▸ .stat hstat
    | ok node =>
      cases hlist : fs.list root with
      | error cause =>
        rw [walk_of_stat hstat, hlist] at h
        cases hnode : node.isDirectory with
        | false =>
          rw [hnode] at h
          exact Except.error.inj h ▸ .notADirectory hstat hnode
        | true =>
          rw [hnode] at h
          exact Except.error.inj h ▸ .listing hstat hnode hlist
      | ok es =>
        obtain ⟨before, entry, after, rfl, hbefore, hentry⟩ :=
          result_mapM_eq_error.mp ((hentries hlist).mp h)
        exact .entry hlist hbefore (Walk.classify_eq_error_iff.mp hentry)
  · rintro (⟨hstat⟩ | ⟨hstat, hnode⟩ | ⟨hstat, hnode, hlist⟩ | ⟨hlist, hbefore, hentry⟩)
    · rw [walk, Logged.result_bind, Attempt.result_ofOs, hstat]
      rfl
    · rw [walk_of_stat hstat, hnode]
      rfl
    · rw [walk_of_stat hstat, hnode, hlist]
      rfl
    · exact (hentries hlist).mpr (result_mapM_eq_error.mpr
        ⟨_, _, _, rfl, hbefore, Walk.classify_eq_error_iff.mpr hentry⟩)

namespace Snapshot

variable {algorithm : HashAlgorithm} {s : Snapshot}

/-- How an enumeration fails: in its walk, which sees `fs`, or when the name of the directory is
resolved afterwards, in what the file system has become by then. -/
inductive FailsWith (fs later : FileSystem) (options : SnapshotOptions) (root : Path) :
    SnapshotError → Prop
  | walk {e : SnapshotError} (h : WalkFails fs options root e) : FailsWith fs later options root e
  | name {items : List WalkItem} {e : SnapshotError}
      (hwalk : result (MerkleDir.walk fs options root) = .ok items)
      (h : directoryName later root = .error e) : FailsWith fs later options root e

/-- Takes a snapshot while the file system changes: the walk sees `fs`, and the name of the directory
is resolved in `later`. -/
def takeChanging (algorithm : HashAlgorithm) (fs later : FileSystem) (options : SnapshotOptions)
    (root : Path) : Attempt Snapshot := do
  ofWalk algorithm later options root (← walkReported fs options root)

def enumerateChanging (algorithm : HashAlgorithm) (fs later : FileSystem) (s : Snapshot)
    (root : Path) : Snapshot × Except SnapshotError (List Path) :=
  match result (takeChanging algorithm fs later s.options root) with
  | .ok next => (next, .ok next.subdirectories)
  | .error e => (s, .error e)

theorem result_takeChanging_self : result (takeChanging algorithm fs fs options root) =
    result (take algorithm fs options root) := by
  rw [result_take, takeChanging, Logged.result_bind]

/-- If the file system stands still, this is the enumeration of the program. -/
theorem value_enumerate_eq (fs : FileSystem) (s : Snapshot) (root : Path) :
    (enumerate algorithm fs s root).value = enumerateChanging algorithm fs fs s root := by
  rw [enumerateChanging, result_takeChanging_self]
  exact value_enumerate fs s root

theorem takeChanging_eq_error_iff :
    result (takeChanging algorithm fs later options root) = .error e ↔
      FailsWith fs later options root e := by
  have hname (items : List WalkItem) :
      result (ofWalk algorithm later options root items) = .error e ↔
        directoryName later root = .error e := by
    rw [result_ofWalk]
    cases directoryName later root <;> simp [Except.map]
  rw [takeChanging, Logged.result_bind_eq_error, result_walkReported, walk_eq_error_iff]
  simp only [hname]
  constructor
  · rintro (h | ⟨items, hwalk, h⟩)
    · exact .walk h
    · exact .name hwalk h
  · rintro (h | ⟨hwalk, h⟩)
    · exact Or.inl h
    · exact Or.inr ⟨_, hwalk, h⟩

structure SameButPolicy (s t : Snapshot) : Prop where
  path : s.path = t.path
  name : s.name = t.name
  options : s.options = { t.options with symlinks := s.options.symlinks }
  entries : s.entries = t.entries
  byDigest : s.byDigest = t.byDigest
  subdirectories : s.subdirectories = t.subdirectories
  tree : s.tree = t.tree
  digest : s.digest = t.digest

theorem sameButPolicy_setSymlinkPolicy (s : Snapshot) (policy : SymlinkPolicy) :
    (s.setSymlinkPolicy policy).SameButPolicy s :=
  ⟨rfl, rfl, rfl, rfl, rfl, rfl, rfl, rfl⟩

def IsFresh (algorithm : HashAlgorithm) (e : Enumeration) (fresh : Snapshot) : Prop :=
  (enumerate algorithm e.fs (initial e.options) e.root).value = (fresh, .ok fresh.subdirectories)

theorem isFresh_of_take {e : Enumeration} {fresh : Snapshot}
    (h : result (take algorithm e.fs e.options e.root) = .ok fresh) : IsFresh algorithm e fresh := by
  rw [IsFresh, value_enumerate, show (initial e.options).options = e.options from rfl, h]

/-- A snapshot is an initial one, or shows what a fresh one showed when it was last enumerated with
success. -/
def Held.ShowsLast (algorithm : HashAlgorithm) (held : Held) : Prop :=
  match held.last with
  | none => held.snapshot = initial held.snapshot.options
  | some e => ∃ fresh, IsFresh algorithm e fresh ∧ held.snapshot.SameButPolicy fresh

theorem Held.IsMade.showsLast {held : Held} (h : held.IsMade algorithm) :
    held.ShowsLast algorithm := by
  obtain ⟨snapshot, last⟩ := held
  obtain ⟨made, policy, rfl, hlast⟩ := h
  cases last with
  | none =>
    obtain ⟨options, rfl⟩ := hlast
    rfl
  | some e => exact ⟨made, isFresh_of_take hlast, sameButPolicy_setSymlinkPolicy made policy⟩

/-- Whatever was done before, a snapshot shows its last successful enumeration and nothing else. An
enumeration that fails, be it in the end, leaves all of it as it was, and a change of policy leaves
all but the policy. -/
theorem showsLast_of_history (actions : List Action) {held : Held}
    (hheld : held ∈ history algorithm actions) :
    held.ShowsLast algorithm ∧
      (∀ fs later root e,
        ((enumerateChanging algorithm fs later held.snapshot root).2 = .error e ↔
          FailsWith fs later held.snapshot.options root e) ∧
        (FailsWith fs later held.snapshot.options root e →
          (enumerateChanging algorithm fs later held.snapshot root).1 = held.snapshot)) ∧
      ∀ policy, (held.snapshot.setSymlinkPolicy policy).SameButPolicy held.snapshot ∧
        (held.snapshot.setSymlinkPolicy policy).options.symlinks = policy := by
  refine ⟨(isMade_history actions held hheld).showsLast, fun fs later root e => ?_,
    fun policy => ⟨sameButPolicy_setSymlinkPolicy _ policy, rfl⟩⟩
  have hfails : result (takeChanging algorithm fs later held.snapshot.options root) = .error e ↔
      FailsWith fs later held.snapshot.options root e := takeChanging_eq_error_iff
  rw [← hfails, enumerateChanging]
  cases result (takeChanging algorithm fs later held.snapshot.options root) with
  | ok next => exact ⟨⟨nofun, nofun⟩, nofun⟩
  | error cause => simp

def aboveD : Path := ⟨[100, 47, 46, 46]⟩

theorem failsWith_aboveD : FailsWith withGAndF .empty ⟨.copy, .enumeration, 32⟩ aboveD
    (.filesystem aboveD (.os .notFound)) := by
  have hwalk : result (walk withGAndF ⟨.copy, .enumeration, 32⟩ aboveD) =
      .ok [.directory (aboveD.join [100])] := by cbv
  exact .name hwalk (by cbv)

theorem showsLast_copiedAfterFailure :
    (⟨collided.setSymlinkPolicy .copy, some ⟨withGAndF, listed, ⟨[100]⟩⟩⟩ : Held) ∈
        history constantHash copiedAfterFailure ∧
      (∃ fresh, IsFresh constantHash ⟨withGAndF, listed, ⟨[100]⟩⟩ fresh ∧
        (collided.setSymlinkPolicy .copy).SameButPolicy fresh) ∧
      (enumerateChanging constantHash withGAndF .empty (collided.setSymlinkPolicy .copy) aboveD).1 =
        collided.setSymlinkPolicy .copy := by
  have hheld : (⟨collided.setSymlinkPolicy .copy, some ⟨withGAndF, listed, ⟨[100]⟩⟩⟩ : Held) ∈
      history constantHash copiedAfterFailure := by simp [history_copiedAfterFailure]
  obtain ⟨hshows, hfails, -⟩ := showsLast_of_history copiedAfterFailure hheld
  exact ⟨hheld, hshows, (hfails withGAndF .empty aboveD _).2 failsWith_aboveD⟩

end Snapshot
end MerkleDir
