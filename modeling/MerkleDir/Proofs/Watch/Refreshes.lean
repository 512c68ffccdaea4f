import MerkleDir.Proofs.Changes.Replay
import MerkleDir.Watch.Directory

namespace MerkleDir

open Logged (result)
open ChangeSet (AllApart Follows Update latest replay)

namespace Snapshot

variable {algorithm : HashAlgorithm} {fs : FileSystem} {options : SnapshotOptions} {root : Path}
  {s : Snapshot}

theorem name_of_take (h : result (take algorithm fs options root) = .ok s) {name : Bytes}
    (hroot : root.fileName? = some name) : s.name = displayName name := by
  obtain ⟨items, shown, -, hname, rfl⟩ := take_eq_ok_iff.mp h
  rw [directoryName, hroot] at hname
  exact (Except.ok.inj hname).symm

end Snapshot

namespace WatchedDirectory

variable {algorithm : HashAlgorithm} {dir last after : WatchedDirectory} {fs : FileSystem}

theorem value_refresh (dir : WatchedDirectory) (fs : FileSystem) :
    (dir.refresh algorithm fs).value =
      match result (Snapshot.take algorithm fs dir.options dir.root) with
      | .error e => (dir, .error e)
      | .ok fresh =>
        ({ dir with current := fresh }, .ok (ChangeSet.between dir.current fresh).value) := by
  rw [refresh, Logged.value_bind, result]
  cases (Snapshot.take algorithm fs dir.options dir.root).run.value with
  | error e => rfl
  | ok fresh =>
    dsimp only
    rw [Logged.value_bind]
    split <;> rfl

/-- A refresh leaves the directory as it was, or puts a fresh snapshot in place and returns what has
changed. -/
theorem refresh_cases {outcome : Except SnapshotError ChangeSet}
    (h : (dir.refresh algorithm fs).value = (after, outcome)) :
    (after = dir ∧ ∃ e, outcome = .error e) ∨
      ∃ fresh, result (Snapshot.take algorithm fs dir.options dir.root) = .ok fresh ∧
        after = { dir with current := fresh } ∧
        outcome = .ok (ChangeSet.between dir.current fresh).value := by
  rw [value_refresh] at h
  cases htake : result (Snapshot.take algorithm fs dir.options dir.root) with
  | error e =>
    rw [htake] at h
    obtain ⟨hafter, houtcome⟩ := Prod.mk.inj h
    exact Or.inl ⟨hafter.symm, e, houtcome.symm⟩
  | ok fresh =>
    rw [htake] at h
    obtain ⟨hafter, houtcome⟩ := Prod.mk.inj h
    exact Or.inr ⟨fresh, rfl, hafter.symm, houtcome.symm⟩

def IsSnapshotOf (algorithm : HashAlgorithm) (dir : WatchedDirectory) (s : Snapshot) : Prop :=
  ∃ fs, result (Snapshot.take algorithm fs dir.options dir.root) = .ok s

theorem start_eq_ok {options : SnapshotOptions} {root : Path}
    (h : result (start algorithm fs options root) = .ok dir) :
    dir.root = root ∧ dir.options = options ∧
      result (Snapshot.take algorithm fs options root) = .ok dir.current := by
  rw [start, Logged.result_bind_eq_ok] at h
  obtain ⟨s, hs, hdir⟩ := h
  obtain rfl := Except.ok.inj hdir
  exact ⟨rfl, rfl, hs⟩

/-- A refresh as it was made: the directory before and after it, the file system and the number of
its enumeration, and what it has returned. -/
structure Call where
  before : WatchedDirectory
  fs : FileSystem
  number : Nat
  outcome : Except SnapshotError ChangeSet
  after : WatchedDirectory

namespace Call

def IsFailed (call : Call) : Prop := ∃ e, call.outcome = .error e

def update? (call : Call) : Option Update :=
  call.outcome.toOption.map fun changes => ⟨changes, call.after.current⟩

end Call

def updates (calls : List Call) : List Update := calls.filterMap Call.update?

theorem updates_cons_error {call : Call} {e : SnapshotError} (h : call.outcome = .error e)
    (calls : List Call) : updates (call :: calls) = updates calls :=
  List.filterMap_cons_none (by rw [Call.update?, h]; rfl)

theorem updates_cons_ok {call : Call} {changes : ChangeSet} (h : call.outcome = .ok changes)
    (calls : List Call) :
    updates (call :: calls) = ⟨changes, call.after.current⟩ :: updates calls :=
  List.filterMap_cons_some (by rw [Call.update?, h]; rfl)

def shown (dir : WatchedDirectory) (calls : List Call) : List Snapshot :=
  dir.current :: (updates calls).map Update.snapshot

/-- Each call begins where the one before has ended, and does what a refresh does. -/
inductive Performed (algorithm : HashAlgorithm) :
    WatchedDirectory → List Call → WatchedDirectory → Prop where
  | nil (dir : WatchedDirectory) : Performed algorithm dir [] dir
  | cons {call : Call} {calls : List Call} {last : WatchedDirectory}
      (refreshed : (call.before.refresh algorithm call.fs).value = (call.after, call.outcome))
      (rest : Performed algorithm call.after calls last) :
      Performed algorithm call.before (call :: calls) last

namespace Performed

variable {calls later : List Call}

theorem append {middle : WatchedDirectory} (h : Performed algorithm dir calls middle)
    (hlater : Performed algorithm middle later last) :
    Performed algorithm dir (calls ++ later) last := by
  induction h with
  | nil => exact hlater
  | cons refreshed _ ih => exact .cons refreshed (ih hlater)

theorem exists_of_append (h : Performed algorithm dir (calls ++ later) last) :
    ∃ middle, Performed algorithm dir calls middle ∧ Performed algorithm middle later last := by
  induction calls generalizing dir with
  | nil => exact ⟨dir, .nil dir, h⟩
  | cons call calls ih =>
    cases h with
    | cons refreshed rest =>
      obtain ⟨middle, hcalls, hlater⟩ := ih rest
      exact ⟨middle, .cons refreshed hcalls, hlater⟩

theorem refreshed_of_mem (h : Performed algorithm dir calls last) {call : Call}
    (hcall : call ∈ calls) :
    (call.before.refresh algorithm call.fs).value = (call.after, call.outcome) := by
  induction h with
  | nil => cases hcall
  | cons refreshed _ ih =>
    rcases List.mem_cons.mp hcall with rfl | hcall
    · exact refreshed
    · exact ih hcall

theorem root_options (h : Performed algorithm dir calls last) :
    last.root = dir.root ∧ last.options = dir.options := by
  induction h with
  | nil => exact ⟨rfl, rfl⟩
  | cons refreshed _ ih =>
    rcases refresh_cases refreshed with ⟨hafter, -⟩ | ⟨fresh, -, hafter, -⟩
    · exact hafter ▸ ih
    · exact ⟨ih.1.trans (by rw [hafter]), ih.2.trans (by rw [hafter])⟩

theorem eq_of_failed (h : Performed algorithm dir calls last)
    (hfailed : ∀ call ∈ calls, call.IsFailed) : last = dir := by
  induction h with
  | nil => rfl
  | @cons call calls last refreshed _ ih =>
    obtain ⟨⟨e, he⟩, hrest⟩ := List.forall_mem_cons.mp hfailed
    rcases refresh_cases refreshed with ⟨hafter, -⟩ | ⟨fresh, -, -, houtcome⟩
    · rw [ih hrest, hafter]
    · rw [he] at houtcome
      cases houtcome

theorem take_of_getLast? (h : Performed algorithm dir calls last) {call : Call}
    (hlast : calls.getLast? = some call) (hok : ¬ call.IsFailed) :
    result (Snapshot.take algorithm call.fs dir.options dir.root) = .ok last.current := by
  induction h with
  | nil => cases hlast
  | @cons first calls last refreshed rest ih =>
    cases calls with
    | nil =>
      obtain rfl : first = call := Option.some_inj.mp hlast
      rw [rest.eq_of_failed (List.forall_mem_nil _)]
      rcases refresh_cases refreshed with ⟨-, hfailed⟩ | ⟨fresh, htake, hafter, -⟩
      · exact absurd hfailed hok
      · rw [htake, hafter]
    | cons next calls =>
      rw [List.getLast?_cons_cons] at hlast
      have hroot := (Performed.cons refreshed (.nil _)).root_options
      rw [← hroot.1, ← hroot.2]
      exact ih hlast

/-- The updates follow each other, and the snapshot that is shown is that of the last. -/
theorem follows_updates (h : Performed algorithm dir calls last) :
    Follows dir.current (updates calls) ∧ latest dir.current (updates calls) = last.current := by
  induction h with
  | nil => exact ⟨trivial, rfl⟩
  | @cons call calls last refreshed _ ih =>
    rcases refresh_cases refreshed with ⟨hafter, e, houtcome⟩ | ⟨fresh, -, hafter, houtcome⟩
    · rw [updates_cons_error houtcome, ← hafter]
      exact ih
    · rw [updates_cons_ok houtcome]
      exact ⟨⟨by rw [hafter], ih.1⟩, ih.2⟩

theorem isSnapshotOf (h : Performed algorithm dir calls last) {update : Update}
    (hupdate : update ∈ updates calls) : dir.IsSnapshotOf algorithm update.snapshot := by
  induction h with
  | nil => cases hupdate
  | @cons call calls last refreshed _ ih =>
    rcases refresh_cases refreshed with ⟨hafter, e, houtcome⟩ | ⟨fresh, htake, hafter, houtcome⟩
    · rw [updates_cons_error houtcome] at hupdate
      exact hafter ▸ ih hupdate
    · rw [updates_cons_ok houtcome] at hupdate
      rcases List.mem_cons.mp hupdate with rfl | hupdate
      · exact ⟨call.fs, by rw [htake, hafter]⟩
      · have hlater := ih hupdate
        rwa [hafter] at hlater

/-- A call that comes after failed ones finds what these have found. -/
theorem before_eq_of_failed {failed : List Call} {call : Call}
    (h : Performed algorithm dir (failed ++ call :: later) last)
    (hfailed : ∀ c ∈ failed, c.IsFailed) : ∀ c ∈ failed ++ [call], c.before = dir := by
  induction failed generalizing dir with
  | nil =>
    cases h
    exact fun c hc => by rw [List.mem_singleton.mp hc]
  | cons first failed ih =>
    obtain ⟨hfirst, hrest⟩ := List.forall_mem_cons.mp hfailed
    cases h with
    | cons refreshed rest =>
      have hsame : first.after = first.before :=
        eq_of_failed (.cons refreshed (.nil _)) (List.forall_mem_singleton.mpr hfirst)
      rw [hsame] at rest
      exact List.forall_mem_cons.mpr ⟨rfl, ih rest hrest⟩

section Shown

variable (hfirst : dir.IsSnapshotOf algorithm dir.current)

include hfirst

theorem isSnapshotOf_of_mem (h : Performed algorithm dir calls last) {s : Snapshot}
    (hs : s ∈ shown dir calls) : dir.IsSnapshotOf algorithm s := by
  rcases List.mem_cons.mp hs with rfl | hs
  · exact hfirst
  · obtain ⟨update, hupdate, rfl⟩ := List.mem_map.mp hs
    exact h.isSnapshotOf hupdate

theorem isTaken_of_mem (h : Performed algorithm dir calls last) {s : Snapshot}
    (hs : s ∈ shown dir calls) : s.IsTaken algorithm :=
  Snapshot.isTaken_of_take (h.isSnapshotOf_of_mem hfirst hs).choose_spec

theorem name_eq_of_fileName? (h : Performed algorithm dir calls last) {name : Bytes}
    (hname : dir.root.fileName? = some name) :
    ∀ s ∈ shown dir calls, s.name = dir.current.name := by
  have hshown {s : Snapshot} (hs : s ∈ shown dir calls) : s.name = displayName name :=
    Snapshot.name_of_take (h.isSnapshotOf_of_mem hfirst hs).choose_spec hname
  exact fun s hs => (hshown hs).trans (hshown List.mem_cons_self).symm

/-- The change sets lead from the digests of the first snapshot to those of the one that is shown.
-/
theorem replay_updates (h : Performed algorithm dir calls last)
    (hnames : ∀ s ∈ shown dir calls, s.name = dir.current.name)
    (hapart : AllApart algorithm (shown dir calls)) :
    replay (updates calls) dir.current.digests = some last.current.digests := by
  obtain ⟨hfollows, hlatest⟩ := h.follows_updates
  rw [← hlatest]
  exact ChangeSet.replay_eq hfollows
    (fun s hs => ⟨h.isTaken_of_mem hfirst hs, hnames s hs⟩) hapart

/-- A call that succeeds after failed ones reports all that differs from what these have found. -/
theorem isDifference {earlier failed : List Call} {call : Call} {changes : ChangeSet}
    (h : Performed algorithm dir (earlier ++ (failed ++ call :: later)) last)
    (hnames : ∀ s ∈ shown dir (earlier ++ (failed ++ call :: later)), s.name = dir.current.name)
    (hapart : AllApart algorithm (shown dir (earlier ++ (failed ++ call :: later))))
    (hfailed : ∀ c ∈ failed, c.IsFailed) (houtcome : call.outcome = .ok changes) :
    ∀ c ∈ failed ++ [call], changes.IsDifference c.before.current call.after.current := by
  intro c hc
  obtain ⟨middle, hearlier, hrest⟩ := h.exists_of_append
  have hbefore := hrest.before_eq_of_failed hfailed
  have hold : middle.current ∈ shown dir (earlier ++ (failed ++ call :: later)) := by
    rw [← hearlier.follows_updates.2, shown, updates, List.filterMap_append, List.map_append]
    exact List.mem_append_left _ (ChangeSet.latest_mem _ _)
  have hnew : call.after.current ∈ shown dir (earlier ++ (failed ++ call :: later)) := by
    refine List.mem_cons_of_mem _ (List.mem_map.mpr ⟨⟨changes, call.after.current⟩, ?_, rfl⟩)
    exact List.mem_filterMap.mpr ⟨call, by simp, by rw [Call.update?, houtcome]; rfl⟩
  have hchanges : changes = (ChangeSet.between middle.current call.after.current).value := by
    obtain ⟨found, -, hcall⟩ := hrest.exists_of_append
    cases hcall with
    | cons refreshed _ =>
      rcases refresh_cases refreshed with ⟨-, e, herror⟩ | ⟨fresh, -, hafter, hok⟩
      · rw [houtcome] at herror
        cases herror
      · rw [houtcome, hbefore call (by simp)] at hok
        rw [Except.ok.inj hok, hafter]
  rw [hbefore c hc, hchanges]
  exact ChangeSet.isDifference_between (h.isTaken_of_mem hfirst hold)
    (h.isTaken_of_mem hfirst hnew) ((hnames _ hold).trans (hnames _ hnew).symm)
    (hapart.hashesApart hold hnew)

end Shown

end Performed

def watchedD : WatchedDirectory := ⟨⟨[100]⟩, .default, Snapshot.snapshotF⟩

theorem start_withF :
    result (start Snapshot.addingBlocks Snapshot.withF .default ⟨[100]⟩) = .ok watchedD := by
  rw [start, Logged.result_bind, Snapshot.take_withF]
  rfl

end WatchedDirectory
end MerkleDir
