import MerkleDir.Proofs.Watch.Loop

/-!
# What an idle session has seen

A session that waits without an event to come shows the directory as it is, once it has refreshed
it. Before the first refresh it shows what was there when it took its first snapshot: a change made
between that and the registration is not announced, and stays unreported until another one follows.
-/
namespace MerkleDir.WatchSession

open Logged (result)
open ChangeSet (AllApart Update replay)
open Snapshot (addingBlocks hashesApart_snapshotF_snapshotG snapshotF snapshotG take_withF take_withG
  withF withG)
open WatchedDirectory (Call Performed refresh_cases shown start_withF updates updates_cons_ok
  watchedD)

variable {algorithm : HashAlgorithm} {first dir last : WatchedDirectory}

/-- Refreshes that succeed one after the other are a run over the file systems that they have seen.
-/
theorem value_run {calls : List Call} (h : Performed algorithm dir calls last)
    (hok : ∀ call ∈ calls, ¬ call.IsFailed) : (run algorithm dir (calls.map Call.fs)).value =
      ⟨last, ((updates calls).filter (!·.changes.isEmpty)).map Update.changes, none⟩ := by
  induction h with
  | nil => rfl
  | @cons call calls last refreshed rest ih =>
    obtain ⟨hcall, hcalls⟩ := List.forall_mem_cons.mp hok
    rcases refresh_cases refreshed with ⟨-, hfailed⟩ | ⟨fresh, -, hafter, houtcome⟩
    · exact absurd hfailed hcall
    · rw [houtcome] at refreshed
      rw [List.map_cons, run, Logged.value_bind, refreshed, updates_cons_ok houtcome,
        List.filter_cons]
      dsimp only
      rw [Logged.value_bind, Logged.value_pure, ih hcalls, hafter]
      cases (ChangeSet.between call.before.current fresh).value.isEmpty <;> rfl

namespace Live

variable {s : Live}

/-- The session shows the directory as it is, and what it has handed on leads to that. -/
def UpToDate (algorithm : HashAlgorithm) (first : WatchedDirectory) (s : Live) : Prop :=
  result (Snapshot.take algorithm s.fs first.options first.root) = .ok s.directory.current ∧
    replay s.handed first.current.digests = some s.directory.current.digests

/-- While a session is idle, the last refresh or else the registration has seen what is there. -/
theorem Invariant.base?_of_idle (h : s.Invariant algorithm first) (hidle : s.IsIdle) :
    s.base? = some s.fs := by
  obtain ⟨hwaiting, hqueued, hundelivered⟩ := hidle
  obtain ⟨fs, hbase, hcovers⟩ := h.covered_at hwaiting
  rw [hcovers (by rw [hqueued, hundelivered]), hbase]

theorem Invariant.handed_of_idle (h : s.Invariant algorithm first) (hidle : s.IsIdle) :
    s.handed = (updates s.refreshes).filter (!·.changes.isEmpty) := by
  rw [← h.announced, Live.announced, hidle.1]
  exact (List.append_nil _).symm

/-- A session that has refreshed the directory shows what the last refresh has seen. -/
theorem Invariant.take_base (h : s.Invariant algorithm first) {base : FileSystem}
    (hbase : s.base? = some base) (hne : s.refreshes ≠ []) :
    result (Snapshot.take algorithm base first.options first.root) = .ok s.directory.current := by
  obtain ⟨registered, -, rfl⟩ := Option.map_eq_some_iff.mp hbase
  rw [List.getLast?_eq_some_getLast hne]
  exact h.performed.take_of_getLast? (List.getLast?_eq_some_getLast hne)
    (h.succeeded _ (List.getLast_mem hne))

/-- An idle session is up to date if it has refreshed the directory, or if nothing had changed when
it was registered; and what it has done is a run over the file systems that its refreshes have seen.
-/
theorem upToDate_iff_of_idle {fs : FileSystem} {options : SnapshotOptions} {root : Path}
    (hstart : result (WatchedDirectory.start algorithm fs options root) = .ok first)
    (hrun : Run algorithm (opened first fs) s) (hidle : s.IsIdle)
    (hnames : ∀ t ∈ shown first s.refreshes, t.name = first.current.name)
    (hapart : AllApart algorithm (shown first s.refreshes)) :
    (∃ registered, s.registered = some registered ∧
      (s.UpToDate algorithm first ↔ s.refreshes ≠ [] ∨
        result (Snapshot.take algorithm registered options root) = .ok first.current)) ∧
    (WatchSession.run algorithm first (s.refreshes.map Call.fs)).value =
      ⟨s.directory, s.handed.map Update.changes, none⟩ := by
  obtain ⟨rfl, rfl, htake⟩ := WatchedDirectory.start_eq_ok hstart
  have h : s.Invariant algorithm first := invariant_of_run hrun
  have hbase := h.base?_of_idle hidle
  have hhanded := h.handed_of_idle hidle
  have hreplay : replay s.handed first.current.digests = some s.directory.current.digests := by
    rw [hhanded, ChangeSet.replay_filter]
    exact h.performed.replay_updates ⟨fs, htake⟩ hnames hapart
  obtain ⟨registered, hregistered⟩ := Option.ne_none_iff_exists'.mp (registered_ne_none hbase)
  refine ⟨⟨registered, hregistered, ?_⟩, ?_⟩
  · rw [UpToDate, and_iff_left hreplay]
    rcases eq_or_ne s.refreshes [] with hnone | hsome
    · -- nothing has changed since the registration, and the first snapshot is still shown
      have hfs : registered = s.fs := by
        rw [base?, hregistered, hnone] at hbase
        exact Option.some_inj.mp hbase
      have hdirectory : s.directory = first :=
        h.performed.eq_of_failed (by rw [hnone]; exact List.forall_mem_nil _)
      rw [hfs, hdirectory, hnone]
      simp
    · exact iff_of_true (h.take_base hbase hsome) (Or.inl hsome)
  · rw [hhanded]
    exact value_run h.performed h.succeeded

theorem register_withF : WatchSession.register withF ⟨[100]⟩ = .ok () := by cbv

theorem register_withG : WatchSession.register withG ⟨[100]⟩ = .ok () := by cbv

def updateToG : Update :=
  ⟨(ChangeSet.between snapshotF snapshotG).value, snapshotG⟩

def callToG : Call :=
  { before := watchedD
    fs := withG
    number := 1
    outcome := .ok updateToG.changes
    after := { watchedD with current := snapshotG } }

/-- A session that has registered the directory before the change, and has refreshed it after. -/
def refreshedG : Live :=
  { directory := { watchedD with current := snapshotG }
    fs := withG
    stage := .waiting
    registered := some withF
    undelivered := 0
    queued := 0
    refreshes := [callToG]
    handed := [] ++ [updateToG].filter (!·.changes.isEmpty) }

theorem run_refreshedG : Run addingBlocks (opened watchedD withF) refreshedG := by
  have registered : Run addingBlocks (opened watchedD withF)
      ⟨watchedD, withF, .waiting, some withF, 0, 0, [], []⟩ :=
    Relation.ReflTransGen.refl.tail (.register rfl register_withF)
  have changed : Run addingBlocks (opened watchedD withF)
      ⟨watchedD, withG, .waiting, some withF, 1, 0, [], []⟩ :=
    registered.tail (.changeWatched (Option.some_ne_none _) withG 0)
  have delivered : Run addingBlocks (opened watchedD withF)
      ⟨watchedD, withG, .waiting, some withF, 0, 1, [], []⟩ := changed.tail (.deliver rfl)
  have received : Run addingBlocks (opened watchedD withF)
      ⟨watchedD, withG, .settling, some withF, 0, 0, [], []⟩ := delivered.tail (.receive rfl rfl)
  have settled : Run addingBlocks (opened watchedD withF)
      ⟨watchedD, withG, .refreshing, some withF, 0, 0, [], []⟩ := received.tail (.settle rfl rfl)
  have enumerated : Run addingBlocks (opened watchedD withF)
      ⟨watchedD, withG, .enumerated withG snapshotG, some withF, 0, 0, [], []⟩ :=
    settled.tail (.enumerate rfl take_withG)
  have swapped : Run addingBlocks (opened watchedD withF)
      ⟨{ watchedD with current := snapshotG }, withG, .handling updateToG, some withF, 0, 0,
        [callToG], []⟩ := enumerated.tail (.swap rfl)
  exact swapped.tail (.handle rfl)

theorem upToDate_refreshedG : refreshedG.IsIdle ∧ refreshedG.UpToDate addingBlocks watchedD := by
  have hidle : refreshedG.IsIdle := ⟨rfl, rfl, rfl⟩
  have hshown : shown watchedD refreshedG.refreshes = [snapshotF, snapshotG] := rfl
  have hnames : ∀ t ∈ shown watchedD refreshedG.refreshes, t.name = watchedD.current.name := by
    rw [hshown]
    exact List.forall_mem_cons.mpr ⟨rfl, List.forall_mem_singleton.mpr rfl⟩
  have hapart : AllApart addingBlocks (shown watchedD refreshedG.refreshes) := by
    rw [hshown]
    exact .of_hashesApart hashesApart_snapshotF_snapshotG
  obtain ⟨⟨registered, -, hiff⟩, -⟩ :=
    upToDate_iff_of_idle start_withF run_refreshedG hidle hnames hapart
  exact ⟨hidle, hiff.mpr (Or.inl (List.cons_ne_nil _ _))⟩

/-- A session that has registered the directory after the change. -/
def registeredLate : Live := ⟨watchedD, withG, .waiting, some withG, 0, 0, [], []⟩

/-- A change between the first snapshot and the registration is not reported, however long the
session waits. -/
theorem stale_registeredLate :
    result (WatchedDirectory.start addingBlocks withF .default ⟨[100]⟩) = .ok watchedD ∧
      Run addingBlocks (opened watchedD withF) registeredLate ∧ registeredLate.IsIdle ∧
      registeredLate.handed = [] ∧
      result (Snapshot.take addingBlocks registeredLate.fs .default ⟨[100]⟩) =
        .ok snapshotG ∧
      snapshotG.digests ≠ registeredLate.directory.current.digests ∧
      ¬ registeredLate.UpToDate addingBlocks watchedD := by
  have changed : Run addingBlocks (opened watchedD withF)
      ⟨watchedD, withG, .opened, none, 0, 0, [], []⟩ :=
    Relation.ReflTransGen.refl.tail (.changeUnwatched rfl withG)
  have hdigests : snapshotG.digests ≠ registeredLate.directory.current.digests := by
    intro hsame
    have hname := congrArg Option.isSome (congrFun hsame [103])
    revert hname
    decide +kernel
  refine ⟨start_withF, changed.tail (.register rfl register_withG), ⟨rfl, rfl, rfl⟩, rfl,
    take_withG, hdigests, fun ⟨hfresh, _⟩ => ?_⟩
  exact hdigests (congrArg Snapshot.digests (Except.ok.inj (take_withG.symm.trans hfresh)))

end Live
end MerkleDir.WatchSession
