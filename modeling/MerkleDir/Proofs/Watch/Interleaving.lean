import MerkleDir.Proofs.Watch.Callers

/-!
# Interleaved refreshes account for every change

However the steps of callers, readers and the file system interleave, the change sets that are
returned lead from the first snapshot to the one that is shown, without a gap and without an
overlap, and no snapshot gives way to one that was taken earlier.
-/
namespace MerkleDir.WatchedDirectory.Shared

open Logged (result)
open ChangeSet (AllApart Update replay)
open Snapshot (addingBlocks hashesApart_snapshotF_snapshotG snapshotF snapshotG take_withG withF
  withG)

variable {Caller : Type} [DecidableEq Caller] {algorithm : HashAlgorithm}
  {first : WatchedDirectory} {s t : Shared Caller}

/-- What has been returned and shown accounts for all that has been put in place. -/
structure Accounted (algorithm : HashAlgorithm) (first : WatchedDirectory) (s : Shared Caller) :
    Prop where
  replayed : replay s.swaps first.current.digests = some s.directory.current.digests
  /-- At most one call is pending: it has put its snapshot in place and not yet returned. -/
  returned : s.swaps = updates s.calls ++ updates s.pending
  sequential : Performed algorithm first s.finished s.directory
  failed : ∀ call ∈ s.finished, call.IsFailed → call.after = call.before
  /-- A call reports what differs from what it has found, and from what any failed calls just before
it have found. -/
  missed : ∀ earlier failed call later changes,
    s.finished = earlier ++ (failed ++ call :: later) → (∀ c ∈ failed, c.IsFailed) →
      call.outcome = .ok changes →
        ∀ c ∈ failed ++ [call], changes.IsDifference c.before.current call.after.current
  /-- Calls take effect in the order of their enumerations. -/
  ascending : (s.finished.map Call.number).Pairwise (· < ·)
  neverEarlier : ∀ t, Step algorithm s t →
    (t.directory = s.directory ∧ t.number = s.number) ∨ s.number < t.number
  looked : (s.looks.map Prod.fst).Pairwise (· ≤ ·)

/-- A snapshot gives way only to one of a later enumeration. -/
theorem Invariant.newer (h : s.Invariant algorithm first) (hstep : Step algorithm s t) :
    (t.directory = s.directory ∧ t.number = s.number) ∨ s.number < t.number := by
  cases hstep with
  | swap phase =>
    obtain ⟨-, hfresh, -⟩ := h.progress_of_phase phase nofun
    exact Or.inr hfresh.newer
  | _ => exact Or.inl ⟨rfl, rfl⟩

/-- Every run of callers, readers and the file system is accounted for. -/
theorem accounted_of_run {fs : FileSystem} {options : SnapshotOptions} {root : Path} {name : Bytes}
    (hname : root.fileName? = some name)
    (hstart : result (WatchedDirectory.start algorithm fs options root) = .ok first)
    (hrun : Run algorithm (start first fs) s)
    (hapart : AllApart algorithm (first.current :: s.swaps.map Update.snapshot)) :
    s.Accounted algorithm first := by
  obtain ⟨hroot, hoptions, htake⟩ := start_eq_ok hstart
  have h : s.Invariant algorithm first := invariant_of_run hrun
  have hfirst : first.IsSnapshotOf algorithm first.current :=
    ⟨fs, by rw [hroot, hoptions]; exact htake⟩
  have hnames := h.performed.name_eq_of_fileName? hfirst (hroot ▸ hname)
  rw [← h.swapped] at hapart
  constructor
  case replayed => exact h.swapped ▸ h.performed.replay_updates hfirst hnames hapart
  case returned => rw [← h.swapped, finished, updates, List.filterMap_append]; rfl
  case sequential => exact h.performed
  case failed =>
    rintro call hcall ⟨e, he⟩
    have hsame : Performed algorithm call.before [call] call.after :=
      .cons (h.performed.refreshed_of_mem hcall) (.nil _)
    exact hsame.eq_of_failed (List.forall_mem_singleton.mpr ⟨e, he⟩)
  case missed =>
    intro earlier failed call later changes hfinished hfailed houtcome
    have hperformed := h.performed
    rw [hfinished] at hperformed hnames hapart
    exact hperformed.isDifference hfirst hnames hapart hfailed houtcome
  case ascending => exact h.ascending
  case neverEarlier => exact fun t hstep => h.newer hstep
  case looked => exact h.looked

def withNothing : FileSystem := ⟨.bits34, .directory true [], by decide⟩

theorem take_withNothing : result (Snapshot.take addingBlocks withNothing .default ⟨[100]⟩) =
    .error (.filesystem ⟨[100]⟩ (.os .notFound)) :=
  Snapshot.take_of_walk_error (by cbv)

/-- One caller sees a file in place of another, and the next sees no directory at all. -/
theorem exists_run_withG : ∃ s : Shared Bool, Run addingBlocks (start watchedD withF) s ∧
    s.directory.current = snapshotG ∧ s.swaps.map Update.snapshot = [snapshotG] ∧
    s.calls.length = 2 ∧ s.looks.length = 2 := by
  have hrun := Relation.ReflTransGen.refl (a := (start watchedD withF : Shared Bool))
    (r := Step addingBlocks)
  replace hrun := hrun.tail (.lock (c := false) rfl rfl)
  replace hrun := hrun.tail (.change _ withG)
  replace hrun := hrun.tail (.enumerate (c := false) rfl take_withG)
  replace hrun := hrun.tail (.load (c := false) rfl)
  replace hrun := hrun.tail (.look _)
  replace hrun := hrun.tail (.compare (c := false) rfl)
  replace hrun := hrun.tail (.swap (c := false) rfl)
  replace hrun := hrun.tail (.release (c := false) rfl)
  replace hrun := hrun.tail (.change _ withNothing)
  replace hrun := hrun.tail (.lock (c := true) rfl rfl)
  replace hrun := hrun.tail (.fail (c := true) rfl take_withNothing)
  replace hrun := hrun.tail (.look _)
  replace hrun := hrun.tail (.release (c := true) rfl)
  exact ⟨_, hrun, rfl, rfl, rfl, rfl⟩

theorem accounted_withG : ∃ s : Shared Bool, Run addingBlocks (start watchedD withF) s ∧
    s.directory.current = snapshotG ∧ s.calls.length = 2 ∧
    s.Accounted addingBlocks watchedD := by
  obtain ⟨s, hrun, hshown, hswaps, hcalls, -⟩ := exists_run_withG
  have hapart : AllApart addingBlocks (watchedD.current :: s.swaps.map Update.snapshot) := by
    rw [hswaps]
    exact .of_hashesApart hashesApart_snapshotF_snapshotG
  have hname : (Path.mk [100]).fileName? = some [100] := by decide
  exact ⟨s, hrun, hshown, hcalls, accounted_of_run hname start_withF hrun hapart⟩

end MerkleDir.WatchedDirectory.Shared
