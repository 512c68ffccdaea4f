import MerkleDir.Proofs.Watch.Refreshes
import MerkleDir.Watch.Session

/-!
# The loop of a watch session

A session takes a snapshot, registers the directory, and then waits for events. After the first it
lets further events settle, refreshes the directory and hands on what has changed. The operating
system announces each change to a registered directory by one event or more, which arrive later. So
whatever the session has not seen is announced by an event that it has not received, from the
registration on.
-/
namespace MerkleDir.WatchSession

open Logged (result)
open ChangeSet (Update)
open WatchedDirectory (Call Performed updates value_refresh)

inductive Stage where
  | opened
  | waiting
  | settling
  | refreshing
  | enumerated (fs : FileSystem) (fresh : Snapshot)
  | handling (update : Update)
  | ended

def Stage.unhanded : Stage → List Update
  | .handling update => [update].filter (!·.changes.isEmpty)
  | _ => []

/-- A session in progress. Of the events only their number matters: those that have not been
delivered, and those in the queue. -/
structure Live where
  directory : WatchedDirectory
  fs : FileSystem
  stage : Stage
  registered : Option FileSystem
  undelivered : Nat
  queued : Nat
  refreshes : List Call
  handed : List Update

namespace Live

def opened (first : WatchedDirectory) (fs : FileSystem) : Live :=
  ⟨first, fs, .opened, none, 0, 0, [], []⟩

def call (s : Live) (fs : FileSystem) (fresh : Snapshot) : Call :=
  { before := s.directory
    fs
    number := s.refreshes.length + 1
    outcome := .ok (ChangeSet.between s.directory.current fresh).value
    after := { s.directory with current := fresh } }

def install (s : Live) (fs : FileSystem) (fresh : Snapshot) : Live :=
  { s with
    directory := { s.directory with current := fresh }
    stage := .handling ⟨(ChangeSet.between s.directory.current fresh).value, fresh⟩
    refreshes := s.refreshes ++ [s.call fs fresh] }

/-- One step of the operating system or of the session. The handler lets the session go on. -/
inductive Step (algorithm : HashAlgorithm) : Live → Live → Prop where
  | changeUnwatched {s : Live} (unwatched : s.registered = none) (fs : FileSystem) :
    Step algorithm s { s with fs }
  | changeWatched {s : Live} (watched : s.registered ≠ none) (fs : FileSystem) (further : Nat) :
    Step algorithm s { s with fs, undelivered := s.undelivered + (1 + further) }
  | notice {s : Live} (watched : s.registered ≠ none) :
    Step algorithm s { s with undelivered := s.undelivered + 1 }
  | deliver {s : Live} {n : Nat} (coming : s.undelivered = n + 1) :
    Step algorithm s { s with undelivered := n, queued := s.queued + 1 }
  | register {s : Live} (stage : s.stage = .opened)
      (registered : WatchSession.register s.fs s.directory.root = .ok ()) :
    Step algorithm s { s with stage := .waiting, registered := some s.fs }
  | refuse {s : Live} {e : RegistrationError} (stage : s.stage = .opened)
      (refused : WatchSession.register s.fs s.directory.root = .error e) :
    Step algorithm s { s with stage := .ended }
  | receive {s : Live} {n : Nat} (stage : s.stage = .waiting) (event : s.queued = n + 1) :
    Step algorithm s { s with stage := .settling, queued := n }
  | drain {s : Live} {n : Nat} (stage : s.stage = .settling) (event : s.queued = n + 1) :
    Step algorithm s { s with queued := n }
  | settle {s : Live} (stage : s.stage = .settling) (quiet : s.queued = 0) :
    Step algorithm s { s with stage := .refreshing }
  | enumerate {s : Live} {fresh : Snapshot} (stage : s.stage = .refreshing)
      (taken : result (Snapshot.take algorithm s.fs s.directory.options s.directory.root) =
        .ok fresh) :
    Step algorithm s { s with stage := .enumerated s.fs fresh }
  | fail {s : Live} {e : SnapshotError} (stage : s.stage = .refreshing)
      (failed : result (Snapshot.take algorithm s.fs s.directory.options s.directory.root) =
        .error e) :
    Step algorithm s { s with stage := .ended }
  | swap {s : Live} {fs : FileSystem} {fresh : Snapshot} (stage : s.stage = .enumerated fs fresh) :
    Step algorithm s (s.install fs fresh)
  | handle {s : Live} {update : Update} (stage : s.stage = .handling update) :
    Step algorithm s { s with
      stage := .waiting
      handed := s.handed ++ (Stage.handling update).unhanded }

def Run (algorithm : HashAlgorithm) : Live → Live → Prop :=
  Relation.ReflTransGen (Step algorithm)

/-- The session waits, and no event is queued or on its way. -/
def IsIdle (s : Live) : Prop := s.stage = .waiting ∧ s.queued = 0 ∧ s.undelivered = 0

/-- The file system that the last refresh has seen, or else the one at the registration. -/
def base? (s : Live) : Option FileSystem :=
  s.registered.map fun fs => (s.refreshes.getLast?.map Call.fs).getD fs

def Covers (s : Live) (fs : FileSystem) : Prop := s.queued + s.undelivered = 0 → s.fs = fs

def announced (s : Live) : List Update := s.handed ++ s.stage.unhanded

/-- What holds of a session at its stage. From the end of a refresh to the next event, nothing has
changed since the file system that the refresh has seen. -/
def Covered (algorithm : HashAlgorithm) (s : Live) : Stage → Prop
  | .opened => s.registered = none ∧ s.refreshes = []
  | .waiting | .handling _ => ∃ fs, s.base? = some fs ∧ s.Covers fs
  | .settling | .refreshing => s.registered ≠ none
  | .enumerated fs fresh => s.registered ≠ none ∧ s.Covers fs ∧
    result (Snapshot.take algorithm fs s.directory.options s.directory.root) = .ok fresh
  | .ended => True

structure Invariant (algorithm : HashAlgorithm) (first : WatchedDirectory) (s : Live) : Prop where
  covered : s.Covered algorithm s.stage
  performed : Performed algorithm first s.refreshes s.directory
  succeeded : ∀ call ∈ s.refreshes, ¬ call.IsFailed
  announced : s.announced = (updates s.refreshes).filter (!·.changes.isEmpty)

variable {algorithm : HashAlgorithm} {first : WatchedDirectory} {s t : Live} {stage : Stage}

theorem invariant_opened (fs : FileSystem) : (opened first fs).Invariant algorithm first where
  covered := ⟨rfl, rfl⟩
  performed := .nil first
  succeeded := fun _ hcall => absurd hcall List.not_mem_nil
  announced := rfl

theorem registered_ne_none {fs : FileSystem} (h : s.base? = some fs) : s.registered ≠ none := by
  intro hnone
  rw [base?, hnone] at h
  cases h

namespace Invariant

variable (h : s.Invariant algorithm first)

include h

theorem covered_at (hstage : s.stage = stage) : s.Covered algorithm stage := hstage ▸ h.covered

/-- A step in which nothing is put in place. -/
theorem proceed (hcovered : t.Covered algorithm t.stage) (hdirectory : t.directory = s.directory)
    (hrefreshes : t.refreshes = s.refreshes) (hannounced : t.announced = s.announced) :
    t.Invariant algorithm first where
  covered := hcovered
  performed := by rw [hrefreshes, hdirectory]; exact h.performed
  succeeded := by rw [hrefreshes]; exact h.succeeded
  announced := by rw [hannounced, hrefreshes]; exact h.announced

theorem changeUnwatched (hnone : s.registered = none) (fs : FileSystem) :
    ({ s with fs } : Live).Invariant algorithm first := by
  refine h.proceed ?_ rfl rfl rfl
  have hcovered := h.covered
  show Covered algorithm { s with fs } s.stage
  cases hstage : s.stage <;> rw [hstage] at hcovered
  case opened => exact hcovered
  case ended => trivial
  case waiting | handling => exact absurd hnone (registered_ne_none hcovered.choose_spec.1)
  case settling | refreshing => exact absurd hnone hcovered
  case enumerated => exact absurd hnone hcovered.1

/-- An event that is on its way covers any change. -/
theorem announce (fs : FileSystem) (further : Nat) :
    ({ s with fs, undelivered := s.undelivered + (1 + further) } : Live).Invariant algorithm
      first := by
  refine h.proceed ?_ rfl rfl rfl
  have hcovered := h.covered
  have hcovers (old : FileSystem) :
      ({ s with fs, undelivered := s.undelivered + (1 + further) } : Live).Covers old := by
    intro hnone
    simp only at hnone
    omega
  show Covered algorithm { s with fs, undelivered := s.undelivered + (1 + further) } s.stage
  cases hstage : s.stage <;> rw [hstage] at hcovered
  case opened => exact hcovered
  case ended => trivial
  case waiting | handling => exact ⟨_, hcovered.choose_spec.1, hcovers _⟩
  case settling | refreshing => exact hcovered
  case enumerated => exact ⟨hcovered.1, hcovers _, hcovered.2.2⟩

theorem deliver {n : Nat} (hleft : s.undelivered = n + 1) :
    ({ s with undelivered := n, queued := s.queued + 1 } : Live).Invariant algorithm first := by
  refine h.proceed ?_ rfl rfl rfl
  have hcovered := h.covered
  have hcovers {fs : FileSystem} (hold : s.Covers fs) :
      ({ s with undelivered := n, queued := s.queued + 1 } : Live).Covers fs := by
    intro hnone
    refine hold ?_
    rw [hleft]
    simp only at hnone
    omega
  show Covered algorithm { s with undelivered := n, queued := s.queued + 1 } s.stage
  cases hstage : s.stage <;> rw [hstage] at hcovered
  case opened => exact hcovered
  case ended => trivial
  case waiting | handling => exact ⟨_, hcovered.choose_spec.1, hcovers hcovered.choose_spec.2⟩
  case settling | refreshing => exact hcovered
  case enumerated => exact ⟨hcovered.1, hcovers hcovered.2.1, hcovered.2.2⟩

theorem swap {fs : FileSystem} {fresh : Snapshot} (hstage : s.stage = .enumerated fs fresh) :
    (s.install fs fresh).Invariant algorithm first := by
  obtain ⟨hsome, hcovers, htake⟩ := h.covered_at hstage
  obtain ⟨registered, hregistered⟩ := Option.ne_none_iff_exists'.mp hsome
  have hrefresh : ((s.call fs fresh).before.refresh algorithm (s.call fs fresh).fs).value =
      ((s.call fs fresh).after, (s.call fs fresh).outcome) := by
    show (s.directory.refresh algorithm fs).value = _
    rw [value_refresh, htake]
    rfl
  constructor
  case covered =>
    refine ⟨fs, ?_, hcovers⟩
    rw [base?, install, hregistered]
    simp [call]
  case performed => exact h.performed.append (.cons hrefresh (.nil _))
  case succeeded =>
    intro c hc
    rcases List.mem_append.mp hc with hc | hc
    · exact h.succeeded c hc
    · rw [List.mem_singleton.mp hc]
      exact fun ⟨e, he⟩ => nomatch he
  case announced =>
    have hannounced := h.announced
    rw [Live.announced, hstage, show (Stage.enumerated fs fresh).unhanded = [] from rfl,
      List.append_nil] at hannounced
    rw [Live.announced, install, hannounced, updates, updates, List.filterMap_append,
      List.filter_append]
    rfl

theorem step (hstep : Step algorithm s t) : t.Invariant algorithm first := by
  have hannounced {old new : Stage} (hstage : s.stage = old) (hsame : new.unhanded = old.unhanded) :
      s.handed ++ new.unhanded = s.announced := by
    rw [Live.announced, hstage, hsame]
  cases hstep with
  | changeUnwatched unwatched fs => exact h.changeUnwatched unwatched fs
  | changeWatched watched fs further => exact h.announce fs further
  | notice watched => exact h.announce s.fs 0
  | deliver coming => exact h.deliver coming
  | register stage registered =>
    obtain ⟨-, hrefreshes⟩ := h.covered_at stage
    refine h.proceed ⟨s.fs, ?_, fun _ => rfl⟩ rfl rfl (hannounced stage rfl)
    show some _ = _
    rw [hrefreshes]
    rfl
  | refuse stage => exact h.proceed trivial rfl rfl (hannounced stage rfl)
  | receive stage =>
    obtain ⟨fs, hbase, -⟩ := h.covered_at stage
    exact h.proceed (registered_ne_none hbase) rfl rfl (hannounced stage rfl)
  | drain stage =>
    have hsome := h.covered_at stage
    refine h.proceed ?_ rfl rfl rfl
    show Covered algorithm _ s.stage
    rw [stage]
    exact hsome
  | settle stage => exact h.proceed (h.covered_at stage) rfl rfl (hannounced stage rfl)
  | enumerate stage taken =>
    exact h.proceed ⟨h.covered_at stage, fun _ => rfl, taken⟩ rfl rfl (hannounced stage rfl)
  | fail stage => exact h.proceed trivial rfl rfl (hannounced stage rfl)
  | swap stage => exact h.swap stage
  | handle stage =>
    refine h.proceed (h.covered_at stage) rfl rfl ?_
    rw [Live.announced, Live.announced, stage]
    exact List.append_nil _

end Invariant

theorem invariant_of_run {fs : FileSystem} (h : Run algorithm (opened first fs) s) :
    s.Invariant algorithm first := by
  induction h with
  | refl => exact invariant_opened fs
  | tail _ hstep ih => exact ih.step hstep

end Live
end MerkleDir.WatchSession
