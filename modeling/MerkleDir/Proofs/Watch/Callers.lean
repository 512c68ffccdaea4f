import MerkleDir.Proofs.Watch.Refreshes

/-!
# Callers of one watched directory

Any number of callers refresh one directory and others read it, while the file system changes. The
steps of a refresh fall among those of the others in any order, but the lock of the writer is held
from before the enumeration until the call returns. So the refreshes take effect one after the
other.
-/
namespace MerkleDir.WatchedDirectory

open Logged (result)
open ChangeSet (AllApart Update replay)

structure Fresh where
  fs : FileSystem
  number : Nat
  snapshot : Snapshot

/-- How far a caller has come. From the lock on, it remembers the directory that it has found. -/
inductive Phase where
  | outside
  | locked (before : WatchedDirectory)
  | enumerated (before : WatchedDirectory) (fresh : Fresh)
  | loaded (before : WatchedDirectory) (fresh : Fresh) (previous : Snapshot)
  | compared (before : WatchedDirectory) (fresh : Fresh) (changes : ChangeSet)
  | finished (before : WatchedDirectory) (fs : FileSystem) (number : Nat)
      (outcome : Except SnapshotError ChangeSet)

/-- A directory that callers share. `number` is that of the enumeration whose snapshot is shown;
`enumerations` have been made or tried. What has been put in place, what has been returned and what
readers have seen is kept in the order in which it happened. -/
structure Shared (Caller : Type) where
  directory : WatchedDirectory
  number : Nat
  fs : FileSystem
  writer : Option Caller
  phase : Caller → Phase
  enumerations : Nat
  swaps : List Update
  calls : List Call
  looks : List (Nat × Snapshot)

namespace Shared

variable {Caller : Type}

def start (first : WatchedDirectory) (fs : FileSystem) : Shared Caller :=
  ⟨first, 0, fs, none, fun _ => .outside, 1, [], [], []⟩

/-- One step of the file system, of a reader, or of a caller. -/
inductive Step (algorithm : HashAlgorithm) [DecidableEq Caller] :
    Shared Caller → Shared Caller → Prop where
  | change (s : Shared Caller) (fs : FileSystem) : Step algorithm s { s with fs }
  | look (s : Shared Caller) :
    Step algorithm s { s with looks := s.looks ++ [(s.number, s.directory.current)] }
  | lock {s : Shared Caller} {c : Caller} (free : s.writer = none) (phase : s.phase c = .outside) :
    Step algorithm s
      { s with writer := some c, phase := Function.update s.phase c (.locked s.directory) }
  | enumerate {s : Shared Caller} {c : Caller} {before : WatchedDirectory} {snapshot : Snapshot}
      (phase : s.phase c = .locked before)
      (taken : result (Snapshot.take algorithm s.fs s.directory.options s.directory.root) =
        .ok snapshot) :
    Step algorithm s
      { s with
        enumerations := s.enumerations + 1
        phase := Function.update s.phase c
          (.enumerated before ⟨s.fs, s.enumerations, snapshot⟩) }
  | fail {s : Shared Caller} {c : Caller} {before : WatchedDirectory} {e : SnapshotError}
      (phase : s.phase c = .locked before)
      (failed : result (Snapshot.take algorithm s.fs s.directory.options s.directory.root) =
        .error e) :
    Step algorithm s
      { s with
        enumerations := s.enumerations + 1
        phase := Function.update s.phase c (.finished before s.fs s.enumerations (.error e)) }
  | load {s : Shared Caller} {c : Caller} {before : WatchedDirectory} {fresh : Fresh}
      (phase : s.phase c = .enumerated before fresh) :
    Step algorithm s
      { s with phase := Function.update s.phase c (.loaded before fresh s.directory.current) }
  | compare {s : Shared Caller} {c : Caller} {before : WatchedDirectory} {fresh : Fresh}
      {previous : Snapshot} (phase : s.phase c = .loaded before fresh previous) :
    Step algorithm s
      { s with
        phase := Function.update s.phase c
          (.compared before fresh (ChangeSet.between previous fresh.snapshot).value) }
  | swap {s : Shared Caller} {c : Caller} {before : WatchedDirectory} {fresh : Fresh}
      {changes : ChangeSet} (phase : s.phase c = .compared before fresh changes) :
    Step algorithm s
      { s with
        directory := { s.directory with current := fresh.snapshot }
        number := fresh.number
        swaps := s.swaps ++ [⟨changes, fresh.snapshot⟩]
        phase := Function.update s.phase c
          (.finished before fresh.fs fresh.number (.ok changes)) }
  | release {s : Shared Caller} {c : Caller} {before : WatchedDirectory} {fs : FileSystem}
      {number : Nat} {outcome : Except SnapshotError ChangeSet}
      (phase : s.phase c = .finished before fs number outcome) :
    Step algorithm s
      { s with
        writer := none
        calls := s.calls ++ [⟨before, fs, number, outcome, s.directory⟩]
        phase := Function.update s.phase c .outside }

def Run (algorithm : HashAlgorithm) [DecidableEq Caller] : Shared Caller → Shared Caller → Prop :=
  Relation.ReflTransGen (Step algorithm)

end Shared

def Phase.call? (dir : WatchedDirectory) : Phase → Option Call
  | .finished before fs number outcome => some ⟨before, fs, number, outcome, dir⟩
  | _ => none

namespace Shared

variable {Caller : Type} {algorithm : HashAlgorithm} {first : WatchedDirectory}
  {s t : Shared Caller} {c : Caller} {phase : Phase}

def pending (s : Shared Caller) : List Call :=
  (s.writer.bind fun c => (s.phase c).call? s.directory).toList

def finished (s : Shared Caller) : List Call := s.calls ++ s.pending

/-- A fresh snapshot is of the directory, and from a later enumeration than all that has been shown
or returned. -/
structure IsFresh (algorithm : HashAlgorithm) (s : Shared Caller) (fresh : Fresh) : Prop where
  taken : result (Snapshot.take algorithm fresh.fs s.directory.options s.directory.root) =
    .ok fresh.snapshot
  made : fresh.number < s.enumerations
  newer : s.number < fresh.number
  later : ∀ call ∈ s.calls, call.number < fresh.number

def Progress (algorithm : HashAlgorithm) (s : Shared Caller) : Phase → Prop
  | .outside => False
  | .locked before => before = s.directory
  | .enumerated before fresh => before = s.directory ∧ s.IsFresh algorithm fresh
  | .loaded before fresh previous =>
    before = s.directory ∧ s.IsFresh algorithm fresh ∧ previous = s.directory.current
  | .compared before fresh changes =>
    before = s.directory ∧ s.IsFresh algorithm fresh ∧
      changes = (ChangeSet.between s.directory.current fresh.snapshot).value
  | .finished _ _ _ _ => True

structure Invariant (algorithm : HashAlgorithm) (first : WatchedDirectory) (s : Shared Caller) :
    Prop where
  exclusive : ∀ c, s.phase c ≠ .outside ↔ s.writer = some c
  progress : ∀ c, s.writer = some c → s.Progress algorithm (s.phase c)
  performed : Performed algorithm first s.finished s.directory
  swapped : updates s.finished = s.swaps
  ascending : (s.finished.map Call.number).Pairwise (· < ·)
  made : ∀ call ∈ s.finished, call.number < s.enumerations
  shown : s.number < s.enumerations
  looked : (s.looks.map Prod.fst).Pairwise (· ≤ ·)
  looks : ∀ look ∈ s.looks, look.1 ≤ s.number

theorem finished_of_writer (h : s.writer = some c) :
    s.finished = s.calls ++ ((s.phase c).call? s.directory).toList := by
  rw [finished, pending, h]
  rfl

theorem finished_of_free (h : s.writer = none) : s.finished = s.calls := by
  rw [finished, pending, h]
  exact List.append_nil _

theorem invariant_start (fs : FileSystem) :
    (start first fs : Shared Caller).Invariant algorithm first := by
  have hfinished : (start first fs : Shared Caller).finished = [] := finished_of_free rfl
  constructor
  case exclusive => exact fun c => iff_of_false (fun h => h rfl) nofun
  case progress => exact nofun
  case performed => rw [hfinished]; exact .nil first
  case swapped => rw [hfinished]; rfl
  case ascending => rw [hfinished]; exact .nil
  case made => rw [hfinished]; exact fun _ hcall => absurd hcall List.not_mem_nil
  case shown => exact Nat.zero_lt_one
  case looked => exact .nil
  case looks => exact fun _ hlook => absurd hlook List.not_mem_nil

theorem IsFresh.congr {fresh : Fresh} (h : s.IsFresh algorithm fresh)
    (hdirectory : t.directory = s.directory) (hnumber : t.number = s.number)
    (henumerations : t.enumerations = s.enumerations) (hcalls : t.calls = s.calls) :
    t.IsFresh algorithm fresh :=
  ⟨hdirectory ▸ h.taken, henumerations ▸ h.made, hnumber ▸ h.newer, hcalls ▸ h.later⟩

/-- What is asked of a caller does not depend on the file system or on readers. -/
theorem Progress.congr (h : s.Progress algorithm phase) (hdirectory : t.directory = s.directory)
    (hnumber : t.number = s.number) (henumerations : t.enumerations = s.enumerations)
    (hcalls : t.calls = s.calls) : t.Progress algorithm phase := by
  have hfresh {fresh : Fresh} (h : s.IsFresh algorithm fresh) : t.IsFresh algorithm fresh :=
    h.congr hdirectory hnumber henumerations hcalls
  cases phase with
  | outside => exact h
  | locked before => exact h.trans hdirectory.symm
  | enumerated before fresh => exact ⟨h.1.trans hdirectory.symm, hfresh h.2⟩
  | loaded before fresh previous =>
    exact ⟨h.1.trans hdirectory.symm, hfresh h.2.1, by rw [hdirectory]; exact h.2.2⟩
  | compared before fresh changes =>
    exact ⟨h.1.trans hdirectory.symm, hfresh h.2.1, by rw [hdirectory]; exact h.2.2⟩
  | finished before fs number outcome => trivial

namespace Invariant

variable (h : s.Invariant algorithm first)

include h

theorem writer_of_phase (hphase : s.phase c = phase) (hne : phase ≠ .outside) :
    s.writer = some c :=
  (h.exclusive c).mp (hphase ▸ hne)

theorem progress_of_phase (hphase : s.phase c = phase) (hne : phase ≠ .outside) :
    s.Progress algorithm phase :=
  hphase ▸ h.progress c (h.writer_of_phase hphase hne)

theorem change (fs : FileSystem) : ({ s with fs } : Shared Caller).Invariant algorithm first where
  __ := h
  progress := fun c hwriter => (h.progress c hwriter).congr rfl rfl rfl rfl

theorem look : ({ s with looks := s.looks ++ [(s.number, s.directory.current)] } :
    Shared Caller).Invariant algorithm first where
  __ := h
  progress := fun c hwriter => (h.progress c hwriter).congr rfl rfl rfl rfl
  looked := by
    rw [List.map_append, List.pairwise_append]
    refine ⟨h.looked, List.pairwise_singleton _ _, fun n hn m hm => ?_⟩
    obtain ⟨look, hlook, rfl⟩ := List.mem_map.mp hn
    rw [List.mem_singleton.mp hm]
    exact h.looks look hlook
  looks := fun look hlook => by
    rcases List.mem_append.mp hlook with hlook | hlook
    · exact h.looks look hlook
    · rw [List.mem_singleton.mp hlook]

/-- Until a caller is finished, nothing is pending. -/
theorem finished_of_phase (hphase : s.phase c = phase) (hne : phase ≠ .outside)
    (hcall : phase.call? s.directory = none) : s.finished = s.calls := by
  rw [finished_of_writer (h.writer_of_phase hphase hne), hphase, hcall]
  exact List.append_nil _

theorem proceed (hexclusive : ∀ d, t.phase d ≠ .outside ↔ t.writer = some d)
    (hprogress : ∀ d, t.writer = some d → t.Progress algorithm (t.phase d))
    (hfinished : t.finished = s.finished) (hdirectory : t.directory = s.directory)
    (hnumber : t.number = s.number) (henumerations : s.enumerations ≤ t.enumerations)
    (hswaps : t.swaps = s.swaps) (hlooks : t.looks = s.looks) : t.Invariant algorithm first where
  exclusive := hexclusive
  progress := hprogress
  performed := by rw [hfinished, hdirectory]; exact h.performed
  swapped := by rw [hfinished, hswaps]; exact h.swapped
  ascending := by rw [hfinished]; exact h.ascending
  made := by
    rw [hfinished]
    exact fun call hcall => (h.made call hcall).trans_le henumerations
  shown := hnumber ▸ h.shown.trans_le henumerations
  looked := hlooks ▸ h.looked
  looks := by rw [hlooks, hnumber]; exact h.looks

theorem finish (call : Call) (hexclusive : ∀ d, t.phase d ≠ .outside ↔ t.writer = some d)
    (hprogress : ∀ d, t.writer = some d → t.Progress algorithm (t.phase d))
    (hnone : s.finished = s.calls) (hfinished : t.finished = s.calls ++ [call])
    (hbefore : call.before = s.directory) (hafter : call.after = t.directory)
    (hrefresh : (call.before.refresh algorithm call.fs).value = (call.after, call.outcome))
    (hlater : ∀ c ∈ s.calls, c.number < call.number) (hmade : call.number < t.enumerations)
    (henumerations : s.enumerations ≤ t.enumerations) (hnumber : s.number ≤ t.number)
    (hshown : t.number < t.enumerations) (hswaps : t.swaps = s.swaps ++ call.update?.toList)
    (hlooks : t.looks = s.looks) : t.Invariant algorithm first where
  exclusive := hexclusive
  progress := hprogress
  performed := by
    have hperformed := h.performed
    rw [hnone, ← hbefore] at hperformed
    rw [hfinished, ← hafter]
    exact hperformed.append (.cons hrefresh (.nil _))
  swapped := by
    rw [hfinished, hswaps, ← h.swapped, hnone, updates, List.filterMap_append]
    rfl
  ascending := by
    have hascending := h.ascending
    rw [hnone] at hascending
    rw [hfinished, List.map_append, List.pairwise_append]
    refine ⟨hascending, List.pairwise_singleton _ _, fun n hn m hm => ?_⟩
    obtain ⟨c, hc, rfl⟩ := List.mem_map.mp hn
    rw [List.mem_singleton.mp hm]
    exact hlater c hc
  made := by
    intro c hc
    rw [hfinished] at hc
    rcases List.mem_append.mp hc with hc | hc
    · exact (h.made c (hnone ▸ hc)).trans_le henumerations
    · rw [List.mem_singleton.mp hc]
      exact hmade
  shown := hshown
  looked := hlooks ▸ h.looked
  looks := by
    rw [hlooks]
    exact fun look hlook => (h.looks look hlook).trans hnumber

section Callers

variable [DecidableEq Caller]

/-- A caller enters a phase in which it has the lock. -/
theorem exclusive_update (hwriter : s.writer = some c) (hphase : phase ≠ .outside) (d : Caller) :
    Function.update s.phase c phase d ≠ .outside ↔ s.writer = some d := by
  rcases eq_or_ne d c with rfl | hne
  · rw [Function.update_self]
    exact iff_of_true hphase hwriter
  · rw [Function.update_of_ne hne]
    exact h.exclusive d

theorem enter {old : Phase} (next : Phase) (hold : s.phase c = old) (hne : old ≠ .outside)
    (hcall : old.call? s.directory = none) (hne' : next ≠ .outside)
    (hcall' : next.call? t.directory = none) (hphase : t.phase = Function.update s.phase c next)
    (hprogress : t.Progress algorithm next) (hwriter : t.writer = s.writer)
    (hcalls : t.calls = s.calls) (hdirectory : t.directory = s.directory)
    (hnumber : t.number = s.number) (henumerations : s.enumerations ≤ t.enumerations)
    (hswaps : t.swaps = s.swaps) (hlooks : t.looks = s.looks) : t.Invariant algorithm first := by
  have hown := h.writer_of_phase hold hne
  have hown' : t.phase c = next := by rw [hphase, Function.update_self]
  apply h.proceed
  case hexclusive =>
    rw [hphase, hwriter]
    exact h.exclusive_update hown hne'
  case hprogress =>
    intro d hd
    rw [hwriter, hown, Option.some_inj] at hd
    rw [← hd, hown']
    exact hprogress
  case hfinished =>
    rw [h.finished_of_phase hold hne hcall, finished_of_writer (hwriter.trans hown), hown', hcall',
      hcalls]
    exact List.append_nil _
  all_goals assumption

theorem leave {old : Phase} {before : WatchedDirectory} {fs : FileSystem} {number : Nat}
    {outcome : Except SnapshotError ChangeSet} (hold : s.phase c = old) (hne : old ≠ .outside)
    (hcall : old.call? s.directory = none)
    (hphase : t.phase = Function.update s.phase c (.finished before fs number outcome))
    (hwriter : t.writer = s.writer) (hcalls : t.calls = s.calls) (hbefore : before = s.directory)
    (hrefresh : (before.refresh algorithm fs).value = (t.directory, outcome))
    (hlater : ∀ call ∈ s.calls, call.number < number) (hmade : number < t.enumerations)
    (henumerations : s.enumerations ≤ t.enumerations) (hnumber : s.number ≤ t.number)
    (hshown : t.number < t.enumerations)
    (hswaps : t.swaps =
      s.swaps ++ (Call.update? ⟨before, fs, number, outcome, t.directory⟩).toList)
    (hlooks : t.looks = s.looks) : t.Invariant algorithm first := by
  have hown := h.writer_of_phase hold hne
  have hown' : t.phase c = .finished before fs number outcome := by
    rw [hphase, Function.update_self]
  refine h.finish ⟨before, fs, number, outcome, t.directory⟩ ?_ ?_
    (h.finished_of_phase hold hne hcall) ?_ hbefore rfl hrefresh hlater hmade henumerations hnumber
    hshown hswaps hlooks
  · rw [hphase, hwriter]
    exact h.exclusive_update hown nofun
  · intro d hd
    rw [hwriter, hown, Option.some_inj] at hd
    rw [← hd, hown']
    trivial
  · rw [finished_of_writer (hwriter.trans hown), hown', hcalls]
    rfl

theorem lock (hfree : s.writer = none) :
    ({ s with writer := some c, phase := Function.update s.phase c (.locked s.directory) } :
      Shared Caller).Invariant algorithm first := by
  have houtside (d : Caller) : s.phase d = .outside := by
    by_contra hd
    have hwriter := (h.exclusive d).mp hd
    rw [hfree] at hwriter
    cases hwriter
  apply h.proceed
  case hexclusive =>
    intro d
    rcases eq_or_ne d c with rfl | hne
    · exact iff_of_true (by simp) rfl
    · exact iff_of_false (by simp [hne, houtside d]) fun hd => hne (Option.some_inj.mp hd).symm
  case hprogress =>
    intro d hd
    obtain rfl := Option.some_inj.mp hd
    simp [Progress]
  case hfinished =>
    rw [finished_of_free hfree, finished_of_writer rfl]
    simp [Phase.call?]
  all_goals rfl

theorem release {before : WatchedDirectory} {fs : FileSystem} {number : Nat}
    {outcome : Except SnapshotError ChangeSet}
    (hphase : s.phase c = .finished before fs number outcome) :
    ({ s with
      writer := none
      calls := s.calls ++ [⟨before, fs, number, outcome, s.directory⟩]
      phase := Function.update s.phase c .outside } : Shared Caller).Invariant algorithm first := by
  have hwriter := h.writer_of_phase hphase nofun
  apply h.proceed
  case hexclusive =>
    intro d
    rcases eq_or_ne d c with rfl | hne
    · exact iff_of_false (by simp) nofun
    · have hd : ¬ s.phase d ≠ .outside := by
        rw [h.exclusive d, hwriter, Option.some_inj]
        exact hne.symm
      exact iff_of_false (by simpa [hne] using hd) nofun
  case hprogress => exact nofun
  case hfinished =>
    rw [finished_of_free rfl, finished_of_writer hwriter, hphase]
    rfl
  all_goals rfl

theorem step (hstep : Step algorithm s t) : t.Invariant algorithm first := by
  cases hstep with
  | change fs => exact h.change fs
  | look => exact h.look
  | lock free phase => exact h.lock free
  | @enumerate c before snapshot phase taken =>
    obtain rfl := h.progress_of_phase phase nofun
    have hmade := h.made
    rw [h.finished_of_phase phase nofun rfl] at hmade
    apply h.enter (.enumerated s.directory ⟨s.fs, s.enumerations, snapshot⟩) phase
    case hne | hne' => exact nofun
    case hprogress => exact ⟨rfl, taken, Nat.lt_succ_self _, h.shown, hmade⟩
    case henumerations => exact Nat.le_succ _
    all_goals rfl
  | @fail c before e phase failed =>
    obtain rfl := h.progress_of_phase phase nofun
    have hmade := h.made
    rw [h.finished_of_phase phase nofun rfl] at hmade
    apply h.leave phase
    case hne => exact nofun
    case hrefresh => rw [value_refresh, failed]
    case hlater => exact hmade
    case hmade => exact Nat.lt_succ_self _
    case henumerations => exact Nat.le_succ _
    case hshown => exact h.shown.trans (Nat.lt_succ_self _)
    case hnumber => exact le_rfl
    case hswaps => exact (List.append_nil _).symm
    all_goals rfl
  | @load c before fresh phase =>
    obtain ⟨hbefore, hfresh⟩ := h.progress_of_phase phase nofun
    apply h.enter (.loaded before fresh s.directory.current) phase
    case hne | hne' => exact nofun
    case hprogress => exact ⟨hbefore, hfresh.congr rfl rfl rfl rfl, rfl⟩
    case henumerations => exact le_rfl
    all_goals rfl
  | @compare c before fresh previous phase =>
    obtain ⟨hbefore, hfresh, rfl⟩ := h.progress_of_phase phase nofun
    apply h.enter (.compared before fresh
      (ChangeSet.between s.directory.current fresh.snapshot).value) phase
    case hne | hne' => exact nofun
    case hprogress => exact ⟨hbefore, hfresh.congr rfl rfl rfl rfl, rfl⟩
    case henumerations => exact le_rfl
    all_goals rfl
  | @swap c before fresh changes phase =>
    obtain ⟨rfl, hfresh, rfl⟩ := h.progress_of_phase phase nofun
    apply h.leave phase
    case hne => exact nofun
    case hrefresh => rw [value_refresh, hfresh.taken]
    case hlater => exact hfresh.later
    case hmade | hshown => exact hfresh.made
    case henumerations => exact le_rfl
    case hnumber => exact hfresh.newer.le
    all_goals rfl
  | release phase => exact h.release phase

end Callers

end Invariant

variable [DecidableEq Caller]

theorem invariant_of_run {fs : FileSystem} (h : Run algorithm (start first fs) s) :
    s.Invariant algorithm first := by
  induction h with
  | refl => exact invariant_start fs
  | tail _ hstep ih => exact ih.step hstep

end Shared
end MerkleDir.WatchedDirectory
