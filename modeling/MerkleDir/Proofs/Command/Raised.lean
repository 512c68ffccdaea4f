import Mathlib
import MerkleDir.Command.Program
import MerkleDir.Proofs.Command.ErrorLine
import MerkleDir.Proofs.Scan.Reached
import MerkleDir.Proofs.Snapshot.Failures
import MerkleDir.Proofs.Watch.Refreshes

namespace MerkleDir

open Logged (result)

variable {algorithm : HashAlgorithm} {fs : FileSystem} {options : SnapshotOptions} {root : Path}

namespace Walk

/-- By induction on the links that may still be read. -/
theorem isRaised_of_follow {limit : Nat} {fileName : Bytes} {link : Path} {e : SnapshotError}
    {steps : Nat} {current : Path}
    (h : result (follow fs limit fileName link steps current) = .error e) : e.IsRaised := by
  induction steps generalizing current with
  | zero => exact Except.error.inj h ▸ .linkDepthExceeded link limit
  | succ steps ih =>
    rw [follow, Logged.result_bind_eq_error, Attempt.result_ofOs] at h
    rcases h with h | ⟨target, -, h⟩
    · cases hlink : fs.readLink current with
      | error cause =>
        rw [hlink] at h
        exact Except.error.inj h ▸ .os current cause
      | ok target =>
        rw [hlink] at h
        cases h
    · dsimp only at h
      split at h
      · cases h
      · exact Except.error.inj h ▸ .os _ _
      · exact ih h
      · cases h
      · cases h
      · cases h

theorem EntryFails.isRaised {entry : Bytes × Node} {e : SnapshotError}
    (h : EntryFails fs options root entry e) : e.IsRaised := by
  cases h with
  | metadata h => exact .listing _ _
  | linkMetadata hpolicy h => exact .os _ _
  | chain hpolicy h => exact isRaised_of_follow h

end Walk

theorem WalkFails.isRaised {e : SnapshotError} (h : WalkFails fs options root e) : e.IsRaised := by
  cases h with
  | stat h => exact .os _ _
  | notADirectory h hnode => exact .notADirectory _
  | listing hstat hnode h => exact .listing _ _
  | entry hlist hbefore h => exact h.isRaised

namespace Snapshot

theorem isRaised_of_canonicalText {path : Path} {e : SnapshotError}
    (h : canonicalText fs path = .error e) : e.IsRaised := by
  rw [canonicalText] at h
  split at h
  · exact Except.error.inj h ▸ .os path _
  · cases h

theorem isRaised_of_directoryName {path : Path} {e : SnapshotError}
    (h : directoryName fs path = .error e) : e.IsRaised := by
  rw [directoryName] at h
  split at h
  · cases h
  · split at h
    · rename_i cause hcause
      exact Except.error.inj h ▸ isRaised_of_canonicalText hcause
    · split at h <;> cases h

theorem isRaised_of_take {e : SnapshotError}
    (h : result (take algorithm fs options root) = .error e) : e.IsRaised := by
  rw [← result_takeChanging_self, takeChanging_eq_error_iff] at h
  cases h with
  | walk h => exact h.isRaised
  | name hwalk h => exact isRaised_of_directoryName h

end Snapshot

theorem CommandAttempt.isRaised_of_ofSnapshot {e : CommandError}
    (h : result (CommandAttempt.ofSnapshot (Snapshot.take algorithm fs options root)) = .error e) :
    e.IsRaised := by
  have hvalue : (Snapshot.take algorithm fs options root).run.value =
      result (Snapshot.take algorithm fs options root) := rfl
  rw [ofSnapshot, Logged.result_bind, Logged.result_lift, hvalue] at h
  cases htake : result (Snapshot.take algorithm fs options root) with
  | ok s =>
    rw [htake] at h
    cases h
  | error cause =>
    rw [htake] at h
    exact Except.error.inj h ▸ .snapshot (Snapshot.isRaised_of_take htake)

namespace Scan

variable {recursive : Bool}

theorem isRaised_of_visit {dir : Path} {state : State} {e : CommandError}
    (h : result (visit algorithm fs options recursive dir state) = .error e) : e.IsRaised := by
  rw [visit, Logged.result_bind_eq_error] at h
  simp only [Logged.result_mk, Logged.value_pure] at h
  rcases h with h | ⟨known, -, h⟩
  · rw [key] at h
    split at h
    · cases h
    · rename_i cause hcause
      exact Except.error.inj h ▸ .snapshot (Snapshot.isRaised_of_canonicalText hcause)
  · split at h
    · cases h
    · rcases Logged.result_bind_eq_error.mp h with h | ⟨snapshot, -, h⟩
      · exact CommandAttempt.isRaised_of_ofSnapshot h
      · split at h
        · exact Except.error.inj h ▸ .calendar
        · cases h

theorem isRaised_of_run {state : State} {e : CommandError}
    (h : result (run algorithm fs options recursive state) = .error e) : e.IsRaised := by
  induction state using run.induct algorithm fs options recursive with
  | case1 state hpending =>
    rw [run_of_pending_nil hpending] at h
    cases h
  | case2 state dir pending hpending ih =>
    rw [result_run_of_cons hpending] at h
    cases hvisit : result (visit algorithm fs options recursive dir { state with pending }) with
    | error cause =>
      rw [hvisit] at h
      exact Except.error.inj h ▸ isRaised_of_visit hvisit
    | ok next =>
      rw [hvisit] at h
      exact ih next hvisit h

theorem reports_of_take_error {location : Location} {e : SnapshotError}
    (hlocation : fs.canonicalLocation root = .ok location)
    (h : result (Snapshot.take algorithm fs options root) = .error e) :
    result (reports algorithm fs options recursive root) = .error (.snapshot e) := by
  have hvalue : (Snapshot.take algorithm fs options root).run.value = .error e := h
  have hvisit : result (visit algorithm fs options recursive root ⟨[], [], []⟩) =
      .error (.snapshot e) := by
    rw [visit, Logged.result_bind, Logged.result_mk, Logged.value_pure,
      key_of_canonicalLocation hlocation]
    show result (CommandAttempt.ofSnapshot _ >>= _) = _
    rw [Logged.result_bind, CommandAttempt.ofSnapshot, Logged.result_bind, Logged.result_lift, hvalue]
    rfl
  rw [reports, result_run_of_cons rfl, hvisit]
  rfl

theorem reports_of_canonicalLocation_error {cause : OsError}
    (h : fs.canonicalLocation root = .error cause) :
    result (reports algorithm fs options recursive root) =
      .error (.snapshot (.filesystem root (.os cause))) := by
  have hvisit : result (visit algorithm fs options recursive root ⟨[], [], []⟩) =
      .error (.snapshot (.filesystem root (.os cause))) := by
    rw [visit, Logged.result_bind, Logged.result_mk, Logged.value_pure, key, Snapshot.canonicalText,
      FileSystem.canonicalize, h]
    rfl
  rw [reports, result_run_of_cons rfl, hvisit]
  rfl

end Scan

namespace WatchSession

theorem isRaised_of_run {later : List FileSystem} {dir : WatchedDirectory} {e : SnapshotError}
    (h : (run algorithm dir later).value.failure = some e) : e.IsRaised := by
  induction later generalizing dir with
  | nil => cases h
  | cons fs later ih =>
    rw [run, Logged.value_bind, WatchedDirectory.value_refresh] at h
    cases htake : result (Snapshot.take algorithm fs dir.options dir.root) with
    | error cause =>
      rw [htake] at h
      exact Option.some_inj.mp h ▸ Snapshot.isRaised_of_take htake
    | ok fresh =>
      rw [htake] at h
      dsimp only at h
      rw [Logged.value_bind, Logged.value_pure] at h
      split at h <;> exact ih h

end WatchSession

namespace Command

theorem isRaised_of_encoded {json : Encoded} {e : CommandError}
    (h : result (encoded json) = .error e) : e.IsRaised := by
  rw [encoded.eq_def] at h
  split at h
  · cases h
  · exact Except.error.inj h ▸ .encoding _

theorem isRaised_of_scanOutput {recursive : Bool} {format : OutputFormat}
    {reports : List DirectoryReport} {e : CommandError}
    (h : result (scanOutput recursive format reports) = .error e) : e.IsRaised := by
  rw [scanOutput.eq_def] at h
  split at h
  · cases h
  · exact isRaised_of_encoded h
  · exact isRaised_of_encoded h

theorem isRaised_of_diffOutput {format : OutputFormat} {report : DiffReport} {e : CommandError}
    (h : result (diffOutput format report) = .error e) : e.IsRaised := by
  rw [diffOutput.eq_def] at h
  split at h
  · cases h
  · exact isRaised_of_encoded h

theorem isRaised_of_output {config : Config} {command : Command} {e : CommandError}
    (h : result (output algorithm fs config command) = .error e) : e.IsRaised := by
  cases command with
  | scan path recursive format =>
    rcases Logged.result_bind_eq_error.mp h with h | ⟨reports, -, h⟩
    · exact Scan.isRaised_of_run h
    · exact isRaised_of_scanOutput h
  | diff left right format =>
    rcases Logged.result_bind_eq_error.mp h with h | ⟨leftSnapshot, -, h⟩
    · exact CommandAttempt.isRaised_of_ofSnapshot h
    rcases Logged.result_bind_eq_error.mp h with h | ⟨rightSnapshot, -, h⟩
    · exact CommandAttempt.isRaised_of_ofSnapshot h
    rcases Logged.result_bind_eq_error.mp h with h | ⟨report, -, h⟩
    · cases h
    · exact isRaised_of_diffOutput h
  | watch path debounce => cases h
  | config =>
    rw [output] at h
    split at h
    · cases h
    · exact Except.error.inj h ▸ .rendering _

theorem isRaised_of_watchSession {later : List FileSystem} {config : Config} {path : Path}
    {debounce : Nat} {e : CommandError}
    (h : (watchSession algorithm fs later config path debounce).value.result = .error e) :
    e.IsRaised := by
  have hvalue : (WatchedDirectory.start algorithm fs config.snapshot path).run.value =
      result (WatchedDirectory.start algorithm fs config.snapshot path) := rfl
  rw [watchSession, Logged.value_bind, hvalue, WatchedDirectory.start, Logged.result_bind] at h
  cases htake : result (Snapshot.take algorithm fs config.snapshot path) with
  | error cause =>
    rw [htake] at h
    exact Except.error.inj h ▸ .snapshot (Snapshot.isRaised_of_take htake)
  | ok snapshot =>
    rw [htake] at h
    simp only [Bind.bind, Except.bind, Logged.result_pure] at h
    split at h
    · exact Except.error.inj h ▸ .registration _
    · simp only [Logged.bind] at h
      split at h
      · rename_i cause hfailure
        exact Except.error.inj h ▸ .snapshot (WatchSession.isRaised_of_run hfailure)
      · cases h

theorem isRaised_of_run {later : List FileSystem} {config : Config} {command : Command}
    {e : CommandError} (h : (command.run algorithm fs later config).value.result = .error e) :
    e.IsRaised := by
  have houtput (command : Command)
      (h : (output algorithm fs config command).run.value = .error e) : e.IsRaised :=
    isRaised_of_output h
  cases command with
  | scan path recursive format => exact houtput _ h
  | diff left right format => exact houtput _ h
  | config => exact houtput _ h
  | watch path debounce =>
    dsimp only [run] at h
    split_ifs at h with hzero
    · exact Except.error.inj h ▸ .debounce
    · exact isRaised_of_watchSession h

/-- The line of an error starts with its kind of line, and it is a single line unless the file system has
failed at a path that has a line break in its name. -/
theorem line_of_execute {later : List FileSystem} {config : Config} {command : Command}
    {e : CommandError} (h : (command.execute algorithm fs later config).value.result = .error e) :
    (∃ rest, e.line = "error: " ++ rest) ∧
      (IsUnbroken e.line ↔ ∀ path reason, e = .snapshot (.filesystem path reason) →
        0x0A ∉ path.bytes ∧ 0x0D ∉ path.bytes) :=
  ⟨e.exists_line_eq, (isRaised_of_run h).isUnbroken_line_iff⟩

theorem execute_scan_of_reports_error {later : List FileSystem} {config : Config} {recursive : Bool}
    {format : OutputFormat} {e : CommandError}
    (h : result (Scan.reports algorithm fs config.snapshot recursive root) = .error e) :
    (execute algorithm fs later config (.scan root recursive format)).value.result = .error e := by
  show result (Scan.reports algorithm fs config.snapshot recursive root >>= _) = _
  rw [Logged.result_bind, h]
  rfl

/-- The name `a`, a line feed, and `b`. -/
def brokenName : Path := ⟨[97, 10, 98]⟩

def withBrokenName : FileSystem :=
  ⟨.bits34, .directory true [(brokenName.bytes, .file ⟨0, 0⟩ [])], by decide⟩

/-- To scan the file fails, with its name in quotes. -/
theorem line_of_scanFile :
    (execute Snapshot.leadingBytes withBrokenName [] .default
      (.scan brokenName false .text)).value.result = .error (.snapshot (.notADirectory brokenName)) ∧
      IsUnbroken (CommandError.snapshot (.notADirectory brokenName)).line := by
  have hlocation : withBrokenName.canonicalLocation brokenName = .ok [brokenName.bytes] := by cbv
  have hstat : withBrokenName.stat brokenName = .ok (.file ⟨0, 0⟩ []) := by cbv
  have h : (execute Snapshot.leadingBytes withBrokenName [] .default
      (.scan brokenName false .text)).value.result =
        .error (.snapshot (.notADirectory brokenName)) :=
    execute_scan_of_reports_error (Scan.reports_of_take_error hlocation
      (Snapshot.take_of_walk_error (walk_eq_error_iff.mpr (.notADirectory hstat rfl))))
  exact ⟨h, (line_of_execute h).2.mpr fun path reason heq => by cases heq⟩

/-- To scan what is not there fails, with the name as it is. -/
theorem not_isUnbroken_scanMissing :
    (execute Snapshot.leadingBytes .empty [] .default
      (.scan brokenName false .text)).value.result =
        .error (.snapshot (.filesystem brokenName (.os .notFound))) ∧
      ¬ IsUnbroken (CommandError.snapshot (.filesystem brokenName (.os .notFound))).line := by
  have hlocation : FileSystem.empty.canonicalLocation brokenName = .error .notFound := by cbv
  refine ⟨execute_scan_of_reports_error (Scan.reports_of_canonicalLocation_error hlocation),
    fun hline => ?_⟩
  have hpath := (CommandError.isUnbroken_line_filesystem_iff.mp hline).1
  exact (isUnbroken_display_iff.mp hpath).1 (by decide)

end Command
end MerkleDir
