import MerkleDir.Command.Error
import MerkleDir.FileSystem.Locations

/-!
# Scanning directories

A scan takes a snapshot of a directory and, if it is recursive, of the directories below it, breadth
first. A directory is known by its canonical path in display form and is not scanned twice.
-/
namespace MerkleDir

/-- The outcome of a command, with the events it made. -/
abbrev CommandAttempt (α : Type) := ExceptT CommandError Logged α

namespace CommandAttempt

def fail {α : Type} (e : CommandError) : CommandAttempt α := throw e

def record (event : Log.Event) : CommandAttempt Unit := (Logged.record event : Logged Unit)

def ofSnapshot {α : Type} (attempt : Attempt α) : CommandAttempt α := do
  match ← (attempt.run : Logged (Except SnapshotError α)) with
  | .ok a => pure a
  | .error e => fail (.snapshot e)

theorem ofSnapshot_eq_ok_iff {α : Type} {attempt : Attempt α} {a : α} :
    Logged.result (ofSnapshot attempt) = .ok a ↔ Logged.result attempt = .ok a := by
  have hvalue : attempt.run.value = Logged.result attempt := rfl
  rw [ofSnapshot, Logged.result_bind, Logged.result_lift, hvalue]
  cases Logged.result attempt with
  | error e => exact ⟨nofun, nofun⟩
  | ok b =>
    show Logged.result (pure b : CommandAttempt α) = .ok a ↔ _
    simp only [Logged.result_pure, Except.ok.injEq]

end CommandAttempt

namespace Scan

open Logged (result)

def skippedEvent (dir : Path) : Log.Event :=
  ⟨.warn, "treesync::cli::route", "Directory already scanned, skipping",
    [⟨"path", .shown dir.display⟩], []⟩

/-- What the directory at a location is known by. -/
def keyOf (location : Location) : List Path.Component :=
  (Path.ofText (Path.normalizeText (FileSystem.absolutePath location).display)).components

def key (fs : FileSystem) (dir : Path) : Except CommandError (List Path.Component) :=
  match Snapshot.canonicalText fs dir with
  | .ok path => .ok path.components
  | .error e => .error (.snapshot e)

theorem key_of_canonicalLocation {fs : FileSystem} {dir : Path} {location : Location}
    (h : fs.canonicalLocation dir = .ok location) : key fs dir = .ok (keyOf location) := by
  rw [key, Snapshot.canonicalText_of_canonicalLocation h]
  rfl

attribute [irreducible] keyOf

theorem key_eq_ok_iff {fs : FileSystem} {dir : Path} {known : List Path.Component} :
    key fs dir = .ok known ↔ ∃ location, fs.canonicalLocation dir = .ok location ∧
      known = keyOf location := by
  constructor
  · intro h
    cases hlocation : fs.canonicalLocation dir with
    | error e =>
      rw [key, Snapshot.canonicalText, FileSystem.canonicalize, hlocation] at h
      cases h
    | ok location =>
      rw [key_of_canonicalLocation hlocation] at h
      exact ⟨location, rfl, (Except.ok.inj h).symm⟩
  · rintro ⟨location, hlocation, rfl⟩
    exact key_of_canonicalLocation hlocation

/-- The directories known, those that wait, and the reports so far. -/
structure State where
  visited : List (List Path.Component)
  pending : List Path
  reports : List DirectoryReport

/-- Scans a directory that is not known yet; those found in it wait behind all others. -/
def visit (algorithm : HashAlgorithm) (fs : FileSystem) (options : SnapshotOptions)
    (recursive : Bool) (dir : Path) (state : State) : CommandAttempt State := do
  let known ← ExceptT.mk (pure (key fs dir))
  if state.visited.contains known then do
    .record (skippedEvent dir)
    pure state
  else do
    let snapshot ← .ofSnapshot (Snapshot.take algorithm fs options dir)
    match DirectoryReport.ofSnapshot? snapshot with
    | none => .fail .calendar
    | some report =>
      pure
        { visited := known :: state.visited
          pending := state.pending ++ if recursive then snapshot.subdirectories else []
          reports := state.reports ++ [report] }

section Visit

variable {algorithm : HashAlgorithm} {fs : FileSystem} {options : SnapshotOptions}
  {recursive : Bool} {dir : Path} {state next : State}

/-- All that a visit can do. -/
theorem visit_eq_ok_iff : result (visit algorithm fs options recursive dir state) = .ok next ↔
    ∃ location, fs.canonicalLocation dir = .ok location ∧
      ((keyOf location ∈ state.visited ∧ next = state) ∨
        keyOf location ∉ state.visited ∧ ∃ snapshot report,
          result (Snapshot.take algorithm fs options dir) = .ok snapshot ∧
          DirectoryReport.ofSnapshot? snapshot = some report ∧
          next =
            { visited := keyOf location :: state.visited
              pending := state.pending ++ if recursive then snapshot.subdirectories else []
              reports := state.reports ++ [report] }) := by
  rw [visit, Logged.result_bind_eq_ok]
  simp only [Logged.result_mk, Logged.value_pure]
  constructor
  · rintro ⟨known, hknown, h⟩
    obtain ⟨location, hlocation, rfl⟩ := key_eq_ok_iff.mp hknown
    refine ⟨location, hlocation, ?_⟩
    split at h
    · rename_i hvisited
      refine Or.inl ⟨List.contains_iff_mem.mp hvisited, ?_⟩
      rw [Logged.result_bind] at h
      exact (Except.ok.inj h).symm
    · rename_i hvisited
      refine Or.inr ⟨fun hmem => hvisited (List.contains_iff_mem.mpr hmem), ?_⟩
      obtain ⟨snapshot, hsnapshot, h⟩ := Logged.result_bind_eq_ok.mp h
      split at h
      · cases h
      · rename_i report hreport
        exact ⟨snapshot, report, CommandAttempt.ofSnapshot_eq_ok_iff.mp hsnapshot, hreport,
          (Except.ok.inj h).symm⟩
  · rintro ⟨location, hlocation,
      ⟨hvisited, rfl⟩ | ⟨hvisited, snapshot, report, hsnapshot, hreport, rfl⟩⟩
    · refine ⟨_, key_eq_ok_iff.mpr ⟨location, hlocation, rfl⟩, ?_⟩
      rw [if_pos (List.contains_iff_mem.mpr hvisited), Logged.result_bind]
      rfl
    · refine ⟨_, key_eq_ok_iff.mpr ⟨location, hlocation, rfl⟩, ?_⟩
      rw [if_neg fun hmem => hvisited (List.contains_iff_mem.mp hmem), Logged.result_bind_eq_ok]
      exact ⟨snapshot, CommandAttempt.ofSnapshot_eq_ok_iff.mpr hsnapshot, by rw [hreport]; rfl⟩

/-- What has been taken has been somewhere. -/
theorem exists_node_of_take {snapshot : Snapshot}
    (h : result (Snapshot.take algorithm fs options dir) = .ok snapshot) :
    ∃ location node, fs.locate dir true = .ok location ∧ fs.nodeAt? location = some node := by
  obtain ⟨items, name, hitems, -, -⟩ := Snapshot.take_eq_ok_iff.mp h
  obtain ⟨node, hnode⟩ := exists_stat_of_walk hitems
  obtain ⟨location, hlocation⟩ := FileSystem.nodeOf_eq_ok_iff.mp hnode
  exact ⟨location, node, hlocation⟩

/-- The locations whose directories are not known yet. -/
def unvisited (fs : FileSystem) (visited : List (List Path.Component)) : List Location :=
  fs.locations.filter fun location => decide (keyOf location ∉ visited)

theorem length_unvisited_lt {location : Location} {node : Node}
    {visited : List (List Path.Component)} (hnode : fs.nodeAt? location = some node)
    (hnew : keyOf location ∉ visited) :
    (unvisited fs (keyOf location :: visited)).length < (unvisited fs visited).length := by
  have hfilter : unvisited fs (keyOf location :: visited) =
      (unvisited fs visited).filter fun other => decide (keyOf other ≠ keyOf location) := by
    rw [unvisited, unvisited, List.filter_filter]
    refine List.filter_congr fun other _ => ?_
    rw [Bool.eq_iff_iff]
    simp only [decide_eq_true_eq, Bool.and_eq_true, List.mem_cons, not_or, ne_eq]
  rw [hfilter, List.length_filter_lt_length_iff_exists]
  refine ⟨location, List.mem_filter.mpr ⟨FileSystem.mem_locations hnode, ?_⟩, ?_⟩
  · rwa [decide_eq_true_eq]
  · rw [decide_eq_true_eq]
    exact fun h => h rfl

/-- A visit makes a directory known, or one directory less waits. -/
theorem visit_progress (h : result (visit algorithm fs options recursive dir state) = .ok next) :
    (unvisited fs next.visited).length < (unvisited fs state.visited).length ∨
      next = state := by
  obtain ⟨location, hlocation, ⟨-, rfl⟩ | ⟨hnew, snapshot, report, htake, -, rfl⟩⟩ :=
    visit_eq_ok_iff.mp h
  · exact Or.inr rfl
  · obtain ⟨location', node, hlocate', hnode⟩ := exists_node_of_take htake
    have hlocate := FileSystem.locate_of_canonicalLocation hlocation
    obtain rfl : location = location' := Except.ok.inj (hlocate.symm.trans hlocate')
    exact Or.inl (length_unvisited_lt hnode hnew)

end Visit

/-- Visits the directories that wait, and those that this makes wait. -/
def run (algorithm : HashAlgorithm) (fs : FileSystem) (options : SnapshotOptions)
    (recursive : Bool) (state : State) : CommandAttempt (List DirectoryReport) :=
  match _hpending : state.pending with
  | [] => pure state.reports
  | dir :: pending =>
    Logged.bindWith (visit algorithm fs options recursive dir { state with pending })
      fun next _ => run algorithm fs options recursive next
  termination_by ((unvisited fs state.visited).length, state.pending.length)
  decreasing_by
    rename_i h
    rw [Prod.lex_def]
    rcases visit_progress h with hlt | rfl
    · exact Or.inl hlt
    · exact Or.inr ⟨rfl, by simp [_hpending]⟩

/-- The reports of a scan. -/
def reports (algorithm : HashAlgorithm) (fs : FileSystem) (options : SnapshotOptions)
    (recursive : Bool) (root : Path) : CommandAttempt (List DirectoryReport) :=
  run algorithm fs options recursive ⟨[], [root], []⟩

end Scan
end MerkleDir
