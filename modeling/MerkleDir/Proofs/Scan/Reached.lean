import MerkleDir.Command.Scan
import MerkleDir.Proofs.Snapshot.Subdirectories

/-!
# The states of a recursive scan

A scan that succeeds ends in a state in which nothing waits. In every state that it reaches, all
that is known has a report, no two reports are known by the same, and all that reports list waits or
is known.
-/
namespace MerkleDir.Scan

open Logged (result)

variable {algorithm : HashAlgorithm} {fs : FileSystem} {options : SnapshotOptions} {root : Path}

/-- The root, and what the snapshot of a directory that is reachable lists. -/
inductive Reachable (algorithm : HashAlgorithm) (fs : FileSystem) (options : SnapshotOptions)
    (root : Path) : Path → Prop
  | root : Reachable algorithm fs options root root
  | subdirectory {dir sub : Path} {snapshot : Snapshot}
      (hdir : Reachable algorithm fs options root dir)
      (htake : result (Snapshot.take algorithm fs options dir) = .ok snapshot)
      (hsub : sub ∈ snapshot.subdirectories) : Reachable algorithm fs options root sub

def IsReportOf (algorithm : HashAlgorithm) (fs : FileSystem) (options : SnapshotOptions)
    (location : Location) (report : DirectoryReport) : Prop :=
  fs.locate report.path true = .ok location ∧
    ∃ snapshot, result (Snapshot.take algorithm fs options report.path) = .ok snapshot ∧
      DirectoryReport.ofSnapshot? snapshot = some report

inductive Reached (algorithm : HashAlgorithm) (fs : FileSystem) (options : SnapshotOptions)
    (root : Path) : State → Prop
  | start : Reached algorithm fs options root ⟨[], [root], []⟩
  | visit {state next : State} {dir : Path} {pending : List Path}
      (hstate : Reached algorithm fs options root state) (hpending : state.pending = dir :: pending)
      (hvisit : result (visit algorithm fs options true dir { state with pending }) = .ok next) :
      Reached algorithm fs options root next

theorem run_of_pending_nil {recursive : Bool} {state : State} (hpending : state.pending = []) :
    result (run algorithm fs options recursive state) = .ok state.reports := by
  rw [run]
  split
  · rfl
  · rename_i heq
    cases hpending.symm.trans heq

theorem result_run_of_cons {recursive : Bool} {state : State} {dir : Path} {pending : List Path}
    (hpending : state.pending = dir :: pending) :
    result (run algorithm fs options recursive state) =
      result (visit algorithm fs options recursive dir { state with pending }) >>= fun next =>
        result (run algorithm fs options recursive next) := by
  rw [run]
  split
  · rename_i heq
    cases hpending.symm.trans heq
  · rename_i heq
    obtain ⟨rfl, rfl⟩ := List.cons.inj (hpending.symm.trans heq)
    rw [Logged.result_bindWith]

theorem run_of_visit {state next : State} {dir : Path} {pending : List Path}
    (hpending : state.pending = dir :: pending)
    (hvisit : result (visit algorithm fs options true dir { state with pending }) = .ok next)
    {found : List DirectoryReport} (h : result (run algorithm fs options true next) = .ok found) :
    result (run algorithm fs options true state) = .ok found := by
  rw [result_run_of_cons hpending, hvisit]
  exact h

theorem exists_final_of_run {state : State} (hstate : Reached algorithm fs options root state)
    {found : List DirectoryReport} (h : result (run algorithm fs options true state) = .ok found) :
    ∃ final, Reached algorithm fs options root final ∧ final.pending = [] ∧
      final.reports = found := by
  induction state using run.induct algorithm fs options true with
  | case1 state hpending =>
    rw [run_of_pending_nil hpending] at h
    exact ⟨state, hstate, hpending, Except.ok.inj h⟩
  | case2 state dir pending hpending ih =>
    rw [result_run_of_cons hpending] at h
    cases hvisit : result (visit algorithm fs options true dir { state with pending }) with
    | error e =>
      rw [hvisit] at h
      cases h
    | ok next =>
      rw [hvisit] at h
      exact ih next hvisit (.visit hstate hpending hvisit) h

theorem isReportOf_of_take {dir : Path} {location : Location} {snapshot : Snapshot}
    {report : DirectoryReport} (hlocate : fs.locate dir true = .ok location)
    (htake : result (Snapshot.take algorithm fs options dir) = .ok snapshot)
    (hreport : DirectoryReport.ofSnapshot? snapshot = some report) :
    IsReportOf algorithm fs options location report ∧ report.path = dir ∧
      report.subdirectories = snapshot.subdirectories := by
  obtain ⟨items, name, -, -, hassembled⟩ := Snapshot.take_eq_ok_iff.mp htake
  obtain ⟨entries, -, hfields⟩ := Option.map_eq_some_iff.mp hreport
  have hpath : report.path = dir := by
    rw [← hfields, hassembled]
    rfl
  refine ⟨⟨hpath ▸ hlocate, snapshot, hpath ▸ htake, hreport⟩, hpath, ?_⟩
  rw [← hfields]

theorem IsReportOf.location_unique {location other : Location} {report : DirectoryReport}
    (h : IsReportOf algorithm fs options location report)
    (h' : IsReportOf algorithm fs options other report) : location = other :=
  Except.ok.inj (h.1.symm.trans h'.1)

theorem IsReportOf.reachable_subdirectory {location : Location} {report : DirectoryReport}
    (h : IsReportOf algorithm fs options location report)
    (hdir : Reachable algorithm fs options root report.path) {sub : Path}
    (hsub : sub ∈ report.subdirectories) : Reachable algorithm fs options root sub := by
  obtain ⟨hlocate, snapshot, htake, hreport⟩ := h
  rw [(isReportOf_of_take hlocate htake hreport).2.2] at hsub
  exact hdir.subdirectory htake hsub

theorem IsReportOf.subdirectories_eq {location : Location} {report : DirectoryReport}
    (h : IsReportOf algorithm fs options location report) : report.subdirectories =
      (Snapshot.subdirectoryNames fs options location).map report.path.join := by
  obtain ⟨hlocate, snapshot, htake, hreport⟩ := h
  rw [(isReportOf_of_take hlocate htake hreport).2.2, Snapshot.subdirectories_of_take htake hlocate]

/-- What a visit of a recursive scan does, in terms of the report. -/
theorem visit_cases {state next : State} {dir : Path}
    (h : result (visit algorithm fs options true dir state) = .ok next) :
    ∃ location, fs.locate dir true = .ok location ∧
      ((keyOf location ∈ state.visited ∧ next = state) ∨
        keyOf location ∉ state.visited ∧ ∃ report, report.path = dir ∧
          IsReportOf algorithm fs options location report ∧
          next = ⟨keyOf location :: state.visited, state.pending ++ report.subdirectories,
            state.reports ++ [report]⟩) := by
  obtain ⟨location, hlocation, hcases⟩ := visit_eq_ok_iff.mp h
  have hlocate := FileSystem.locate_of_canonicalLocation hlocation
  rcases hcases with hknown | ⟨hnew, snapshot, report, htake, hreport, rfl⟩
  · exact ⟨location, hlocate, Or.inl hknown⟩
  · obtain ⟨hof, hpath, hlisted⟩ := isReportOf_of_take hlocate htake hreport
    exact ⟨location, hlocate, Or.inr ⟨hnew, report, hpath, hof, by rw [hlisted]; rfl⟩⟩

def IsMet (fs : FileSystem) (state : State) (dir : Path) : Prop :=
  dir ∈ state.pending ∨ ∃ location, fs.locate dir true = .ok location ∧
    keyOf location ∈ state.visited

structure Invariant (algorithm : HashAlgorithm) (fs : FileSystem) (options : SnapshotOptions)
    (root : Path) (state : State) : Prop where
  pending_reachable : ∀ dir ∈ state.pending, Reachable algorithm fs options root dir
  reported : ∀ report ∈ state.reports, Reachable algorithm fs options root report.path ∧
    ∃ location, IsReportOf algorithm fs options location report ∧ keyOf location ∈ state.visited
  known : ∀ key ∈ state.visited, ∃ location, keyOf location = key ∧
    ∃ report ∈ state.reports, IsReportOf algorithm fs options location report
  distinct : state.reports.Pairwise fun first second => ∀ location other,
    IsReportOf algorithm fs options location first →
    IsReportOf algorithm fs options other second → keyOf location ≠ keyOf other
  root_met : IsMet fs state root
  listed_met : ∀ report ∈ state.reports, ∀ sub ∈ report.subdirectories, IsMet fs state sub

theorem invariant_start : Invariant algorithm fs options root ⟨[], [root], []⟩ where
  pending_reachable := by
    intro dir hdir
    obtain rfl := List.mem_singleton.mp hdir
    exact .root
  reported := nofun
  known := nofun
  distinct := .nil
  root_met := Or.inl (List.mem_singleton_self root)
  listed_met := nofun

theorem IsMet.of_known {state : State} {dir met : Path} {pending : List Path} {location : Location}
    (hpending : state.pending = dir :: pending) (hlocate : fs.locate dir true = .ok location)
    (hknown : keyOf location ∈ state.visited) (h : IsMet fs state met) :
    IsMet fs { state with pending } met := by
  rcases h with h | h
  · rw [hpending] at h
    rcases List.mem_cons.mp h with rfl | h
    · exact Or.inr ⟨location, hlocate, hknown⟩
    · exact Or.inl h
  · exact Or.inr h

theorem IsMet.of_new {state : State} {dir met : Path} {pending more : List Path}
    {location : Location} {reports : List DirectoryReport}
    (hpending : state.pending = dir :: pending) (hlocate : fs.locate dir true = .ok location)
    (h : IsMet fs state met) :
    IsMet fs ⟨keyOf location :: state.visited, pending ++ more, reports⟩ met := by
  rcases h with h | ⟨other, hother, hknown⟩
  · rw [hpending] at h
    rcases List.mem_cons.mp h with rfl | h
    · exact Or.inr ⟨location, hlocate, List.mem_cons_self⟩
    · exact Or.inl (List.mem_append_left more h)
  · exact Or.inr ⟨other, hother, List.mem_cons_of_mem _ hknown⟩

theorem Invariant.of_known {state : State} {dir : Path} {pending : List Path} {location : Location}
    (h : Invariant algorithm fs options root state) (hpending : state.pending = dir :: pending)
    (hlocate : fs.locate dir true = .ok location) (hknown : keyOf location ∈ state.visited) :
    Invariant algorithm fs options root { state with pending } where
  pending_reachable := fun waiting hwaiting =>
    h.pending_reachable waiting (hpending ▸ List.mem_cons_of_mem dir hwaiting)
  reported := h.reported
  known := h.known
  distinct := h.distinct
  root_met := h.root_met.of_known hpending hlocate hknown
  listed_met := fun report hreport sub hsub =>
    (h.listed_met report hreport sub hsub).of_known hpending hlocate hknown

theorem Invariant.of_new {state : State} {pending : List Path} {location : Location}
    {report : DirectoryReport} (h : Invariant algorithm fs options root state)
    (hpending : state.pending = report.path :: pending) (hnew : keyOf location ∉ state.visited)
    (hof : IsReportOf algorithm fs options location report) :
    Invariant algorithm fs options root
      ⟨keyOf location :: state.visited, pending ++ report.subdirectories,
        state.reports ++ [report]⟩ := by
  have hdir : Reachable algorithm fs options root report.path :=
    h.pending_reachable _ (hpending ▸ List.mem_cons_self)
  have hmet : ∀ met, IsMet fs state met → IsMet fs
      ⟨keyOf location :: state.visited, pending ++ report.subdirectories,
        state.reports ++ [report]⟩ met :=
    fun met hmet => hmet.of_new hpending hof.1
  exact
    { pending_reachable := by
        intro waiting hwaiting
        rcases List.mem_append.mp hwaiting with hwaiting | hwaiting
        · exact h.pending_reachable waiting (hpending ▸ List.mem_cons_of_mem _ hwaiting)
        · exact hof.reachable_subdirectory hdir hwaiting
      reported := by
        intro old hold
        rcases List.mem_append.mp hold with hold | hold
        · obtain ⟨hold, other, hother, hknown⟩ := h.reported old hold
          exact ⟨hold, other, hother, List.mem_cons_of_mem _ hknown⟩
        · obtain rfl := List.mem_singleton.mp hold
          exact ⟨hdir, location, hof, List.mem_cons_self⟩
      known := by
        intro key hkey
        rcases List.mem_cons.mp hkey with rfl | hkey
        · exact ⟨location, rfl, report, List.mem_append_right _ (List.mem_singleton_self report),
            hof⟩
        · obtain ⟨other, hother, old, hold, his⟩ := h.known key hkey
          exact ⟨other, hother, old, List.mem_append_left _ hold, his⟩
      distinct := by
        rw [List.pairwise_append]
        refine ⟨h.distinct, List.pairwise_singleton _ _, fun old hold new hmem => ?_⟩
        obtain rfl := List.mem_singleton.mp hmem
        obtain ⟨-, other, hother, hknown⟩ := h.reported old hold
        intro first second hfirst hsecond hkeys
        obtain rfl := hother.location_unique hfirst
        obtain rfl := hof.location_unique hsecond
        exact hnew (hkeys ▸ hknown)
      root_met := hmet root h.root_met
      listed_met := by
        intro old hold sub hsub
        rcases List.mem_append.mp hold with hold | hold
        · exact hmet sub (h.listed_met old hold sub hsub)
        · obtain rfl := List.mem_singleton.mp hold
          exact Or.inl (List.mem_append_right _ hsub) }

/-- A visit keeps the invariant. -/
theorem Invariant.visit {state next : State} {dir : Path} {pending : List Path}
    (h : Invariant algorithm fs options root state) (hpending : state.pending = dir :: pending)
    (hvisit : result (visit algorithm fs options true dir { state with pending }) = .ok next) :
    Invariant algorithm fs options root next := by
  obtain ⟨location, hlocate, ⟨hknown, rfl⟩ | ⟨hnew, report, rfl, hof, rfl⟩⟩ := visit_cases hvisit
  · exact h.of_known hpending hlocate hknown
  · exact h.of_new hpending hnew hof

theorem Reached.invariant {state : State} (h : Reached algorithm fs options root state) :
    Invariant algorithm fs options root state := by
  induction h with
  | start => exact invariant_start
  | visit _ hpending hvisit ih => exact ih.visit hpending hvisit

theorem Invariant.report_unique {state : State} (h : Invariant algorithm fs options root state)
    {first second : DirectoryReport} (hfirst : first ∈ state.reports)
    (hsecond : second ∈ state.reports) {location other : Location}
    (hfirstOf : IsReportOf algorithm fs options location first)
    (hsecondOf : IsReportOf algorithm fs options other second)
    (hkeys : keyOf location = keyOf other) : first = second := by
  have hsymm : Std.Symm fun a b : DirectoryReport => ∀ l m,
      IsReportOf algorithm fs options l a → IsReportOf algorithm fs options m b →
        keyOf l ≠ keyOf m :=
    ⟨fun a b hab l m hl hm hlm => hab m l hm hl hlm.symm⟩
  by_contra hne
  exact h.distinct.forall hfirst hsecond hne location other hfirstOf hsecondOf hkeys

theorem Invariant.nodup_reports {state : State} (h : Invariant algorithm fs options root state) :
    state.reports.Nodup := by
  refine h.distinct.imp_of_mem fun {first second} hfirst _ hkeys heq => ?_
  obtain ⟨-, location, hof, -⟩ := h.reported first hfirst
  exact hkeys location location hof (heq ▸ hof) rfl

end MerkleDir.Scan
