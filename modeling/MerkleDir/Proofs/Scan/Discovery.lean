import MerkleDir.Proofs.Scan.Reached

namespace MerkleDir

theorem FileSystem.nodeAt?_child {fs : FileSystem} {here : Location} {node child : Node}
    (hnode : fs.nodeAt? here = some node) {name : Bytes} (h : (name, child) ∈ node.entries) :
    fs.nodeAt? (here ++ [name]) = some child := by
  rw [nodeAt?] at hnode
  rw [nodeAt?, Node.descend?_append, hnode, Option.bind_some, Node.descend?,
    Node.child?_of_mem (isWellFormed_of_nodeAt? hnode) h]
  rfl

namespace Snapshot

variable {fs : FileSystem} {options : SnapshotOptions}

theorem nodup_subdirectoryNames (here : Location) : (subdirectoryNames fs options here).Nodup := by
  rw [subdirectoryNames]
  cases hnode : fs.nodeAt? here with
  | none => exact List.nodup_nil
  | some node =>
    have hnames := Node.nodup_names (FileSystem.isWellFormed_of_nodeAt? hnode)
    exact hnames.sublist (List.filter_sublist.map Prod.fst)

def sublocations (fs : FileSystem) (options : SnapshotOptions) (here : Location) : List Location :=
  (subdirectoryNames fs options here).map fun name => here ++ [name]

theorem nodup_sublocations (here : Location) : (sublocations fs options here).Nodup :=
  (nodup_subdirectoryNames here).map fun _ _ h => List.singleton_inj.mp (List.append_cancel_left h)

theorem mem_locations_of_mem_sublocations {here location : Location}
    (h : location ∈ sublocations fs options here) : location ∈ fs.locations := by
  obtain ⟨name, hname, rfl⟩ := List.mem_map.mp h
  rw [subdirectoryNames] at hname
  cases hnode : fs.nodeAt? here with
  | none =>
    rw [hnode] at hname
    cases hname
  | some node =>
    rw [hnode] at hname
    obtain ⟨⟨name, child⟩, hentry, rfl⟩ := List.mem_map.mp hname
    exact FileSystem.mem_locations (FileSystem.nodeAt?_child hnode (List.mem_filter.mp hentry).1)

/-- No entry is listed at two locations, and the root is listed at none. -/
theorem nodup_sublocations_of_nodup {places : List Location} (h : places.Nodup) :
    ([] :: places.flatMap (sublocations fs options)).Nodup := by
  refine List.nodup_cons.mpr ⟨fun hroot => ?_, List.nodup_flatMap.mpr
    ⟨fun here _ => nodup_sublocations here, h.imp fun {here other} hne => ?_⟩⟩
  · obtain ⟨here, -, hroot⟩ := List.mem_flatMap.mp hroot
    obtain ⟨name, -, hname⟩ := List.mem_map.mp hroot
    exact List.append_ne_nil_of_right_ne_nil here (List.cons_ne_nil name []) hname
  · intro location hlocation hother
    obtain ⟨name, -, rfl⟩ := List.mem_map.mp hlocation
    obtain ⟨name', -, heq⟩ := List.mem_map.mp hother
    exact hne (List.append_inj_left' heq rfl).symm

/-- All that is listed at different locations, and the root, are locations of the file system. -/
theorem length_sublocations_le {places : List Location} (h : places.Nodup) :
    (places.flatMap (sublocations fs options)).length + 1 ≤ fs.locations.length := by
  refine ((nodup_sublocations_of_nodup h).subperm ?_).length_le
  intro location hlocation
  rcases List.mem_cons.mp hlocation with rfl | hlocation
  · exact Node.nil_mem_locations fs.root
  · obtain ⟨here, -, hlocation⟩ := List.mem_flatMap.mp hlocation
    exact mem_locations_of_mem_sublocations hlocation

end Snapshot

namespace Scan

open Logged (result)

variable {algorithm : HashAlgorithm} {fs : FileSystem} {options : SnapshotOptions} {root : Path}

/-- The states of a recursive scan, with the directories that it has visited so far. -/
inductive Visited (algorithm : HashAlgorithm) (fs : FileSystem) (options : SnapshotOptions)
    (root : Path) : List Path → State → Prop
  | start : Visited algorithm fs options root [] ⟨[], [root], []⟩
  | visit {done : List Path} {state next : State} {dir : Path} {pending : List Path}
      (hstate : Visited algorithm fs options root done state)
      (hpending : state.pending = dir :: pending)
      (hvisit : result (visit algorithm fs options true dir { state with pending }) = .ok next) :
      Visited algorithm fs options root (done ++ [dir]) next

theorem Visited.reached {done : List Path} {state : State}
    (h : Visited algorithm fs options root done state) :
    Reached algorithm fs options root state := by
  induction h with
  | start => exact .start
  | visit _ hpending hvisit ih => exact .visit ih hpending hvisit

def discovered (root : Path) (reports : List DirectoryReport) : List Path :=
  root :: reports.flatMap (·.subdirectories)

theorem discovered_append_singleton (reports : List DirectoryReport) (report : DirectoryReport) :
    discovered root (reports ++ [report]) = discovered root reports ++ report.subdirectories := by
  simp [discovered]

/-- What a scan has come upon it has visited, or it waits. -/
theorem Visited.discovered_eq {done : List Path} {state : State}
    (h : Visited algorithm fs options root done state) :
    discovered root state.reports = done ++ state.pending := by
  induction h with
  | start => rfl
  | @visit done state next dir pending _ hpending hvisit ih =>
    rw [hpending, List.append_cons] at ih
    obtain ⟨location, -, ⟨-, rfl⟩ | ⟨-, report, -, -, rfl⟩⟩ := visit_cases hvisit
    · exact ih
    · rw [discovered_append_singleton, ih, List.append_assoc]

theorem Reached.nodup_visited {state : State} (h : Reached algorithm fs options root state) :
    state.visited.Nodup := by
  induction h with
  | start => exact List.nodup_nil
  | visit _ _ hvisit ih =>
    obtain ⟨location, -, ⟨-, rfl⟩ | ⟨hnew, report, -, -, rfl⟩⟩ := visit_cases hvisit
    · exact ih
    · exact List.nodup_cons.mpr ⟨hnew, ih⟩

/-- What is known is what the places of the reports are known by, the last first. -/
theorem Reached.exists_places {state : State} (h : Reached algorithm fs options root state) :
    ∃ places, List.Forall₂ (IsReportOf algorithm fs options) places state.reports ∧
      state.visited = (places.map keyOf).reverse := by
  induction h with
  | start => exact ⟨[], .nil, rfl⟩
  | visit _ _ hvisit ih =>
    obtain ⟨places, hplaces, hvisited⟩ := ih
    obtain ⟨location, -, ⟨-, rfl⟩ | ⟨-, report, -, hof, rfl⟩⟩ := visit_cases hvisit
    · exact ⟨places, hplaces, hvisited⟩
    · refine ⟨places ++ [location], List.rel_append hplaces (.cons hof .nil), ?_⟩
      rw [List.map_append, List.reverse_append, ← hvisited]
      rfl

theorem Reached.exists_nodup_places {state : State}
    (h : Reached algorithm fs options root state) :
    ∃ places, List.Forall₂ (IsReportOf algorithm fs options) places state.reports ∧
      places.Nodup := by
  obtain ⟨places, hplaces, hvisited⟩ := h.exists_places
  refine ⟨places, hplaces, ?_⟩
  have hkeys := h.nodup_visited
  rw [hvisited, List.nodup_reverse] at hkeys
  exact hkeys.of_map keyOf

theorem length_discovered {places : List Location} {reports : List DirectoryReport}
    (h : List.Forall₂ (IsReportOf algorithm fs options) places reports) :
    (discovered root reports).length =
      (places.flatMap (Snapshot.sublocations fs options)).length + 1 := by
  rw [discovered, List.length_cons]
  congr 1
  induction h with
  | nil => rfl
  | @cons location report places reports hof _ ih =>
    rw [List.flatMap_cons, List.flatMap_cons, List.length_append, List.length_append, ih,
      hof.subdirectories_eq, Snapshot.sublocations, List.length_map, List.length_map]

/-- A scan has never visited more, with what still waits, than there are places. -/
theorem Visited.length_le {done : List Path} {state : State}
    (h : Visited algorithm fs options root done state) :
    done.length + state.pending.length ≤ fs.locations.length := by
  obtain ⟨places, hplaces, hnodup⟩ := h.reached.exists_nodup_places
  calc done.length + state.pending.length
      = (discovered root state.reports).length := by rw [h.discovered_eq, List.length_append]
    _ = (places.flatMap (Snapshot.sublocations fs options)).length + 1 := length_discovered hplaces
    _ ≤ fs.locations.length := Snapshot.length_sublocations_le hnodup

inductive Ends (algorithm : HashAlgorithm) (fs : FileSystem) (options : SnapshotOptions)
    (state : State) : Except CommandError (List DirectoryReport) → Prop
  | found (hpending : state.pending = []) : Ends algorithm fs options state (.ok state.reports)
  | failed {dir : Path} {pending : List Path} {e : CommandError}
      (hpending : state.pending = dir :: pending)
      (hvisit : result (visit algorithm fs options true dir { state with pending }) = .error e) :
      Ends algorithm fs options state (.error e)

/-- Visit after visit, a scan ends with nothing that waits, or with a visit that fails. -/
theorem exists_end_of_run {done : List Path} {state : State}
    (hstate : Visited algorithm fs options root done state) :
    ∃ all final, Visited algorithm fs options root all final ∧
      Ends algorithm fs options final (result (run algorithm fs options true state)) := by
  -- along the recursion of the run, which has fewer places to come upon or less that waits
  induction state using run.induct algorithm fs options true generalizing done with
  | case1 state hpending =>
    rw [run_of_pending_nil hpending]
    exact ⟨done, state, hstate, .found hpending⟩
  | case2 state dir pending hpending ih =>
    rw [result_run_of_cons hpending]
    cases hvisit : result (visit algorithm fs options true dir { state with pending }) with
    | error e => exact ⟨done, state, hstate, .failed hpending hvisit⟩
    | ok next => exact ih next hvisit (.visit hstate hpending hvisit)

end Scan
end MerkleDir
