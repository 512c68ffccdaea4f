import MerkleDir.Proofs.Scan.Reached

namespace MerkleDir.Scan

open Logged (result)

variable {algorithm : HashAlgorithm} {fs : FileSystem} {options : SnapshotOptions} {root : Path}

def ReachableAt (algorithm : HashAlgorithm) (fs : FileSystem) (options : SnapshotOptions)
    (root : Path) (location : Location) : Prop :=
  ∃ dir, Reachable algorithm fs options root dir ∧ fs.locate dir true = .ok location

def Covers (algorithm : HashAlgorithm) (fs : FileSystem) (options : SnapshotOptions) (root : Path)
    (found : List DirectoryReport) : Prop :=
  ∀ location, ReachableAt algorithm fs options root location →
    ∃ report ∈ found, IsReportOf algorithm fs options location report

/-- A directory is passed over only if it has a report already. -/
def SkipsReported (algorithm : HashAlgorithm) (fs : FileSystem) (options : SnapshotOptions)
    (root : Path) : Prop :=
  ∀ state dir pending location, Reached algorithm fs options root state →
    state.pending = dir :: pending → fs.locate dir true = .ok location →
    keyOf location ∈ state.visited →
    ∃ report ∈ state.reports, IsReportOf algorithm fs options location report

/-- No two directories that are reachable are known by the same. -/
def KeysApart (algorithm : HashAlgorithm) (fs : FileSystem) (options : SnapshotOptions)
    (root : Path) : Prop :=
  ∀ location other, ReachableAt algorithm fs options root location →
    ReachableAt algorithm fs options root other → keyOf location = keyOf other → location = other

/-- Where keys are apart, a directory that is known has a report of its own. -/
theorem exists_report_of_known (hapart : KeysApart algorithm fs options root) {state : State}
    (h : Invariant algorithm fs options root state) {location : Location}
    (hreachable : ReachableAt algorithm fs options root location)
    (hknown : keyOf location ∈ state.visited) :
    ∃ report ∈ state.reports, IsReportOf algorithm fs options location report := by
  obtain ⟨other, hkey, report, hreport, hother⟩ := h.known _ hknown
  have hreached : ReachableAt algorithm fs options root other :=
    ⟨report.path, (h.reported report hreport).1, hother.1⟩
  obtain rfl := hapart other location hreached hreachable hkey
  exact ⟨report, hreport, hother⟩

theorem known_of_isMet {state : State} (hpending : state.pending = []) {dir : Path}
    {location : Location} (hlocate : fs.locate dir true = .ok location) (h : IsMet fs state dir) :
    keyOf location ∈ state.visited := by
  rcases h with h | ⟨other, hother, hknown⟩
  · rw [hpending] at h
    cases h
  · obtain rfl := Except.ok.inj (hlocate.symm.trans hother)
    exact hknown

theorem IsReportOf.exists_listed {location : Location} {report : DirectoryReport}
    (h : IsReportOf algorithm fs options location report) {dir sub : Path}
    (hlocate : fs.locate dir true = .ok location) {snapshot : Snapshot}
    (htake : result (Snapshot.take algorithm fs options dir) = .ok snapshot)
    (hsub : sub ∈ snapshot.subdirectories) : ∃ name, Node.isEntryName name = true ∧
      sub = dir.join name ∧ report.path.join name ∈ report.subdirectories := by
  rw [Snapshot.subdirectories_of_take htake hlocate] at hsub
  obtain ⟨name, hname, rfl⟩ := List.mem_map.mp hsub
  refine ⟨name, Snapshot.isEntryName_of_mem_subdirectoryNames hname, rfl, ?_⟩
  rw [h.subdirectories_eq]
  exact List.mem_map_of_mem hname

/-- A state in which nothing waits covers all that is reachable, if keys are apart. -/
theorem covers_of_keysApart (hapart : KeysApart algorithm fs options root) {state : State}
    (h : Invariant algorithm fs options root state) (hpending : state.pending = []) :
    Covers algorithm fs options root state.reports := by
  rintro location ⟨dir, hdir, hlocate⟩
  -- along the way from the root; the report that is listed in may be of another path
  induction hdir generalizing location with
  | root =>
    exact exists_report_of_known hapart h ⟨root, .root, hlocate⟩
      (known_of_isMet hpending hlocate h.root_met)
  | @subdirectory dir sub snapshot hdir htake hsub ih =>
    obtain ⟨here, node, hhere, -⟩ := exists_node_of_take htake
    obtain ⟨report, hreport, hof⟩ := ih here hhere
    obtain ⟨name, hname, rfl, hlisted⟩ := hof.exists_listed hhere htake hsub
    have hmet := h.listed_met report hreport _ hlisted
    have hknown : keyOf location ∈ state.visited := by
      rcases hmet with hmet | ⟨other, hother, hknown⟩
      · rw [hpending] at hmet
        cases hmet
      · have hunique := (FileSystem.reaches_of_locate hhere).locate_join_unique
          (FileSystem.reaches_of_locate hof.1) (Node.isEntryName_iff.mp hname).1 hlocate hother
        exact hunique ▸ hknown
    exact exists_report_of_known hapart h ⟨_, hdir.subdirectory htake hsub, hlocate⟩ hknown

/-- A scan makes one report for all that is known by the same. -/
theorem keysApart_of_covers {state : State} (h : Invariant algorithm fs options root state)
    (hcovers : Covers algorithm fs options root state.reports) :
    KeysApart algorithm fs options root := by
  intro location other hlocation hother hkeys
  obtain ⟨first, hfirst, hfirstOf⟩ := hcovers location hlocation
  obtain ⟨second, hsecond, hsecondOf⟩ := hcovers other hother
  obtain rfl := h.report_unique hfirst hsecond hfirstOf hsecondOf hkeys
  exact hfirstOf.location_unique hsecondOf

theorem skipsReported_of_keysApart (hapart : KeysApart algorithm fs options root) :
    SkipsReported algorithm fs options root := by
  intro state dir pending location hstate hwaiting hlocate hknown
  have hdir := hstate.invariant.pending_reachable dir (hwaiting ▸ List.mem_cons_self)
  exact exists_report_of_known hapart hstate.invariant ⟨dir, hdir, hlocate⟩ hknown

/-- A recursive scan that succeeds reports all that is reachable, and passes over nothing else,
exactly if no two of the directories are known by the same. -/
theorem covers_iff_keysApart {found : List DirectoryReport}
    (h : result (reports algorithm fs options true root) = .ok found) :
    Covers algorithm fs options root found ∧ SkipsReported algorithm fs options root ↔
      KeysApart algorithm fs options root := by
  obtain ⟨final, hfinal, hpending, rfl⟩ := exists_final_of_run .start h
  constructor
  · exact fun hcovers => keysApart_of_covers hfinal.invariant hcovers.1
  · exact fun hapart =>
      ⟨covers_of_keysApart hapart hfinal.invariant hpending, skipsReported_of_keysApart hapart⟩

/-- The text by which a location is known is the text of its path, and nothing is lost in it. -/
def IsLossless (location : Location) : Prop :=
  Path.ofText (Path.normalizeText (FileSystem.absolutePath location).display) =
    FileSystem.absolutePath location

theorem keyOf_of_isLossless {location : Location} (h : IsLossless location)
    (hnames : ∀ name ∈ location, Node.isEntryName name = true) :
    keyOf location = .root :: location.map .name := by
  unfold keyOf
  rw [h, FileSystem.components_absolutePath hnames]

theorem ReachableAt.isEntryName {location : Location}
    (h : ReachableAt algorithm fs options root location) :
    ∀ name ∈ location, Node.isEntryName name = true := by
  obtain ⟨dir, -, hlocate⟩ := h
  obtain ⟨n, hleads⟩ := FileSystem.reaches_of_locate hlocate
  exact hleads.isEntryName nofun

theorem keysApart_of_isLossless
    (h : ∀ location, ReachableAt algorithm fs options root location → IsLossless location) :
    KeysApart algorithm fs options root := by
  intro location other hlocation hother hkeys
  rw [keyOf_of_isLossless (h location hlocation) hlocation.isEntryName,
    keyOf_of_isLossless (h other hother) hother.isEntryName] at hkeys
  exact List.map_injective_iff.mpr (fun _ _ => Path.Component.name.inj) (List.cons.inj hkeys).2

theorem covers_of_isLossless {found : List DirectoryReport}
    (h : result (reports algorithm fs options true root) = .ok found)
    (hlossless : ∀ location, ReachableAt algorithm fs options root location →
      IsLossless location) : Covers algorithm fs options root found := by
  obtain ⟨final, hfinal, hpending, rfl⟩ := exists_final_of_run .start h
  exact covers_of_keysApart (keysApart_of_isLossless hlossless) hfinal.invariant hpending

theorem exists_report_of_directories {dir : Path} {items : List WalkItem}
    (hitems : items.filterMap WalkItem.leaf? = []) (name : String) : ∃ report,
      DirectoryReport.ofSnapshot? (.assembled algorithm options dir items name) = some report := by
  have hentries : (Snapshot.assembled algorithm options dir items name).entries = [] := by
    simp [Snapshot.assembled, Snapshot.walkedEntries, hitems, EntryStore.ofEntries, EntryStore.empty]
  rw [DirectoryReport.ofSnapshot?, hentries]
  exact ⟨_, rfl⟩

theorem visit_directories {dir : Path} {location : Location} {items : List WalkItem}
    {name : String} (state : State) (hlocate : fs.locate dir true = .ok location)
    (hnew : keyOf location ∉ state.visited) (hwalk : result (walk fs options dir) = .ok items)
    (hname : Snapshot.directoryName fs dir = .ok name)
    (hitems : items.filterMap WalkItem.leaf? = []) :
    ∃ report, IsReportOf algorithm fs options location report ∧
      result (visit algorithm fs options true dir state) = .ok
        ⟨keyOf location :: state.visited,
          state.pending ++ items.filterMap WalkItem.directory?, state.reports ++ [report]⟩ := by
  have htake : result (Snapshot.take algorithm fs options dir) =
      .ok (.assembled algorithm options dir items name) :=
    Snapshot.take_eq_ok_iff.mpr ⟨items, name, hwalk, hname, rfl⟩
  obtain ⟨report, hreport⟩ := exists_report_of_directories hitems name
  refine ⟨report, (isReportOf_of_take hlocate htake hreport).1, ?_⟩
  exact visit_eq_ok_iff.mpr ⟨location, canonicalLocation_of_walk hlocate hwalk,
    Or.inr ⟨hnew, _, report, htake, hreport, rfl⟩⟩

theorem keyOf_r : keyOf [[114]] = [.root, .name [114]] := by
  unfold keyOf
  cbv

theorem keyOf_a : keyOf [[114], [97]] = [.root, .name [114], .name [97]] := by
  unfold keyOf
  cbv

/-- The separator that ends the name of a directory is lost. -/
theorem keyOf_backslash : keyOf [[114], [97, 92]] = [.root, .name [114], .name [97]] := by
  unfold keyOf
  cbv

def withA : FileSystem :=
  ⟨.bits34, .directory true [([114], .directory true [([97], .directory true [])])], by decide⟩

theorem locate_withA : withA.locate ⟨[114]⟩ true = .ok [[114]] := by cbv

theorem locate_a_withA : withA.locate ⟨[114, 47, 97]⟩ true = .ok [[114], [97]] := by cbv

theorem exists_reports_withA :
    ∃ found, result (reports .blake3 withA .default true ⟨[114]⟩) = .ok found := by
  have hwalk : result (walk withA .default ⟨[114]⟩) = .ok [.directory ⟨[114, 47, 97]⟩] := by cbv
  have hname : Snapshot.directoryName withA ⟨[114]⟩ = .ok "r" := by cbv
  have hwalka : result (walk withA .default ⟨[114, 47, 97]⟩) = .ok [] := by cbv
  have hnamea : Snapshot.directoryName withA ⟨[114, 47, 97]⟩ = .ok "a" := by cbv
  have hnewa : keyOf [[114], [97]] ∉ [keyOf [[114]]] := by simp [keyOf_r, keyOf_a]
  obtain ⟨first, -, hfirst⟩ :=
    visit_directories ⟨[], [], []⟩ locate_withA List.not_mem_nil hwalk hname rfl
  obtain ⟨second, -, hsecond⟩ :=
    visit_directories ⟨[keyOf [[114]]], [], [first]⟩ locate_a_withA hnewa hwalka hnamea rfl
  exact ⟨_, run_of_visit rfl hfirst (run_of_visit rfl hsecond (run_of_pending_nil rfl))⟩

theorem reachable_withA {dir : Path} (h : Reachable .blake3 withA .default ⟨[114]⟩ dir) :
    dir = ⟨[114]⟩ ∨ dir = ⟨[114, 47, 97]⟩ := by
  induction h with
  | root => exact Or.inl rfl
  | @subdirectory dir sub snapshot _ htake hsub ih =>
    have hr : Snapshot.subdirectoryNames withA .default [[114]] = [[97]] := by cbv
    have ha : Snapshot.subdirectoryNames withA .default [[114], [97]] = [] := by cbv
    rcases ih with rfl | rfl
    · rw [Snapshot.subdirectories_of_take htake locate_withA, hr] at hsub
      exact Or.inr (List.mem_singleton.mp hsub)
    · rw [Snapshot.subdirectories_of_take htake locate_a_withA, ha] at hsub
      cases hsub

theorem keysApart_withA : KeysApart .blake3 withA .default ⟨[114]⟩ := by
  have hat : ∀ location, ReachableAt .blake3 withA .default ⟨[114]⟩ location →
      location = [[114]] ∨ location = [[114], [97]] := by
    rintro location ⟨dir, hdir, hlocate⟩
    rcases reachable_withA hdir with rfl | rfl
    · exact Or.inl (Except.ok.inj (hlocate.symm.trans locate_withA))
    · exact Or.inr (Except.ok.inj (hlocate.symm.trans locate_a_withA))
  intro location other hlocation hother hkeys
  rcases hat location hlocation with rfl | rfl <;> rcases hat other hother with rfl | rfl
  · rfl
  · simp [keyOf_r, keyOf_a] at hkeys
  · simp [keyOf_r, keyOf_a] at hkeys
  · rfl

theorem covers_withA :
    ∃ found, result (reports .blake3 withA .default true ⟨[114]⟩) = .ok found ∧
      Covers .blake3 withA .default ⟨[114]⟩ found ∧
      SkipsReported .blake3 withA .default ⟨[114]⟩ := by
  obtain ⟨found, hfound⟩ := exists_reports_withA
  exact ⟨found, hfound, (covers_iff_keysApart hfound).mpr keysApart_withA⟩

def withBackslash : FileSystem :=
  ⟨.bits34, .directory true [([114], .directory true
    [([97], .directory true []), ([97, 92], .directory true [])])], by decide⟩

/-- Of two directories that differ in a separator at the end of their names only one has a report.
-/
theorem not_reported_backslash :
    ∃ found, result (reports .blake3 withBackslash .default true ⟨[114]⟩) = .ok found ∧
      ReachableAt .blake3 withBackslash .default ⟨[114]⟩ [[114], [97, 92]] ∧
      ¬ ∃ report ∈ found,
        IsReportOf .blake3 withBackslash .default [[114], [97, 92]] report := by
  have hlocate : withBackslash.locate ⟨[114]⟩ true = .ok [[114]] := by cbv
  have hwalk : result (walk withBackslash .default ⟨[114]⟩) =
      .ok [.directory ⟨[114, 47, 97]⟩, .directory ⟨[114, 47, 97, 92]⟩] := by cbv
  have hname : Snapshot.directoryName withBackslash ⟨[114]⟩ = .ok "r" := by cbv
  have hlocatea : withBackslash.locate ⟨[114, 47, 97]⟩ true = .ok [[114], [97]] := by cbv
  have hwalka : result (walk withBackslash .default ⟨[114, 47, 97]⟩) = .ok [] := by cbv
  have hnamea : Snapshot.directoryName withBackslash ⟨[114, 47, 97]⟩ = .ok "a" := by cbv
  have hlocationb : withBackslash.canonicalLocation ⟨[114, 47, 97, 92]⟩ = .ok [[114], [97, 92]] := by
    cbv
  have hnewa : keyOf [[114], [97]] ∉ [keyOf [[114]]] := by simp [keyOf_r, keyOf_a]
  have hknownb : keyOf [[114], [97, 92]] ∈ [keyOf [[114], [97]], keyOf [[114]]] := by
    simp [keyOf_a, keyOf_backslash]
  obtain ⟨first, hfirstOf, hfirst⟩ :=
    visit_directories ⟨[], [], []⟩ hlocate List.not_mem_nil hwalk hname rfl
  obtain ⟨second, hsecondOf, hsecond⟩ :=
    visit_directories ⟨[keyOf [[114]]], [⟨[114, 47, 97, 92]⟩], [first]⟩ hlocatea hnewa hwalka
      hnamea rfl
  have hthird : result (visit .blake3 withBackslash .default true ⟨[114, 47, 97, 92]⟩
      ⟨[keyOf [[114], [97]], keyOf [[114]]], [], [first, second]⟩) = .ok _ :=
    visit_eq_ok_iff.mpr ⟨_, hlocationb, Or.inl ⟨hknownb, rfl⟩⟩
  have htake : result (Snapshot.take .blake3 withBackslash .default ⟨[114]⟩) = .ok _ :=
    Snapshot.take_eq_ok_iff.mpr ⟨_, _, hwalk, hname, rfl⟩
  refine ⟨[first, second], run_of_visit rfl hfirst (run_of_visit rfl hsecond
    (run_of_visit rfl hthird (run_of_pending_nil rfl))), ?_, ?_⟩
  · exact ⟨_, Reachable.root.subdirectory htake (by decide),
      FileSystem.locate_of_canonicalLocation hlocationb⟩
  · rintro ⟨report, hreport, hof⟩
    rcases List.mem_pair.mp hreport with rfl | rfl
    · exact absurd (hfirstOf.location_unique hof) (by decide)
    · exact absurd (hsecondOf.location_unique hof) (by decide)

end MerkleDir.Scan
