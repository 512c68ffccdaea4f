import MerkleDir.Proofs.Scan.Coverage
import MerkleDir.Proofs.Scan.Order

/-!
# A recursive scan goes breadth first

What waits is listed at a distance from the root, which ascends along the queue by one at most. So no
report is of a directory that is nearer to the root than one before it.
-/
namespace MerkleDir.Scan

open Logged (result)

variable {algorithm : HashAlgorithm} {fs : FileSystem} {options : SnapshotOptions} {root : Path}

/-- A path that is come upon after a number of reports, each of what the one before lists. -/
inductive AtDistance (fs : FileSystem) (root : Path) (found : List DirectoryReport) :
    Nat → Path → Prop
  | root : AtDistance fs root found 0 root
  | subdirectory {n : Nat} {dir sub : Path} {report : DirectoryReport}
      (hdir : AtDistance fs root found n dir) (hreport : report ∈ found)
      (halike : isKnownAlike fs dir report.path = true) (hsub : sub ∈ report.subdirectories) :
      AtDistance fs root found (n + 1) sub

theorem AtDistance.mono {found more : List DirectoryReport} (h : found ⊆ more) {n : Nat}
    {dir : Path} (hdir : AtDistance fs root found n dir) : AtDistance fs root more n dir := by
  induction hdir with
  | root => exact .root
  | subdirectory _ hreport halike hsub ih => exact .subdirectory ih (h hreport) halike hsub

/-- A path waits at a distance, or what it leads to has a report at that distance or nearer. -/
def IsWithin (fs : FileSystem) (layered : List (DirectoryReport × Nat)) (waiting : List (Path × Nat))
    (n : Nat) (dir : Path) : Prop :=
  (dir, n) ∈ waiting ∨ ∃ g ∈ layered, isKnownAlike fs dir g.1.path = true ∧ g.2 ≤ n

theorem IsWithin.of_known {layered : List (DirectoryReport × Nat)} {waiting : List (Path × Nat)}
    {dir met : Path} {depth n : Nat} {g : DirectoryReport × Nat} (hg : g ∈ layered)
    (halike : isKnownAlike fs dir g.1.path = true) (hle : g.2 ≤ depth)
    (h : IsWithin fs layered ((dir, depth) :: waiting) n met) : IsWithin fs layered waiting n met := by
  rcases h with h | h
  · rcases List.mem_cons.mp h with heq | h
    · obtain ⟨rfl, rfl⟩ := Prod.mk.inj heq
      exact Or.inr ⟨g, hg, halike, hle⟩
    · exact Or.inl h
  · exact Or.inr h

theorem IsWithin.of_new {layered : List (DirectoryReport × Nat)} {waiting : List (Path × Nat)}
    {met : Path} {report : DirectoryReport} {depth n : Nat}
    (halike : isKnownAlike fs report.path report.path = true) (more : List (Path × Nat))
    (h : IsWithin fs layered ((report.path, depth) :: waiting) n met) :
    IsWithin fs (layered ++ [(report, depth)]) (waiting ++ more) n met := by
  rcases h with h | ⟨g, hg, hmet⟩
  · rcases List.mem_cons.mp h with heq | h
    · obtain ⟨rfl, rfl⟩ := Prod.mk.inj heq
      exact Or.inr ⟨_, List.mem_append_right _ (List.mem_singleton_self _), halike, Nat.le_refl n⟩
    · exact Or.inl (List.mem_append_left more h)
  · exact Or.inr ⟨g, List.mem_append_left _ hg, hmet⟩

/-- Distances of what has a report and of what waits, which ascend, by one at most in what waits. -/
structure IsAscending (reported waiting : List Nat) : Prop where
  reported_ascending : reported.Pairwise (· ≤ ·)
  waiting_ascending : waiting.Pairwise (· ≤ ·)
  le_waiting : ∀ a ∈ reported, ∀ b ∈ waiting, a ≤ b
  le_succ : ∀ a ∈ waiting, ∀ b ∈ waiting, b ≤ a + 1

namespace IsAscending

variable {reported waiting : List Nat} {depth : Nat}

theorem tail (h : IsAscending reported (depth :: waiting)) : IsAscending reported waiting where
  reported_ascending := h.reported_ascending
  waiting_ascending := h.waiting_ascending.of_cons
  le_waiting := fun a ha b hb => h.le_waiting a ha b (List.mem_cons_of_mem depth hb)
  le_succ := fun a ha b hb =>
    h.le_succ a (List.mem_cons_of_mem depth ha) b (List.mem_cons_of_mem depth hb)

/-- What the first that waits lists is one farther than it is, and nothing that waits is farther. -/
theorem expand (h : IsAscending reported (depth :: waiting)) (n : Nat) :
    IsAscending (reported ++ [depth]) (waiting ++ List.replicate n (depth + 1)) := by
  have hreported : ∀ a ∈ reported, a ≤ depth := fun a ha =>
    h.le_waiting a ha depth List.mem_cons_self
  have hrange : ∀ b ∈ waiting ++ List.replicate n (depth + 1), depth ≤ b ∧ b ≤ depth + 1 := by
    intro b hb
    rcases List.mem_append.mp hb with hb | hb
    · exact ⟨(List.pairwise_cons.mp h.waiting_ascending).1 b hb,
        h.le_succ depth List.mem_cons_self b (List.mem_cons_of_mem depth hb)⟩
    · obtain rfl := List.eq_of_mem_replicate hb
      omega
  refine ⟨?_, ?_, fun a ha b hb => ?_, fun a ha b hb => ?_⟩
  · refine List.pairwise_append.mpr
      ⟨h.reported_ascending, List.pairwise_singleton _ _, fun a ha b hb => ?_⟩
    obtain rfl := List.mem_singleton.mp hb
    exact hreported a ha
  · refine List.pairwise_append.mpr ⟨h.waiting_ascending.of_cons, ?_, fun a ha b hb => ?_⟩
    · exact List.pairwise_replicate.mpr (Or.inr (Nat.le_refl _))
    · rw [List.eq_of_mem_replicate hb]
      exact (hrange a (List.mem_append_left _ ha)).2
  · have hlow := (hrange b hb).1
    rcases List.mem_append.mp ha with ha | ha
    · exact (hreported a ha).trans hlow
    · obtain rfl := List.mem_singleton.mp ha
      exact hlow
  · have hlow := (hrange a ha).1
    have hhigh := (hrange b hb).2
    omega

end IsAscending

structure Layers (fs : FileSystem) (root : Path) (state : State)
    (layered : List (DirectoryReport × Nat)) (waiting : List (Path × Nat)) : Prop where
  reports : layered.map Prod.fst = state.reports
  pending : waiting.map Prod.fst = state.pending
  ascending : IsAscending (layered.map Prod.snd) (waiting.map Prod.snd)
  reported_distance : ∀ g ∈ layered, AtDistance fs root state.reports g.2 g.1.path
  waiting_distance : ∀ w ∈ waiting, AtDistance fs root state.reports w.2 w.1
  root_within : IsWithin fs layered waiting 0 root
  listed_within : ∀ g ∈ layered, ∀ sub ∈ g.1.subdirectories,
    IsWithin fs layered waiting (g.2 + 1) sub

theorem layers_start : Layers fs root ⟨[], [root], []⟩ [] [(root, 0)] where
  reports := rfl
  pending := rfl
  ascending := ⟨.nil, List.pairwise_singleton _ _, nofun, by simp⟩
  reported_distance := nofun
  waiting_distance := by
    intro w hw
    obtain rfl := List.mem_singleton.mp hw
    exact .root
  root_within := Or.inl (List.mem_singleton_self _)
  listed_within := nofun

section Layers

variable {state : State} {layered : List (DirectoryReport × Nat)} {waiting : List (Path × Nat)}
  {dir : Path} {depth : Nat}

/-- What has a report is no farther than what waits. -/
theorem Layers.of_known (h : Layers fs root state layered ((dir, depth) :: waiting))
    {pending : List Path} (hpending : state.pending = dir :: pending)
    (hknown : ∃ report ∈ state.reports, isKnownAlike fs dir report.path = true) :
    Layers fs root { state with pending } layered waiting := by
  obtain ⟨report, hreport, halike⟩ := hknown
  rw [← h.reports] at hreport
  obtain ⟨g, hg, rfl⟩ := List.mem_map.mp hreport
  have hle : g.2 ≤ depth :=
    h.ascending.le_waiting g.2 (List.mem_map_of_mem hg) depth List.mem_cons_self
  exact
    { reports := h.reports
      pending := (List.cons.inj (h.pending.trans hpending)).2
      ascending := h.ascending.tail
      reported_distance := h.reported_distance
      waiting_distance := fun w hw => h.waiting_distance w (List.mem_cons_of_mem _ hw)
      root_within := h.root_within.of_known hg halike hle
      listed_within := fun g' hg' sub hsub =>
        (h.listed_within g' hg' sub hsub).of_known hg halike hle }

theorem Layers.of_new {report : DirectoryReport}
    (h : Layers fs root state layered ((report.path, depth) :: waiting)) {pending : List Path}
    (hpending : state.pending = report.path :: pending)
    (halike : isKnownAlike fs report.path report.path = true)
    (visited : List (List Path.Component)) :
    Layers fs root ⟨visited, pending ++ report.subdirectories, state.reports ++ [report]⟩
      (layered ++ [(report, depth)]) (waiting ++ report.subdirectories.map (·, depth + 1)) := by
  have hmore : state.reports ⊆ state.reports ++ [report] := List.subset_append_left _ _
  have hnew : report ∈ state.reports ++ [report] :=
    List.mem_append_right _ (List.mem_singleton_self report)
  have hhere : AtDistance fs root (state.reports ++ [report]) depth report.path :=
    (h.waiting_distance _ List.mem_cons_self).mono hmore
  exact
    { reports := by
        rw [List.map_append, h.reports]
        rfl
      pending := by
        rw [List.map_append, (List.cons.inj (h.pending.trans hpending)).2, List.map_map]
        exact congrArg _ (List.map_id _)
      ascending := by
        have hdepths : (report.subdirectories.map (·, depth + 1)).map Prod.snd =
            List.replicate report.subdirectories.length (depth + 1) := by
          rw [List.map_map]
          exact List.map_const'
        rw [List.map_append, List.map_append, hdepths]
        exact h.ascending.expand _
      reported_distance := by
        intro g hg
        rcases List.mem_append.mp hg with hg | hg
        · exact (h.reported_distance g hg).mono hmore
        · obtain rfl := List.mem_singleton.mp hg
          exact hhere
      waiting_distance := by
        intro w hw
        rcases List.mem_append.mp hw with hw | hw
        · exact (h.waiting_distance w (List.mem_cons_of_mem _ hw)).mono hmore
        · obtain ⟨sub, hsub, rfl⟩ := List.mem_map.mp hw
          exact hhere.subdirectory hnew halike hsub
      root_within := h.root_within.of_new halike _
      listed_within := by
        intro g hg sub hsub
        rcases List.mem_append.mp hg with hg | hg
        · exact (h.listed_within g hg sub hsub).of_new halike _
        · obtain rfl := List.mem_singleton.mp hg
          exact Or.inl (List.mem_append_right _ (List.mem_map_of_mem hsub)) }

end Layers

theorem Visited.exists_layers {done : List Path} {state : State}
    (h : Visited algorithm fs options root done state) :
    ∃ layered waiting, Layers fs root state layered waiting := by
  induction h with
  | start => exact ⟨[], [(root, 0)], layers_start⟩
  | @visit done state next dir pending hstate hpending hvisit ih =>
    obtain ⟨layered, waiting, hlayers⟩ := ih
    obtain ⟨⟨dir, depth⟩, waiting, rfl, rfl, -⟩ :=
      List.map_eq_cons_iff.mp (hlayers.pending.trans hpending)
    obtain ⟨location, hlocate, ⟨hknown, rfl⟩ | ⟨-, report, rfl, -, rfl⟩⟩ := visit_cases hvisit
    · have hreported := (hstate.reached.invariant.mem_visited_iff hlocate).mp hknown
      exact ⟨layered, waiting, hlayers.of_known hpending hreported⟩
    · exact ⟨_, _, hlayers.of_new hpending (isKnownAlike_self hlocate) _⟩

/-- When nothing waits, all that is at a distance has a report that is no farther. -/
theorem Layers.exists_layered {state : State} {layered : List (DirectoryReport × Nat)}
    (h : Layers fs root state layered []) (hstate : Invariant algorithm fs options root state)
    {n : Nat} {dir : Path} (hdir : AtDistance fs root state.reports n dir) :
    ∃ g ∈ layered, isKnownAlike fs dir g.1.path = true ∧ g.2 ≤ n := by
  -- along the way from the root; what is known by the same as a step of it has one report
  induction hdir with
  | root => exact h.root_within.resolve_left List.not_mem_nil
  | @subdirectory n dir sub report _ hreport halike hsub ih =>
    obtain ⟨g, hg, hgalike, hle⟩ := ih
    have hmem : g.1 ∈ state.reports := h.reports ▸ List.mem_map_of_mem hg
    obtain rfl := hstate.eq_of_isKnownAlike hmem hreport (isKnownAlike_of_common hgalike halike)
    obtain ⟨g', hg', halike', hle'⟩ :=
      (h.listed_within g hg sub hsub).resolve_left List.not_mem_nil
    exact ⟨g', hg', halike', by omega⟩

/-- No report is of a directory that is nearer to the root than one before it. -/
def IsNearestFirst (fs : FileSystem) (root : Path) (found : List DirectoryReport) : Prop :=
  found.Pairwise fun first second => ∀ n dir, AtDistance fs root found n dir →
    isKnownAlike fs dir second.path = true → ∃ m ≤ n, AtDistance fs root found m first.path

theorem Visited.isNearestFirst {done : List Path} {state : State}
    (h : Visited algorithm fs options root done state) (hpending : state.pending = []) :
    IsNearestFirst fs root state.reports := by
  have hstate := h.reached.invariant
  obtain ⟨layered, waiting, hlayers⟩ := h.exists_layers
  obtain rfl := List.map_eq_nil_iff.mp (hlayers.pending.trans hpending)
  have hnodup : (layered.map Prod.fst).Nodup := hlayers.reports ▸ hstate.nodup_reports
  have hpair : layered.Pairwise fun first second => ∀ n dir,
      AtDistance fs root state.reports n dir → isKnownAlike fs dir second.1.path = true →
        ∃ m ≤ n, AtDistance fs root state.reports m first.1.path := by
    -- the second is reported at its least distance, which is no less than that of the first
    have hascending := List.pairwise_map.mp hlayers.ascending.reported_ascending
    refine hascending.imp_of_mem fun {first second} hfirst hsecond hle => ?_
    intro n dir hdir halike
    obtain ⟨g, hg, hgalike, hgle⟩ := hlayers.exists_layered hstate hdir
    have hmem : ∀ g ∈ layered, g.1 ∈ state.reports := fun g hg =>
      hlayers.reports ▸ List.mem_map_of_mem hg
    have hreport : g.1 = second.1 := hstate.eq_of_isKnownAlike (hmem g hg) (hmem second hsecond)
      (isKnownAlike_of_common hgalike halike)
    obtain rfl := List.inj_on_of_nodup_map hnodup hg hsecond hreport
    exact ⟨first.2, hle.trans hgle, hlayers.reported_distance first hfirst⟩
  rw [IsNearestFirst, ← hlayers.reports, List.pairwise_map, hlayers.reports]
  exact hpair

structure IsBreadthFirst (algorithm : HashAlgorithm) (fs : FileSystem) (options : SnapshotOptions)
    (root : Path) (found : List DirectoryReport) : Prop where
  first : (found.map (·.path)).head? = some root
  once : ∃ places, List.Forall₂ (IsReportOf algorithm fs options) places found ∧ places.Nodup
  reachable : ∀ report ∈ found, Reachable algorithm fs options root report.path
  listed : ∀ earlier report later, found = earlier ++ report :: later → earlier ≠ [] →
    ∃ lister ∈ earlier, report.path ∈ lister.subdirectories
  order : found.map (·.path) = (discovered root found).eraseDupsBy (isKnownAlike fs)
  nearest : IsNearestFirst fs root found

theorem Visited.paths_eq_of_pending_nil {done : List Path} {state : State}
    (h : Visited algorithm fs options root done state) (hpending : state.pending = []) :
    state.reports.map (·.path) =
      (discovered root state.reports).eraseDupsBy (isKnownAlike fs) := by
  rw [h.paths_eq, h.discovered_eq, hpending, List.append_nil]

theorem Visited.head_paths {done : List Path} {state : State}
    (h : Visited algorithm fs options root done state) (hpending : state.pending = []) :
    (state.reports.map (·.path)).head? = some root := by
  rw [h.paths_eq_of_pending_nil hpending, discovered, List.eraseDupsBy_cons]
  rfl

/-- No report but the first is of the root. -/
theorem Visited.exists_lister {done : List Path} {state : State}
    (h : Visited algorithm fs options root done state) (hpending : state.pending = [])
    {earlier later : List DirectoryReport} {report : DirectoryReport}
    (hsplit : state.reports = earlier ++ report :: later) (hearlier : earlier ≠ []) :
    ∃ lister ∈ earlier, report.path ∈ lister.subdirectories := by
  rcases List.mem_cons.mp (h.mem_discovered hsplit) with hroot | hlisted
  · -- the root has been reported first, and no other report is known by the same
    exfalso
    have hstate := h.reached.invariant
    obtain ⟨first, rest, rfl⟩ := List.exists_cons_of_ne_nil hearlier
    have hfirst : first.path = root := by
      have hhead := h.head_paths hpending
      rw [hsplit] at hhead
      exact Option.some.inj hhead
    have hmem : first ∈ state.reports := hsplit ▸ List.mem_cons_self
    have hmem' : report ∈ state.reports :=
      hsplit ▸ List.mem_append_right _ List.mem_cons_self
    obtain ⟨-, place, hof, -⟩ := hstate.reported first hmem
    have halike : isKnownAlike fs first.path report.path = true := by
      rw [hroot, ← hfirst]
      exact isKnownAlike_self hof.1
    have hsame : first = report := hstate.eq_of_isKnownAlike hmem hmem' halike
    have hnodup := hstate.nodup_reports
    rw [hsplit, List.nodup_append] at hnodup
    exact hnodup.2.2 first List.mem_cons_self report List.mem_cons_self hsame
  · exact List.mem_flatMap.mp hlisted

theorem Visited.isBreadthFirst {done : List Path} {state : State}
    (h : Visited algorithm fs options root done state) (hpending : state.pending = []) :
    IsBreadthFirst algorithm fs options root state.reports where
  first := h.head_paths hpending
  once := h.reached.exists_nodup_places
  reachable := fun report hreport => (h.reached.invariant.reported report hreport).1
  listed := fun _ _ _ hsplit hearlier => h.exists_lister hpending hsplit hearlier
  order := h.paths_eq_of_pending_nil hpending
  nearest := h.isNearestFirst hpending

/-- A recursive scan visits no more than there are places, and ends after the last of its visits;
if it succeeds, its reports are those of a breadth-first search from the root. -/
theorem breadthFirst_of_scan (algorithm : HashAlgorithm) (fs : FileSystem)
    (options : SnapshotOptions) (root : Path) :
    (∀ done state, Visited algorithm fs options root done state →
      done.length + state.pending.length ≤ fs.locations.length) ∧
    (∃ done final, Visited algorithm fs options root done final ∧
      Ends algorithm fs options final (result (reports algorithm fs options true root))) ∧
    ∀ found, result (reports algorithm fs options true root) = .ok found →
      IsBreadthFirst algorithm fs options root found := by
  have hstart : Visited algorithm fs options root [] ⟨[], [root], []⟩ := .start
  have hend := exists_end_of_run hstart
  refine ⟨fun _ _ h => h.length_le, hend, fun found hfound => ?_⟩
  obtain ⟨done, final, hfinal, hends⟩ := hend
  rw [show result (run algorithm fs options true ⟨[], [root], []⟩) = .ok found from hfound] at hends
  cases hends with
  | found hpending => exact hfinal.isBreadthFirst hpending

/-- A directory `r` with a directory `a` in it, in which a link `u` leads back to `r`. -/
def withCycle : FileSystem :=
  ⟨.bits34, .directory true [([114], .directory true
    [([97], .directory true [([117], .link ⟨0, 0⟩ [46, 46])])])], by decide⟩

theorem exists_reports_withCycle : ∃ first second,
    result (reports .blake3 withCycle .default true ⟨[114]⟩) = .ok [first, second] := by
  have hlocate : withCycle.locate ⟨[114]⟩ true = .ok [[114]] := by cbv
  have hwalk : result (walk withCycle .default ⟨[114]⟩) = .ok [.directory ⟨[114, 47, 97]⟩] := by cbv
  have hname : Snapshot.directoryName withCycle ⟨[114]⟩ = .ok "r" := by cbv
  have hlocatea : withCycle.locate ⟨[114, 47, 97]⟩ true = .ok [[114], [97]] := by cbv
  have hwalka : result (walk withCycle .default ⟨[114, 47, 97]⟩) =
      .ok [.directory ⟨[114, 47, 97, 47, 117]⟩] := by cbv
  have hnamea : Snapshot.directoryName withCycle ⟨[114, 47, 97]⟩ = .ok "a" := by cbv
  have hnewa : keyOf [[114], [97]] ∉ [keyOf [[114]]] := by simp [keyOf_r, keyOf_a]
  have hlocationu : withCycle.canonicalLocation ⟨[114, 47, 97, 47, 117]⟩ = .ok [[114]] := by cbv
  obtain ⟨first, -, hfirst⟩ :=
    visit_directories ⟨[], [], []⟩ hlocate List.not_mem_nil hwalk hname rfl
  obtain ⟨second, -, hsecond⟩ :=
    visit_directories ⟨[keyOf [[114]]], [], [first]⟩ hlocatea hnewa hwalka hnamea rfl
  have hthird : result (visit .blake3 withCycle .default true ⟨[114, 47, 97, 47, 117]⟩
      ⟨[keyOf [[114], [97]], keyOf [[114]]], [], [first, second]⟩) = .ok _ :=
    visit_eq_ok_iff.mpr
      ⟨_, hlocationu, Or.inl ⟨List.mem_cons_of_mem _ (List.mem_singleton_self _), rfl⟩⟩
  exact ⟨first, second, run_of_visit rfl hfirst (run_of_visit rfl hsecond
    (run_of_visit rfl hthird (run_of_pending_nil rfl)))⟩

/-- A scan passes over the link that leads back, and ends. -/
theorem breadthFirst_withCycle : ∃ first second,
    result (reports .blake3 withCycle .default true ⟨[114]⟩) = .ok [first, second] ∧
      IsBreadthFirst .blake3 withCycle .default ⟨[114]⟩ [first, second] := by
  obtain ⟨first, second, hfound⟩ := exists_reports_withCycle
  exact ⟨first, second, hfound, (breadthFirst_of_scan _ _ _ _).2.2 _ hfound⟩

end MerkleDir.Scan
