import MerkleDir.Proofs.Scan.Discovery

namespace MerkleDir

theorem eraseDupsBy_loop_append_singleton {α : Type} (r : α → α → Bool) (as kept : List α) (a : α) :
    List.eraseDupsBy.loop r (as ++ [a]) kept =
      if (List.eraseDupsBy.loop r as kept).any (r a) then List.eraseDupsBy.loop r as kept
      else List.eraseDupsBy.loop r as kept ++ [a] := by
  induction as generalizing kept with
  | nil =>
    rw [List.nil_append, List.eraseDupsBy.loop, List.eraseDupsBy.loop, List.any_reverse]
    cases kept.any (r a) with
    | true => rfl
    | false => exact List.reverse_cons
  | cons b as ih =>
    rw [List.cons_append, List.eraseDupsBy.loop, List.eraseDupsBy.loop]
    cases kept.any (r b) with
    | true => exact ih kept
    | false => exact ih (b :: kept)

theorem eraseDupsBy_append_singleton {α : Type} (r : α → α → Bool) (as : List α) (a : α) :
    (as ++ [a]).eraseDupsBy r =
      if (as.eraseDupsBy r).any (r a) then as.eraseDupsBy r else as.eraseDupsBy r ++ [a] :=
  eraseDupsBy_loop_append_singleton r as [] a

/-- The places at which a list can be split grow by one with the list. -/
theorem append_singleton_eq_split {α : Type} {as earlier later : List α} {a b : α}
    (h : as ++ [b] = earlier ++ a :: later) :
    (as = earlier ∧ b = a) ∨ ∃ rest, as = earlier ++ a :: rest := by
  rcases List.eq_nil_or_concat later with rfl | ⟨rest, last, rfl⟩
  · obtain ⟨rfl, hlast⟩ := List.append_inj' h rfl
    exact Or.inl ⟨rfl, (List.cons.inj hlast).1⟩
  · rw [List.concat_eq_append, ← List.cons_append, ← List.append_assoc] at h
    exact Or.inr ⟨rest, (List.append_inj' h rfl).1⟩

namespace Scan

open Logged (result)

variable {algorithm : HashAlgorithm} {fs : FileSystem} {options : SnapshotOptions} {root : Path}

def isKnownAlike (fs : FileSystem) (dir other : Path) : Bool :=
  match fs.locate dir true, fs.locate other true with
  | .ok location, .ok location' => decide (keyOf location = keyOf location')
  | _, _ => false

theorem isKnownAlike_iff {dir other : Path} : isKnownAlike fs dir other = true ↔
    ∃ location location', fs.locate dir true = .ok location ∧
      fs.locate other true = .ok location' ∧ keyOf location = keyOf location' := by
  rw [isKnownAlike]
  cases fs.locate dir true <;> cases fs.locate other true <;> simp

theorem isKnownAlike_self {dir : Path} {location : Location}
    (hlocate : fs.locate dir true = .ok location) : isKnownAlike fs dir dir = true :=
  isKnownAlike_iff.mpr ⟨location, location, hlocate, hlocate, rfl⟩

theorem isKnownAlike_of_common {dir first second : Path}
    (hfirst : isKnownAlike fs dir first = true) (hsecond : isKnownAlike fs dir second = true) :
    isKnownAlike fs first second = true := by
  obtain ⟨here, location, hhere, hlocation, hkey⟩ := isKnownAlike_iff.mp hfirst
  obtain ⟨here', location', hhere', hlocation', hkey'⟩ := isKnownAlike_iff.mp hsecond
  obtain rfl := Except.ok.inj (hhere.symm.trans hhere')
  exact isKnownAlike_iff.mpr ⟨location, location', hlocation, hlocation', hkey.symm.trans hkey'⟩

theorem Invariant.mem_visited_iff {state : State} (h : Invariant algorithm fs options root state)
    {dir : Path} {location : Location} (hlocate : fs.locate dir true = .ok location) :
    keyOf location ∈ state.visited ↔
      ∃ report ∈ state.reports, isKnownAlike fs dir report.path = true := by
  constructor
  · intro hknown
    obtain ⟨other, hkey, report, hreport, hof⟩ := h.known _ hknown
    exact ⟨report, hreport, isKnownAlike_iff.mpr ⟨location, other, hlocate, hof.1, hkey.symm⟩⟩
  · rintro ⟨report, hreport, halike⟩
    obtain ⟨here, other, hhere, hother, hkey⟩ := isKnownAlike_iff.mp halike
    obtain ⟨-, place, hof, hknown⟩ := h.reported report hreport
    obtain rfl := Except.ok.inj (hhere.symm.trans hlocate)
    obtain rfl := Except.ok.inj (hother.symm.trans hof.1)
    exact hkey ▸ hknown

theorem Invariant.eq_of_isKnownAlike {state : State}
    (h : Invariant algorithm fs options root state) {first second : DirectoryReport}
    (hfirst : first ∈ state.reports) (hsecond : second ∈ state.reports)
    (halike : isKnownAlike fs first.path second.path = true) : first = second := by
  obtain ⟨location, other, hlocation, hother, hkey⟩ := isKnownAlike_iff.mp halike
  obtain ⟨-, place, hfirstOf, -⟩ := h.reported first hfirst
  obtain ⟨-, place', hsecondOf, -⟩ := h.reported second hsecond
  obtain rfl := Except.ok.inj (hlocation.symm.trans hfirstOf.1)
  obtain rfl := Except.ok.inj (hother.symm.trans hsecondOf.1)
  exact h.report_unique hfirst hsecond hfirstOf hsecondOf hkey

/-- Of the directories visited, those have reports that are the first known by the same. -/
theorem Visited.paths_eq {done : List Path} {state : State}
    (h : Visited algorithm fs options root done state) :
    state.reports.map (·.path) = done.eraseDupsBy (isKnownAlike fs) := by
  induction h with
  | start => rfl
  | @visit done state next dir pending hstate hpending hvisit ih =>
    obtain ⟨location, hlocate, hcase⟩ := visit_cases hvisit
    have hknown : keyOf location ∈ state.visited ↔
        (done.eraseDupsBy (isKnownAlike fs)).any (isKnownAlike fs dir) = true := by
      rw [hstate.reached.invariant.mem_visited_iff hlocate, ← ih, List.any_map, List.any_eq_true]
      rfl
    rw [eraseDupsBy_append_singleton]
    rcases hcase with ⟨hold, rfl⟩ | ⟨hnew, report, hpath, -, rfl⟩
    · rw [if_pos (hknown.mp hold)]
      exact ih
    · rw [if_neg fun hmem => hnew (hknown.mpr hmem), List.map_append, ih, ← hpath]
      rfl

/-- A directory that has a report is the root or has been listed in a report before. -/
theorem Visited.mem_discovered {done : List Path} {state : State}
    (h : Visited algorithm fs options root done state) {earlier later : List DirectoryReport}
    {report : DirectoryReport} (hsplit : state.reports = earlier ++ report :: later) :
    report.path ∈ discovered root earlier := by
  induction h generalizing later with
  | start => exact absurd hsplit.symm (List.append_ne_nil_of_right_ne_nil _ (List.cons_ne_nil _ _))
  | @visit done state next dir pending hstate hpending hvisit ih =>
    obtain ⟨location, -, ⟨-, rfl⟩ | ⟨-, new, hpath, -, rfl⟩⟩ := visit_cases hvisit
    · exact ih hsplit
    · rcases append_singleton_eq_split hsplit with ⟨rfl, rfl⟩ | ⟨rest, hrest⟩
      · rw [hstate.discovered_eq, hpending, hpath]
        exact List.mem_append_right _ List.mem_cons_self
      · exact ih hrest

end Scan
end MerkleDir
