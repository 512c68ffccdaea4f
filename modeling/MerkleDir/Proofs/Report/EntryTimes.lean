import MerkleDir.Command.Run
import MerkleDir.Proofs.Report.Calendar
import MerkleDir.Proofs.Scan.Reached
import MerkleDir.Proofs.Snapshot.RecordedTimes

/-!
# Reports of any time

A snapshot holds every time that the file system records, a report only those of the calendar.
Nothing else keeps a report from being made, or from being written unless a path is not text, and
entries of different times are shown with different texts.
-/
namespace MerkleDir

open Logged (result)

/-- The encoding succeeds exactly under this condition. If it fails, a path is not text. -/
structure EncodesIff {α : Type} (encoding : Except EncodeError α) (p : Prop) : Prop where
  ok : p → ∃ a, encoding = .ok a
  error : ¬ p → encoding = .error .pathNotText

namespace EncodesIff

variable {α β : Type} {x : Except EncodeError α} {p q : Prop}

theorem of_ok (a : α) : EncodesIff (.ok a) True :=
  ⟨fun _ => ⟨a, rfl⟩, fun h => absurd trivial h⟩

theorem bind {f : α → Except EncodeError β} (hx : EncodesIff x p) (hf : ∀ a, EncodesIff (f a) q) :
    EncodesIff (x >>= f) (p ∧ q) := by
  by_cases hp : p
  · obtain ⟨a, rfl⟩ := hx.ok hp
    exact ⟨fun h => (hf a).ok h.2, fun h => (hf a).error fun hq => h ⟨hp, hq⟩⟩
  · rw [hx.error hp]
    exact ⟨fun h => absurd h.1 hp, fun _ => rfl⟩

theorem map (f : α → β) (hx : EncodesIff x p) : EncodesIff (x >>= fun a => pure (f a)) p :=
  and_true p ▸ hx.bind fun a => of_ok (f a)

theorem mapM {f : α → Except EncodeError β} {p : α → Prop} (hf : ∀ a, EncodesIff (f a) (p a))
    (xs : List α) : EncodesIff (xs.mapM f) (∀ a ∈ xs, p a) := by
  induction xs with
  | nil => exact ⟨fun _ => ⟨[], rfl⟩, fun h => absurd (List.forall_mem_nil p) h⟩
  | cons a xs ih =>
    rw [List.mapM_cons, List.forall_mem_cons]
    exact (hf a).bind fun b => ih.map (b :: ·)

end EncodesIff

def Path.IsText (path : Path) : Prop := ∃ text, path.text? = some text

def EntryKind.IsText : EntryKind → Prop
  | .followedSymlink target => target.IsText
  | .file | .symlinkCopy => True

structure DirectoryReport.IsText (report : DirectoryReport) : Prop where
  path : report.path.IsText
  targets : ∀ entry ∈ report.entries, entry.kind.IsText
  subdirectories : ∀ dir ∈ report.subdirectories, dir.IsText

namespace EncodesIff

theorem ofPath (path : Path) : EncodesIff (Json.ofPath path) path.IsText := by
  rw [Json.ofPath, Path.IsText]
  cases path.text? with
  | none => exact ⟨fun ⟨_, h⟩ => absurd h (by simp), fun _ => rfl⟩
  | some text => exact ⟨fun _ => ⟨_, rfl⟩, fun h => absurd ⟨text, rfl⟩ h⟩

theorem kindFields (kind : EntryKind) : EncodesIff (Json.kindFields kind) kind.IsText := by
  cases kind with
  | file => exact of_ok _
  | symlinkCopy => exact of_ok _
  | followedSymlink target => exact (ofPath target).map _

theorem entryReport (entry : EntryReport) : EncodesIff entry.json entry.kind.IsText :=
  (kindFields entry.kind).map _

theorem directoryReport (report : DirectoryReport) : EncodesIff report.json report.IsText := by
  have hjson : EncodesIff report.json (report.path.IsText ∧
      (∀ entry ∈ report.entries, entry.kind.IsText) ∧
        ∀ dir ∈ report.subdirectories, dir.IsText) :=
    (ofPath report.path).bind fun _ => (mapM entryReport report.entries).bind fun _ =>
      ((mapM ofPath report.subdirectories).map Json.array).map _
  exact ⟨fun h => hjson.ok ⟨h.path, h.targets, h.subdirectories⟩,
    fun h => hjson.error fun ⟨hpath, htargets, hdirs⟩ => h ⟨hpath, htargets, hdirs⟩⟩

end EncodesIff

namespace Command

variable {recursive : Bool} {report : DirectoryReport}

theorem exists_scanOutput_json (h : report.IsText) :
    ∃ text, result (scanOutput recursive .json [report]) = .ok text := by
  obtain ⟨json, hjson⟩ := (EncodesIff.directoryReport report).ok h
  cases recursive with
  | false =>
    rw [scanOutput, hjson]
    exact ⟨_, rfl⟩
  | true =>
    show ∃ text, result (encoded (([report].mapM DirectoryReport.json).map Json.array)) = .ok text
    rw [List.mapM_cons, hjson]
    exact ⟨_, rfl⟩

theorem scanOutput_of_not_isText (h : ¬ report.IsText) :
    result (scanOutput recursive .json [report]) =
      .error (.output "path contains invalid UTF-8 characters") := by
  have hjson := (EncodesIff.directoryReport report).error h
  cases recursive with
  | false =>
    rw [scanOutput, hjson]
    rfl
  | true =>
    show result (encoded (([report].mapM DirectoryReport.json).map Json.array)) = _
    rw [List.mapM_cons, hjson]
    rfl

end Command

section MapM

variable {α β : Type} {f : α → Option β} {xs : List α} {ys : List β}

theorem mapM_eq_some_iff :
    xs.mapM f = some ys ↔ List.Forall₂ (fun x y => f x = some y) xs ys := by
  induction xs generalizing ys with
  | nil => cases ys <;> simp
  | cons x xs ih =>
    simp only [List.mapM_cons, Option.bind_eq_bind, Option.bind_eq_some_iff, Option.pure_def,
      Option.some.injEq, ih]
    constructor
    · rintro ⟨y, hy, rest, hrest, rfl⟩
      exact .cons hy hrest
    · rintro (_ | ⟨hy, hrest⟩)
      exact ⟨_, hy, _, hrest, rfl⟩

theorem exists_mapM_eq_some_iff : (∃ ys, xs.mapM f = some ys) ↔ ∀ x ∈ xs, ∃ y, f x = some y := by
  induction xs with
  | nil => simp
  | cons x xs ih =>
    rw [List.forall_mem_cons, ← ih]
    simp [List.mapM_cons, Option.bind_eq_some_iff]

end MapM

namespace DirectoryReport

variable {snapshot : Snapshot} {report : DirectoryReport}

theorem exists_ofSnapshot?_iff : (∃ report, ofSnapshot? snapshot = some report) ↔
    ∀ entry ∈ snapshot.entries, Calendar.Covers entry.modified := by
  have hentry (entry : SnapshotEntry) : (∃ shown, EntryReport.ofEntry? entry = some shown) ↔
      Calendar.Covers entry.modified := by
    rw [← Calendar.exists_text?_iff]
    simp [EntryReport.ofEntry?]
  simp only [← hentry, ← exists_mapM_eq_some_iff, ofSnapshot?]
  cases snapshot.entries.mapM EntryReport.ofEntry? <;> simp

theorem ofSnapshot?_eq_none_iff : ofSnapshot? snapshot = none ↔
    ∃ entry ∈ snapshot.entries, ¬ Calendar.Covers entry.modified := by
  rw [← not_iff_not, ← ne_eq, Option.ne_none_iff_exists', exists_ofSnapshot?_iff]
  simp only [not_exists, not_and, not_not]

theorem text?_of_mem_zip (h : ofSnapshot? snapshot = some report) {entry : SnapshotEntry}
    {shown : EntryReport} (hmem : (entry, shown) ∈ snapshot.entries.zip report.entries) :
    Calendar.text? entry.modified = some shown.modified := by
  obtain ⟨entries, hentries, rfl⟩ := Option.map_eq_some_iff.mp h
  have hshown := List.forall₂_zip (mapM_eq_some_iff.mp hentries) hmem
  obtain ⟨text, htext, rfl⟩ := Option.map_eq_some_iff.mp hshown
  exact htext

theorem length_entries (h : ofSnapshot? snapshot = some report) :
    report.entries.length = snapshot.entries.length := by
  obtain ⟨entries, hentries, rfl⟩ := Option.map_eq_some_iff.mp h
  exact (mapM_eq_some_iff.mp hentries).length_eq.symm

end DirectoryReport

namespace Scan

variable {algorithm : HashAlgorithm} {fs : FileSystem} {options : SnapshotOptions}
  {recursive : Bool} {root : Path} {snapshot : Snapshot}

theorem visit_of_no_report {state : State} {location : Location}
    (hlocation : fs.canonicalLocation root = .ok location) (hnew : keyOf location ∉ state.visited)
    (hsnapshot : result (Snapshot.take algorithm fs options root) = .ok snapshot)
    (hreport : DirectoryReport.ofSnapshot? snapshot = none) :
    result (visit algorithm fs options recursive root state) = .error .calendar := by
  rw [visit, Logged.result_bind_eq_error]
  refine Or.inr ⟨keyOf location, key_of_canonicalLocation hlocation, ?_⟩
  rw [if_neg fun hmem => hnew (List.contains_iff_mem.mp hmem), Logged.result_bind_eq_error]
  exact Or.inr ⟨snapshot, CommandAttempt.ofSnapshot_eq_ok_iff.mpr hsnapshot, by rw [hreport]; rfl⟩

variable (hsnapshot : result (Snapshot.take algorithm fs options root) = .ok snapshot)

include hsnapshot

theorem exists_canonicalLocation_of_take : ∃ location, fs.canonicalLocation root = .ok location := by
  obtain ⟨location, -, hlocate, -⟩ := exists_node_of_take hsnapshot
  obtain ⟨items, -, hitems, -⟩ := Snapshot.take_eq_ok_iff.mp hsnapshot
  exact ⟨location, canonicalLocation_of_walk hlocate hitems⟩

theorem reports_of_report {report : DirectoryReport}
    (hreport : DirectoryReport.ofSnapshot? snapshot = some report) :
    result (reports algorithm fs options false root) = .ok [report] := by
  obtain ⟨location, hlocation⟩ := exists_canonicalLocation_of_take hsnapshot
  have hvisit : result (visit algorithm fs options false root ⟨[], [], []⟩) =
      .ok ⟨[keyOf location], [], [report]⟩ :=
    visit_eq_ok_iff.mpr ⟨location, hlocation, Or.inr ⟨List.not_mem_nil, snapshot, report, hsnapshot,
      hreport, rfl⟩⟩
  rw [reports, result_run_of_cons rfl, hvisit]
  exact run_of_pending_nil rfl

theorem reports_of_no_report (hreport : DirectoryReport.ofSnapshot? snapshot = none) :
    result (reports algorithm fs options recursive root) = .error .calendar := by
  obtain ⟨location, hlocation⟩ := exists_canonicalLocation_of_take hsnapshot
  rw [reports, result_run_of_cons rfl,
    visit_of_no_report hlocation List.not_mem_nil hsnapshot hreport]
  rfl

/-- A directory is reported exactly if the calendar covers the times of its entries, as it does where it
covers all that the file system records; else a scan of it ends there. A report can be printed, as JSON
only if its paths are text, and shows entries of different times with different texts. -/
theorem reports_of_times :
    (Calendar.CoversRange fs.times → ∀ entry ∈ snapshot.entries, Calendar.Covers entry.modified) ∧
    ((∀ entry ∈ snapshot.entries, Calendar.Covers entry.modified) →
      ∃ report, DirectoryReport.ofSnapshot? snapshot = some report ∧
        result (reports algorithm fs options false root) = .ok [report]) ∧
    ((∃ entry ∈ snapshot.entries, ¬ Calendar.Covers entry.modified) →
      DirectoryReport.ofSnapshot? snapshot = none ∧ ∀ recursive,
        result (reports algorithm fs options recursive root) = .error .calendar) ∧
    ∀ report, DirectoryReport.ofSnapshot? snapshot = some report →
      (∀ recursive,
        (∃ text, result (Command.scanOutput recursive .text [report]) = .ok text) ∧
        (report.IsText → ∃ text,
          result (Command.scanOutput recursive .json [report]) = .ok text) ∧
        (¬ report.IsText → result (Command.scanOutput recursive .json [report]) =
          .error (.output "path contains invalid UTF-8 characters"))) ∧
      report.entries.length = snapshot.entries.length ∧
      ∀ x ∈ snapshot.entries.zip report.entries, ∀ y ∈ snapshot.entries.zip report.entries,
        x.2.modified = y.2.modified → x.1.modified = y.1.modified := by
  refine ⟨fun hrange entry hentry => ?_, fun hcovers => ?_, fun huncovered => ?_,
    fun report hreport => ⟨fun recursive => ?_, ?_, ?_⟩⟩
  · exact Calendar.covers_of_holds hrange (Snapshot.holds_of_take hsnapshot hentry)
  · obtain ⟨report, hreport⟩ := DirectoryReport.exists_ofSnapshot?_iff.mpr hcovers
    exact ⟨report, hreport, reports_of_report hsnapshot hreport⟩
  · have hreport := DirectoryReport.ofSnapshot?_eq_none_iff.mpr huncovered
    exact ⟨hreport, fun recursive => reports_of_no_report hsnapshot hreport⟩
  · exact ⟨⟨_, rfl⟩, Command.exists_scanOutput_json, Command.scanOutput_of_not_isText⟩
  · exact DirectoryReport.length_entries hreport
  · intro x hx y hy hxy
    have hshown := DirectoryReport.text?_of_mem_zip hreport hy
    rw [← hxy] at hshown
    exact Calendar.eq_of_text?_eq (DirectoryReport.text?_of_mem_zip hreport hx) hshown

omit hsnapshot

/-- A directory `d` with files `f` and `g` of these times. -/
def withTimes (times : TimeRange) (s t : Timestamp) (hs : times.holds s = true := by decide)
    (ht : times.holds t = true := by decide) : FileSystem where
  times := times
  root := .directory true [([100], .directory true [([102], .file s []), ([103], .file t [])])]
  isWellFormed := by
    have hd : Node.isEntryName [100] = true := by decide
    have hf : Node.isEntryName [102] = true := by decide
    have hg : Node.isEntryName [103] = true := by decide
    simp [Node.isWellFormed, Node.areWellFormed, hd, hf, hg, hs, ht]

theorem exists_take_withTimes {times : TimeRange} {s t : Timestamp} (hs : times.holds s = true)
    (ht : times.holds t = true) : ∃ snapshot,
    result (Snapshot.take Snapshot.leadingBytes (withTimes times s t hs ht) .default ⟨[100]⟩) =
      .ok snapshot ∧
    (snapshot.entries.map (·.modified)).Perm [s, t] := by
  have hwalk : result (walk (withTimes times s t hs ht) .default ⟨[100]⟩) = .ok
      [.leaf ⟨[102], ⟨[100, 47, 102]⟩, s, .file⟩, .leaf ⟨[103], ⟨[100, 47, 103]⟩, t, .file⟩] := by cbv
  have hsnapshot := Snapshot.take_eq_ok_iff.mpr
    ⟨_, "d", hwalk, by cbv, Eq.refl (Snapshot.assembled Snapshot.leadingBytes _ _ _ _)⟩
  refine ⟨_, hsnapshot, ?_⟩
  have hperm := (Snapshot.map_leafOf_perm hsnapshot hwalk).map Prod.snd
  rwa [List.map_map] at hperm

/-- The first second of the calendar and the last have a report, and so has the second after the last
where it is not recorded as such. -/
theorem reports_atEnds :
    (∃ snapshot, result (Snapshot.take Snapshot.leadingBytes
        (withTimes .bits64 ⟨-8334601228800, 0⟩ ⟨8210266876799, 999999999⟩) .default ⟨[100]⟩) =
          .ok snapshot ∧
      ∃ report, DirectoryReport.ofSnapshot? snapshot = some report ∧
        result (reports Snapshot.leadingBytes
          (withTimes .bits64 ⟨-8334601228800, 0⟩ ⟨8210266876799, 999999999⟩) .default false
            ⟨[100]⟩) = .ok [report]) ∧
    ∃ snapshot, result (Snapshot.take Snapshot.leadingBytes
        (withTimes .bits34 ⟨0, 0⟩ (TimeRange.bits34.record ⟨8210266876800, 0⟩)) .default ⟨[100]⟩) =
          .ok snapshot ∧
      ∃ report, DirectoryReport.ofSnapshot? snapshot = some report ∧
        result (reports Snapshot.leadingBytes
          (withTimes .bits34 ⟨0, 0⟩ (TimeRange.bits34.record ⟨8210266876800, 0⟩)) .default false
            ⟨[100]⟩) = .ok [report] := by
  constructor
  · obtain ⟨snapshot, hsnapshot, hperm⟩ :=
      @exists_take_withTimes .bits64 ⟨-8334601228800, 0⟩ ⟨8210266876799, 999999999⟩ (by decide)
        (by decide)
    refine ⟨snapshot, hsnapshot, (reports_of_times hsnapshot).2.1 fun entry hentry => ?_⟩
    have hmem := hperm.mem_iff.mp (List.mem_map_of_mem (f := fun entry => entry.modified) hentry)
    rcases List.mem_pair.mp hmem with h | h
    · rw [h]
      decide
    · rw [h]
      decide
  · obtain ⟨snapshot, hsnapshot, -⟩ := @exists_take_withTimes .bits34 ⟨0, 0⟩
      (TimeRange.bits34.record ⟨8210266876800, 0⟩) (by decide) (by decide)
    obtain ⟨hcovered, hreport, -⟩ := reports_of_times hsnapshot
    exact ⟨snapshot, hsnapshot, hreport (hcovered (by decide))⟩

/-- A second after the last that is recorded as such, there is a snapshot but no report. -/
theorem no_report_afterEnd : ∃ snapshot,
    result (Snapshot.take Snapshot.leadingBytes (withTimes .bits64 ⟨0, 0⟩ ⟨8210266876800, 0⟩) .default
      ⟨[100]⟩) = .ok snapshot ∧
    DirectoryReport.ofSnapshot? snapshot = none ∧
    result (reports Snapshot.leadingBytes (withTimes .bits64 ⟨0, 0⟩ ⟨8210266876800, 0⟩) .default false
      ⟨[100]⟩) = .error .calendar := by
  obtain ⟨snapshot, hsnapshot, hperm⟩ := @exists_take_withTimes .bits64 ⟨0, 0⟩
    ⟨8210266876800, 0⟩ (by decide) (by decide)
  obtain ⟨entry, hentry, htime⟩ := List.mem_map.mp (hperm.mem_iff.mpr (List.mem_pair.mpr (.inr rfl)))
  have hreport : DirectoryReport.ofSnapshot? snapshot = none :=
    DirectoryReport.ofSnapshot?_eq_none_iff.mpr ⟨entry, hentry, by rw [htime]; decide⟩
  exact ⟨snapshot, hsnapshot, hreport, reports_of_no_report hsnapshot hreport⟩

end Scan

end MerkleDir
