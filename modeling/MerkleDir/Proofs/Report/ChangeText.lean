import Mathlib
import MerkleDir.Proofs.Report.Coherence

/-!
# What the text of a change set tells

Every change has a line of its own, and the mark it starts with tells what has become of the path. Blanks
are cut off at the end of the text as a whole, so the lines, and with them the three lists of paths, are
whole exactly if the last path does not end in a blank.
-/
namespace MerkleDir

/-- The lines of a text that ends without a line feed; the empty text has none. -/
def linesOf (text : String) : List (List Char) :=
  if text.toList = [] then [] else text.toList.splitOn '\n'

theorem linesOf_ofList {ls : List (List Char)} (hne : ['\n'].intercalate ls ≠ [])
    (h : ∀ line ∈ ls, '\n' ∉ line) : linesOf (String.ofList (['\n'].intercalate ls)) = ls := by
  have hls : ls ≠ [] := by
    rintro rfl
    exact hne rfl
  rw [linesOf, String.toList_ofList, if_neg hne, List.splitOn_intercalate _ h hls]

theorem linesOf_append_newline (first : String) {rest : String} (hrest : rest ≠ "") :
    linesOf (first ++ "\n" ++ rest) = first.toList.splitOn '\n' ++ linesOf rest := by
  have hnil : rest.toList ≠ [] := fun hnil => hrest (String.toList_injective hnil)
  have htext : (first ++ "\n" ++ rest).toList = first.toList ++ '\n' :: rest.toList := by
    rw [String.toList_append, String.toList_append, List.append_assoc]
    rfl
  rw [linesOf, linesOf, htext, if_neg hnil,
    if_neg (List.append_ne_nil_of_right_ne_nil _ (List.cons_ne_nil _ _))]
  exact List.splitOnP_append_cons _ _ (by simp)

theorem intercalate_append_singleton (before : List (List Char)) (last : List Char) :
    ['\n'].intercalate (before ++ [last]) = before.flatMap (· ++ ['\n']) ++ last := by
  induction before with
  | nil => exact List.append_nil last
  | cons line before ih =>
    obtain ⟨next, others, hnext⟩ :=
      List.exists_cons_of_ne_nil (List.append_ne_nil_of_right_ne_nil before (List.cons_ne_nil last []))
    rw [hnext] at ih
    rw [List.cons_append, hnext, List.flatMap_cons, List.intercalate_cons_cons, ih]
    simp only [List.append_assoc]

theorem toList_lines (ls : List String) :
    (lines ls).toList = (ls.map String.toList).flatMap (· ++ ['\n']) := by
  induction ls with
  | nil => rfl
  | cons line ls ih =>
    have hcons : (lines (line :: ls)).toList = line.toList ++ ['\n'] ++ (lines ls).toList := by
      rw [lines, List.map_cons, String.join_cons, String.toList_append, String.toList_append]
      rfl
    rw [hcons, ih, List.map_cons, List.flatMap_cons]

theorem dropBlanksAtEnd_isPrefix (cs : List Char) : dropBlanksAtEnd cs <+: cs :=
  List.reverse_suffix.mp (by
    rw [dropBlanksAtEnd, List.reverse_reverse]
    exact List.dropWhile_suffix _)

theorem dropBlanksAtEnd_concat_of_blank {c : Char} (hc : isBlank c = true) (cs : List Char) :
    dropBlanksAtEnd (cs ++ [c]) = dropBlanksAtEnd cs := by
  rw [dropBlanksAtEnd, List.reverse_concat, List.dropWhile_cons_of_pos hc, dropBlanksAtEnd]

theorem dropBlanksAtEnd_cons {c : Char} (hc : isBlank c = false) (cs : List Char) :
    dropBlanksAtEnd (c :: cs) = c :: dropBlanksAtEnd cs :=
  dropBlanksAtEnd_append hc [] cs

theorem dropBlanksAtEnd_eq_self_iff {cs : List Char} :
    dropBlanksAtEnd cs = cs ↔ ∀ c ∈ cs.getLast?, isBlank c = false := by
  rw [dropBlanksAtEnd, List.reverse_eq_iff, List.dropWhile_eq_self_iff, List.getLast?_eq_head?_reverse]
  cases cs.reverse with
  | nil => simp
  | cons c cs => simp

/-- Of lines that are trimmed together, only the last loses anything, unless it is blank. -/
theorem trimEnd_lines {ls : List String} {before : List (List Char)} {mark : Char} {rest : List Char}
    (hmark : isBlank mark = false) (hls : ls.map String.toList = before ++ [mark :: rest]) :
    trimEnd (lines ls) =
      String.ofList (['\n'].intercalate (before ++ [dropBlanksAtEnd (mark :: rest)])) := by
  have htext : (lines ls).toList = before.flatMap (· ++ ['\n']) ++ mark :: (rest ++ ['\n']) := by
    rw [toList_lines, hls, List.flatMap_append, List.flatMap_singleton, List.cons_append]
  rw [trimEnd, htext, dropBlanksAtEnd_append hmark, dropBlanksAtEnd_concat_of_blank (by decide),
    intercalate_append_singleton, dropBlanksAtEnd_cons hmark]

def Path.IsOneLine (path : Path) : Prop :=
  ∃ text, path = .ofText text ∧ '\n' ∉ text.toList

theorem Path.ofText_display {path : Path} (h : path.IsOneLine) : .ofText path.display = path := by
  obtain ⟨text, rfl, -⟩ := h
  exact congrArg ofText (Utf8.display_encode text)

theorem Path.IsOneLine.notMem {path : Path} (h : path.IsOneLine) : '\n' ∉ path.display.toList := by
  obtain ⟨text, rfl, htext⟩ := h
  rwa [display, ofText, Utf8.display_encode]

def DiffReport.heading (report : DiffReport) : String :=
  "left   " ++ report.leftDigest.toHex ++ "  " ++ report.left.display ++ "\n" ++
    ("right  " ++ report.rightDigest.toHex ++ "  " ++ report.right.display)

theorem DiffReport.text_eq (report : DiffReport) :
    report.text = report.heading ++ "\n" ++ report.verdict := by
  simp [text, lines, heading, String.append_assoc]

namespace ChangeSet

variable {changes : ChangeSet}

def paths (changes : ChangeSet) : List Path :=
  changes.modified ++ changes.added ++ changes.removed

def readLine? : List Char → Option (Char × Path)
  | mark :: ' ' :: path => some (mark, .ofText (String.ofList path))
  | _ => none

def pathsMarked (mark : Char) (ls : List (List Char)) : List Path :=
  ((ls.filterMap readLine?).filter (·.1 = mark)).map (·.2)

def readLists (ls : List (List Char)) : List Path × List Path × List Path :=
  (pathsMarked 'M' ls, pathsMarked 'A' ls, pathsMarked 'D' ls)

def lineOf (mark : Char) (path : Path) : List Char := mark :: ' ' :: path.display.toList

def marked (changes : ChangeSet) : List (Char × Path) :=
  changes.modified.map ('M', ·) ++ changes.added.map ('A', ·) ++ changes.removed.map ('D', ·)

theorem map_snd_marked (changes : ChangeSet) : changes.marked.map (·.2) = changes.paths := by
  simp [marked, paths, Function.comp_def]

theorem map_toList_changeLines (changes : ChangeSet) :
    changes.changeLines.map String.toList = changes.marked.map fun c : Char × Path => lineOf c.1 c.2 := by
  simp [changeLines, marked, lineOf, Function.comp_def]

theorem isBlank_mark {c : Char × Path} (h : c ∈ changes.marked) : isBlank c.1 = false := by
  simp only [marked, List.mem_append, List.mem_map] at h
  rcases h with (⟨-, -, rfl⟩ | ⟨-, -, rfl⟩) | ⟨-, -, rfl⟩ <;> rfl

theorem readLine?_lineOf {path : Path} (h : path.IsOneLine) (mark : Char) :
    readLine? (lineOf mark path) = some (mark, path) := by
  rw [lineOf, readLine?, String.ofList_toList, Path.ofText_display h]

theorem readLists_changeLines (h : ∀ path ∈ changes.paths, path.IsOneLine) :
    readLists (changes.changeLines.map String.toList) =
      (changes.modified, changes.added, changes.removed) := by
  have hread : (changes.changeLines.map String.toList).filterMap readLine? = changes.marked := by
    have hline (c : Char × Path) (hc : c ∈ changes.marked) :
        readLine? (lineOf c.1 c.2) = some c :=
      readLine?_lineOf (h c.2 (map_snd_marked changes ▸ List.mem_map_of_mem hc)) c.1
    rw [map_toList_changeLines, List.filterMap_map]
    exact (List.filterMap_congr hline).trans List.filterMap_some
  simp [readLists, pathsMarked, hread, marked, List.filter_map, Function.comp_def]

/-- The last path ends in something other than a blank. -/
def EndsWhole (changes : ChangeSet) : Prop :=
  ∀ path ∈ changes.paths.getLast?, ∃ c ∈ path.display.toList.getLast?, isBlank c = false

instance : Decidable changes.EndsWhole :=
  inferInstanceAs (Decidable (∀ path ∈ changes.paths.getLast?, _))

theorem endsWhole_of_marked_eq_nil (h : changes.marked = []) : changes.EndsWhole := by
  rw [EndsWhole, ← map_snd_marked, h]
  exact nofun

theorem endsWhole_iff {before : List (Char × Path)} {mark : Char} {path : Path}
    (h : changes.marked = before ++ [(mark, path)]) :
    changes.EndsWhole ↔ dropBlanksAtEnd (lineOf mark path) = lineOf mark path := by
  have hpaths : changes.paths = before.map (·.2) ++ [path] := by
    rw [← map_snd_marked, h, List.map_append]
    rfl
  rw [EndsWhole, hpaths, List.getLast?_concat, dropBlanksAtEnd_eq_self_iff, lineOf]
  simp only [Option.mem_some_iff, forall_eq']
  rcases List.eq_nil_or_concat' path.display.toList with hnil | ⟨cs, c, hc⟩
  · rw [hnil]
    exact iff_of_false (fun ⟨_, hc, _⟩ => by cases hc) (fun hblank => by cases hblank ' ' rfl)
  · have hline : mark :: ' ' :: (cs ++ [c]) = (mark :: ' ' :: cs) ++ [c] := rfl
    rw [hc, hline, List.getLast?_concat, List.getLast?_concat]
    simp only [Option.mem_some_iff, exists_eq_left', forall_eq']

theorem linesOf_text (h : ∀ path ∈ changes.paths, path.IsOneLine) :
    linesOf changes.text = (changes.changeLines.map String.toList).modifyLast dropBlanksAtEnd := by
  have hline {c : Char × Path} (hc : c ∈ changes.marked) : '\n' ∉ lineOf c.1 c.2 := by
    have hpath := h c.2 (map_snd_marked changes ▸ List.mem_map_of_mem hc)
    have hmark : isBlank c.1 = false := isBlank_mark hc
    rw [lineOf, List.mem_cons, List.mem_cons, not_or, not_or]
    refine ⟨?_, by decide, hpath.notMem⟩
    rintro heq
    rw [← heq] at hmark
    cases hmark
  rcases List.eq_nil_or_concat' changes.marked with hnil | ⟨before, ⟨mark, path⟩, hlast⟩
  · have hlines := map_toList_changeLines changes
    rw [hnil, List.map_nil] at hlines
    rw [text, List.map_eq_nil_iff.mp hlines]
    rfl
  · have hmark : isBlank mark = false :=
      isBlank_mark (c := (mark, path)) (hlast ▸ List.mem_concat_self)
    have hlines : changes.changeLines.map String.toList =
        before.map (fun c => lineOf c.1 c.2) ++ [lineOf mark path] := by
      rw [map_toList_changeLines, hlast, List.map_append]
      rfl
    rw [text, trimEnd_lines hmark hlines, linesOf_ofList, hlines, List.modifyLast_concat]
    · rfl
    · rw [intercalate_append_singleton, dropBlanksAtEnd_cons hmark]
      exact List.append_ne_nil_of_right_ne_nil _ (List.cons_ne_nil _ _)
    · intro line hmem
      rcases List.mem_append.mp hmem with hbefore | hend
      · obtain ⟨c, hc, rfl⟩ := List.mem_map.mp hbefore
        exact hline (hlast ▸ List.mem_append_left _ hc)
      · obtain rfl := List.mem_singleton.mp hend
        exact fun hnl => hline (hlast ▸ List.mem_concat_self : (mark, path) ∈ changes.marked)
          ((dropBlanksAtEnd_isPrefix _).subset hnl)

theorem linesOf_verdict {report : DiffReport}
    (h : (linesOf report.verdict).head? = some "differs".toList) :
    linesOf report.verdict = "differs".toList :: linesOf report.changes.text := by
  rw [DiffReport.verdict] at h ⊢
  split_ifs at h ⊢ with hidentical hentries
  · cases h
  · cases h
  · dsimp only
    split_ifs with hempty
    · rw [hempty]
      rfl
    · have hword : "differs\n" = "differs" ++ "\n" := by decide
      have hline : "differs".toList.splitOn '\n' = ["differs".toList] := by decide
      rw [hword, linesOf_append_newline "differs" hempty, hline, List.singleton_append]

theorem pathsMarked_append (mark : Char) (ls rest : List (List Char)) :
    pathsMarked mark (ls ++ rest) = pathsMarked mark ls ++ pathsMarked mark rest := by
  simp [pathsMarked]

theorem pathsMarked_eq_of_readLists_eq {ls rest : List (List Char)}
    (h : readLists ls = readLists rest) {c : Char × Path} (hc : c ∈ changes.marked) :
    pathsMarked c.1 ls = pathsMarked c.1 rest := by
  simp only [readLists, Prod.mk.injEq] at h
  simp only [marked, List.mem_append, List.mem_map] at hc
  rcases hc with (⟨-, -, rfl⟩ | ⟨-, -, rfl⟩) | ⟨-, -, rfl⟩
  · exact h.1
  · exact h.2.1
  · exact h.2.2

theorem eq_lineOf_of_readLine? {line : List Char} {c : Char × Path} (h : readLine? line = some c) :
    line = lineOf c.1 c.2 := by
  unfold readLine? at h
  split at h
  · obtain rfl := Option.some.inj h
    rw [lineOf, Path.display, Path.ofText, Utf8.display_encode, String.toList_ofList]
  · cases h

theorem eq_lineOf_of_pathsMarked {mark : Char} {line : List Char} {path : Path}
    (h : pathsMarked mark [line] = [path]) : line = lineOf mark path := by
  cases hread : readLine? line with
  | none => simp [pathsMarked, hread] at h
  | some c =>
    by_cases hmark : c.1 = mark
    · obtain rfl : c.2 = path := by simpa [pathsMarked, hread, hmark] using h
      rw [eq_lineOf_of_readLine? hread, hmark]
    · simp [pathsMarked, hread, hmark] at h

/-- What the text of `changes` tells, by itself and at the end of a comparison. -/
structure IsTold (changes : ChangeSet) : Prop where
  lines : linesOf changes.text =
    (changes.changeLines.map String.toList).modifyLast dropBlanksAtEnd
  whole : linesOf changes.text = changes.changeLines.map String.toList ↔ changes.EndsWhole
  read : readLists (linesOf changes.text) = (changes.modified, changes.added, changes.removed) ↔
    changes.EndsWhole
  compared : ∀ report : DiffReport, report.changes = changes →
    (linesOf report.verdict).head? = some "differs".toList →
    linesOf report.text =
      report.heading.toList.splitOn '\n' ++ "differs".toList :: linesOf changes.text

section OneLine

variable (h : ∀ path ∈ changes.paths, path.IsOneLine)

include h

theorem linesOf_text_eq_iff :
    linesOf changes.text = changes.changeLines.map String.toList ↔ changes.EndsWhole := by
  rw [linesOf_text h, map_toList_changeLines]
  rcases List.eq_nil_or_concat' changes.marked with hnil | ⟨before, ⟨mark, path⟩, hlast⟩
  · rw [hnil]
    exact iff_of_true rfl (endsWhole_of_marked_eq_nil hnil)
  · rw [endsWhole_iff hlast, hlast, List.map_append, List.map_singleton, List.modifyLast_concat,
      List.append_cancel_left_eq, List.singleton_inj]

/-- What is lost of the lines is lost of the lists. -/
theorem readLists_text_eq_iff :
    readLists (linesOf changes.text) = (changes.modified, changes.added, changes.removed) ↔
      changes.EndsWhole := by
  rw [← readLists_changeLines h]
  refine ⟨fun hread => ?_, fun hends => by rw [(linesOf_text_eq_iff h).mpr hends]⟩
  rcases List.eq_nil_or_concat' changes.marked with hnil | ⟨before, ⟨mark, path⟩, hlast⟩
  · exact endsWhole_of_marked_eq_nil hnil
  · have hmem : (mark, path) ∈ changes.marked := hlast ▸ List.mem_concat_self
    have hpath : path.IsOneLine := h path (map_snd_marked changes ▸ List.mem_map_of_mem hmem)
    rw [linesOf_text h, map_toList_changeLines, hlast, List.map_append, List.map_singleton,
      List.modifyLast_concat] at hread
    have hmarked := pathsMarked_eq_of_readLists_eq hread hmem
    rw [pathsMarked_append, pathsMarked_append, List.append_cancel_left_eq] at hmarked
    refine (endsWhole_iff hlast).mpr (eq_lineOf_of_pathsMarked (hmarked.trans ?_))
    simp [pathsMarked, readLine?_lineOf hpath]

/-- The text tells the lines and the three lists whole exactly if the last path does not end in a blank;
otherwise it is only this path that loses anything. -/
theorem isTold_of_isOneLine : changes.IsTold :=
  ⟨linesOf_text h, linesOf_text_eq_iff h, readLists_text_eq_iff h, fun report hreport hdiffers => by
    have hverdict : report.verdict ≠ "" := by
      intro hempty
      rw [hempty] at hdiffers
      cases hdiffers
    rw [report.text_eq, linesOf_append_newline _ hverdict, linesOf_verdict hdiffers, hreport]⟩

end OneLine

/-- A change of each kind; inner blanks and a line separator within a path are kept. -/
theorem isTold_ofEachKind :
    IsTold ⟨true, [.ofText "d/a "], [.ofText "d/ b\u2028c"], [.ofText "d/c d"]⟩ :=
  isTold_of_isOneLine (by
    intro path hpath
    simp only [paths, List.mem_append, List.mem_singleton] at hpath
    rcases hpath with (rfl | rfl) | rfl
    · exact ⟨_, rfl, by decide⟩
    · exact ⟨_, rfl, by decide⟩
    · exact ⟨_, rfl, by decide⟩)

def blankAtEnd : ChangeSet := ⟨true, [.ofText "d/a "], [], []⟩

/-- The blank is lost, so another path is read. -/
theorem not_told_blankAtEnd : (∀ path ∈ blankAtEnd.paths, path.IsOneLine) ∧
    linesOf blankAtEnd.text ≠ blankAtEnd.changeLines.map String.toList ∧
    readLists (linesOf blankAtEnd.text) ≠
      (blankAtEnd.modified, blankAtEnd.added, blankAtEnd.removed) := by
  have h : ∀ path ∈ blankAtEnd.paths, path.IsOneLine := by
    intro path hpath
    obtain rfl := List.mem_singleton.mp hpath
    exact ⟨_, rfl, by decide⟩
  have hdisplay : (Path.ofText "d/a ").display = "d/a " := Utf8.display_encode _
  have hends : ¬ blankAtEnd.EndsWhole := by
    intro hends
    obtain ⟨c, hc, hblank⟩ := hends (.ofText "d/a ") rfl
    rw [hdisplay] at hc
    obtain rfl : ' ' = c := Option.some.inj hc
    cases hblank
  exact ⟨h, mt (linesOf_text_eq_iff h).mp hends, mt (readLists_text_eq_iff h).mp hends⟩

end ChangeSet
end MerkleDir
