import Mathlib
import MerkleDir.Command.Run
import MerkleDir.Proofs.Text.Utf8

namespace MerkleDir

def isLineBreak (c : Char) : Bool := c == '\n' || c == '\r'

def IsUnbroken (text : String) : Prop := ∀ c ∈ text.toList, isLineBreak c = false

theorem isUnbroken_append {s t : String} : IsUnbroken (s ++ t) ↔ IsUnbroken s ∧ IsUnbroken t := by
  rw [IsUnbroken, String.toList_append, List.forall_mem_append, IsUnbroken, IsUnbroken]

theorem IsUnbroken.append {s t : String} (hs : IsUnbroken s) (ht : IsUnbroken t) :
    IsUnbroken (s ++ t) :=
  isUnbroken_append.mpr ⟨hs, ht⟩

theorem isUnbroken_ofList {cs : List Char} :
    IsUnbroken (String.ofList cs) ↔ ∀ c ∈ cs, isLineBreak c = false := by
  rw [IsUnbroken, String.toList_ofList]

/-- For texts that are written out, where evaluation decides. -/
theorem isUnbroken_of_any {cs : List Char} (h : cs.any isLineBreak = false) :
    IsUnbroken (String.ofList cs) :=
  isUnbroken_ofList.mpr (by simpa using h)

/-- A line break in the bytes is one in what is displayed, and there are no others. -/
theorem isUnbroken_display_iff {bytes : Bytes} :
    IsUnbroken (Utf8.display bytes) ↔ 0x0A ∉ bytes ∧ 0x0D ∉ bytes := by
  rw [← Utf8.mem_display_iff (by decide), ← Utf8.mem_display_iff (by decide)]
  constructor
  · exact fun h => ⟨fun hn => Bool.noConfusion (h _ hn), fun hr => Bool.noConfusion (h _ hr)⟩
  · rintro ⟨hn, hr⟩ c hc
    rw [isLineBreak, Bool.or_eq_false_iff, beq_eq_false_iff_ne, beq_eq_false_iff_ne]
    exact ⟨fun heq => hn (heq ▸ hc), fun heq => hr (heq ▸ hc)⟩

theorem isLineBreak_digitChar (n : Nat) : isLineBreak n.digitChar = false := by
  by_cases hn : n < 16
  · interval_cases n <;> rfl
  · rw [Nat.digitChar]
    repeat rw [if_neg (by omega)]
    rfl

theorem isLineBreak_toDigits {base : Nat} (hbase : 1 < base) (n : Nat) :
    ∀ c ∈ Nat.toDigits base n, isLineBreak c = false := by
  induction n using Nat.strongRecOn with
  | _ n ih =>
    rw [Nat.toDigits_eq_if hbase]
    split
    · rw [List.forall_mem_singleton]
      exact isLineBreak_digitChar n
    · rename_i hn
      rw [List.forall_mem_append, List.forall_mem_singleton]
      exact ⟨ih _ (Nat.div_lt_self (by omega) hbase), isLineBreak_digitChar _⟩

theorem isUnbroken_toString (n : Nat) : IsUnbroken (toString n) := by
  rw [Nat.toString_eq_ofList_toDigits, isUnbroken_ofList]
  exact isLineBreak_toDigits (by decide) n

theorem isLineBreak_upperHexByte (b : UInt8) :
    ∀ c ∈ Quoted.upperHexByte b, isLineBreak c = false := by
  have hdigit (n : Nat) (hn : n < 16) : isLineBreak (Hex.digit n).toUpper = false := by
    interval_cases n <;> rfl
  have hb : b.toNat < 256 := b.toNat_lt
  rw [Quoted.upperHexByte, Hex.encodeByte, List.map_cons, List.map_singleton, List.forall_mem_cons,
    List.forall_mem_singleton]
  exact ⟨hdigit _ (by omega), hdigit _ (by omega)⟩

theorem isLineBreak_escape (c : Char) : ∀ d ∈ Quoted.escape '"' c, isLineBreak d = false := by
  rw [Quoted.escape]
  split_ifs with hnul htab hreturn hline hmark hvisible
  · simp [isLineBreak]
  · simp [isLineBreak]
  · simp [isLineBreak]
  · simp [isLineBreak]
  · rcases hmark with rfl | rfl <;> simp [isLineBreak]
  · rw [List.forall_mem_singleton, isLineBreak, beq_false_of_ne hline, beq_false_of_ne hreturn]
    rfl
  · rw [Quoted.unicodeEscape, List.forall_mem_append, List.forall_mem_append]
    exact ⟨⟨by simp [isLineBreak], isLineBreak_toDigits (by decide) _⟩, by simp [isLineBreak]⟩

theorem isUnbroken_quoted (path : Path) : IsUnbroken path.quoted := by
  rw [Path.quoted, Quoted.ofBytes, isUnbroken_ofList, List.cons_append, List.forall_mem_cons,
    List.forall_mem_append, List.forall_mem_flatMap]
  refine ⟨rfl, fun piece _ => ?_, by simp [isLineBreak]⟩
  cases piece with
  | char c => exact isLineBreak_escape c
  | invalid bytes =>
    rw [Quoted.escapePiece, List.forall_mem_flatMap]
    intro b _
    rw [List.forall_mem_append]
    exact ⟨by simp [isLineBreak], isLineBreak_upperHexByte b⟩

theorem OsError.isUnbroken_message (e : OsError) : IsUnbroken e.message := by
  cases e <;> exact isUnbroken_of_any rfl

namespace SnapshotError

inductive IsRaised : SnapshotError → Prop
  | os (path : Path) (cause : OsError) : IsRaised (.filesystem path (.os cause))
  | listing (path : Path) (cause : OsError) : IsRaised (.filesystem path (.listing path cause))
  | notADirectory (path : Path) : IsRaised (.notADirectory path)
  | linkDepthExceeded (path : Path) (limit : Nat) : IsRaised (.linkDepthExceeded path limit)

end SnapshotError

namespace CommandError

inductive IsRaised : CommandError → Prop
  | snapshot {cause : SnapshotError} (h : cause.IsRaised) : IsRaised (.snapshot cause)
  | debounce : IsRaised (.config "debounce_ms must be greater than 0")
  | rendering (cause : RenderError) : IsRaised (.config cause.message)
  | encoding (cause : EncodeError) : IsRaised (.output cause.message)
  | registration (cause : WatchSession.RegistrationError) : IsRaised (.watch cause.message)
  | calendar : IsRaised .calendar

theorem exists_line_eq (e : CommandError) : ∃ rest, e.line = "error: " ++ rest := by
  rw [line.eq_def]
  split
  · rename_i path reason
    have hstart : "error: cannot read " = "error: " ++ "cannot read " := by decide
    exact ⟨"cannot read " ++ path.display ++ ": " ++ reason.message, by
      rw [hstart]
      simp only [String.append_assoc]⟩
  · exact ⟨_, rfl⟩

/-- Whether the line is whole is a matter of the path and the reason. -/
theorem isUnbroken_line_filesystem_iff {path : Path} {reason : ReadFailure} :
    IsUnbroken (line (.snapshot (.filesystem path reason))) ↔
      IsUnbroken path.display ∧ IsUnbroken reason.message := by
  have hstart : IsUnbroken "error: cannot read " := isUnbroken_of_any rfl
  have hcolon : IsUnbroken ": " := isUnbroken_of_any rfl
  constructor
  · intro h
    have hrest := isUnbroken_append.mp h
    exact ⟨(isUnbroken_append.mp (isUnbroken_append.mp hrest.1).1).2, hrest.2⟩
  · rintro ⟨hpath, hreason⟩
    exact ((hstart.append hpath).append hcolon).append hreason

theorem isUnbroken_line_of_message {e : CommandError}
    (hne : ∀ path reason, e ≠ .snapshot (.filesystem path reason)) (h : IsUnbroken e.message) :
    IsUnbroken e.line := by
  have hstart : IsUnbroken "error: " := isUnbroken_of_any rfl
  rw [line.eq_def]
  split
  · exact absurd rfl (hne _ _)
  · exact hstart.append h

theorem isUnbroken_notADirectory (path : Path) :
    IsUnbroken (SnapshotError.notADirectory path).message := by
  have hinvalid : IsUnbroken "Invalid path: " := isUnbroken_of_any rfl
  have hdirectory : IsUnbroken "Not a directory: " := isUnbroken_of_any rfl
  exact hinvalid.append (hdirectory.append (isUnbroken_quoted path))

theorem isUnbroken_linkDepthExceeded (path : Path) (limit : Nat) :
    IsUnbroken (SnapshotError.linkDepthExceeded path limit).message := by
  have hchain : IsUnbroken "Symlink chain at " := isUnbroken_of_any rfl
  have hlimit : IsUnbroken " exceeds the maximum resolution depth of " := isUnbroken_of_any rfl
  exact ((hchain.append (isUnbroken_quoted path)).append hlimit).append (isUnbroken_toString limit)

theorem isUnbroken_registration (cause : WatchSession.RegistrationError) :
    IsUnbroken cause.message := by
  have habout : IsUnbroken " about [" := isUnbroken_of_any rfl
  have hclose : IsUnbroken "]" := isUnbroken_of_any rfl
  exact ((cause.error.isUnbroken_message.append habout).append (isUnbroken_quoted cause.path)).append
    hclose

/-- The reason of a file system error has no line break of its own; all other messages have none. -/
theorem IsRaised.filesystem_or_isUnbroken_message {e : CommandError} (h : e.IsRaised) :
    (∃ path reason, e = .snapshot (.filesystem path reason) ∧
      (IsUnbroken path.display → IsUnbroken reason.message)) ∨
      (∀ path reason, e ≠ .snapshot (.filesystem path reason)) ∧ IsUnbroken e.message := by
  have hsnapshot : IsUnbroken "Snapshot error: " := isUnbroken_of_any rfl
  have hconfig : IsUnbroken "Configuration error: " := isUnbroken_of_any rfl
  have houtput : IsUnbroken "Output error: " := isUnbroken_of_any rfl
  have hwatch : IsUnbroken "Watch error: " := isUnbroken_of_any rfl
  cases h with
  | snapshot hcause =>
    cases hcause with
    | os path cause => exact Or.inl ⟨path, .os cause, rfl, fun _ => cause.isUnbroken_message⟩
    | listing path cause =>
      have hlisting : IsUnbroken "IO error for operation on " := isUnbroken_of_any rfl
      have hcolon : IsUnbroken ": " := isUnbroken_of_any rfl
      exact Or.inl ⟨path, .listing path cause, rfl, fun hpath =>
        ((hlisting.append hpath).append hcolon).append cause.isUnbroken_message⟩
    | notADirectory path =>
      exact Or.inr ⟨fun _ _ h => (by cases h), hsnapshot.append (isUnbroken_notADirectory path)⟩
    | linkDepthExceeded path limit =>
      exact Or.inr ⟨fun _ _ h => (by cases h),
        hsnapshot.append (isUnbroken_linkDepthExceeded path limit)⟩
  | debounce =>
    have htext : IsUnbroken "debounce_ms must be greater than 0" := isUnbroken_of_any rfl
    exact Or.inr ⟨fun _ _ h => (by cases h), hconfig.append htext⟩
  | rendering cause =>
    have htext : IsUnbroken cause.message := by cases cause <;> exact isUnbroken_of_any rfl
    exact Or.inr ⟨fun _ _ h => (by cases h), hconfig.append htext⟩
  | encoding cause =>
    have htext : IsUnbroken cause.message := by cases cause <;> exact isUnbroken_of_any rfl
    exact Or.inr ⟨fun _ _ h => (by cases h), houtput.append htext⟩
  | registration cause =>
    exact Or.inr ⟨fun _ _ h => (by cases h), hwatch.append (isUnbroken_registration cause)⟩
  | calendar =>
    have htext : IsUnbroken "Time outside the calendar" := isUnbroken_of_any rfl
    exact Or.inr ⟨fun _ _ h => (by cases h), htext⟩

/-- Only the path of a file system error breaks the line. -/
theorem IsRaised.isUnbroken_line_iff {e : CommandError} (h : e.IsRaised) :
    IsUnbroken e.line ↔ ∀ path reason, e = .snapshot (.filesystem path reason) →
      0x0A ∉ path.bytes ∧ 0x0D ∉ path.bytes := by
  rcases h.filesystem_or_isUnbroken_message with ⟨path, reason, rfl, hreason⟩ | ⟨hne, hmessage⟩
  · rw [isUnbroken_line_filesystem_iff, and_iff_left_of_imp hreason, Path.display,
      isUnbroken_display_iff]
    refine ⟨fun hpath p r heq => ?_, fun hpaths => hpaths path reason rfl⟩
    cases heq
    exact hpath
  · exact iff_of_true (isUnbroken_line_of_message hne hmessage)
      fun path reason heq => absurd heq (hne path reason)

end CommandError
end MerkleDir
