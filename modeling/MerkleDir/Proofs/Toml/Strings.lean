import Mathlib
import MerkleDir.Proofs.Text.Hex
import MerkleDir.Toml.Statement
import MerkleDir.Toml.Writer

/-!
# Strings and keys read back

`Writes` tells which texts stand for a content between the marks of a quotation. Whatever form the writer
chooses, the text that it writes is such a text, and every such text is read back as its content.
-/
namespace MerkleDir.Toml

namespace Quotation

def closing (q : Quotation) : List Char :=
  if q.triple then [q.mark, q.mark, q.mark] else [q.mark]

/-- A text stands for a content if `run` marks precede it. Marks stand for themselves between triple
marks, as long as no three are together. -/
inductive Writes (q : Quotation) : Nat → List Char → List Char → Prop
  | nil (run : Nat) : Writes q run [] []
  | mark {run : Nat} {text content : List Char} (htriple : q.triple = true) (hrun : run < 2)
      (h : Writes q (run + 1) text content) : Writes q run (q.mark :: text) (q.mark :: content)
  | plain {run : Nat} {c : Char} {text content : List Char} (hmark : c ≠ q.mark)
      (hescape : q.hasEscapes = true → c ≠ '\\') (hcontrol : isControl c = false)
      (hline : c = '\n' → q.triple = true) (h : Writes q 0 text content) :
      Writes q run (c :: text) (c :: content)
  | escape {run : Nat} {c : Char} {code text content : List Char} (hescapes : q.hasEscapes = true)
      (hmark : q.mark ≠ '\\')
      (hcode : ∀ rest, q.escape? (code ++ rest) = some ([c], code.length))
      (h : Writes q 0 text content) : Writes q run ('\\' :: (code ++ text)) (c :: content)

theorem body?_skip (q : Quotation) (code rest : List Char) :
    q.body? code.length (code ++ rest) = q.body? 0 rest := by
  induction code with
  | nil => rfl
  | cons c code ih => rw [List.length_cons, List.cons_append, body?, ih]

variable {q : Quotation} {run : Nat} {text content rest : List Char}

/-- How many marks the text starts with: all of it, or fewer than would close the quotation. -/
theorem Writes.leading (h : Writes q run text content) (hrun : run ≤ 2) :
    (∃ n, n + run ≤ 2 ∧ text = List.replicate n q.mark ∧ content = text) ∨
      ∃ n c after, n + run ≤ 2 ∧ c ≠ q.mark ∧ text = List.replicate n q.mark ++ c :: after := by
  induction h with
  | nil run => exact Or.inl ⟨0, by omega, rfl, rfl⟩
  | @mark run text content htriple hlt h ih =>
    rcases ih (by omega) with ⟨n, hn, rfl, rfl⟩ | ⟨n, c, after, hn, hc, rfl⟩
    · exact Or.inl ⟨n + 1, by omega, rfl, rfl⟩
    · exact Or.inr ⟨n + 1, c, after, by omega, hc, rfl⟩
  | @plain run c text content hmark => exact Or.inr ⟨0, c, text, by omega, hmark, rfl⟩
  | @escape run c code text content hescapes hmark =>
    exact Or.inr ⟨0, '\\', code ++ text, by omega, hmark.symm, rfl⟩

section Close

variable (hrest : rest.head? ≠ some q.mark)

include hrest

theorem takeWhile_mark_of_head? (n : Nat) : (rest.take n).takeWhile (· = q.mark) = [] := by
  cases rest with
  | nil => rw [List.take_nil, List.takeWhile_nil]
  | cons c rest =>
    have hc : ¬ c = q.mark := fun h => hrest (congrArg some h)
    cases n with
    | zero => rfl
    | succ n => rw [List.take_succ_cons, List.takeWhile_cons, if_neg (by simpa using hc)]

theorem close?_replicate (htriple : q.triple = true) {n : Nat} (hn : n ≤ 2) :
    q.close? (List.replicate n q.mark ++ q.mark :: q.mark :: rest) =
      some (List.replicate n q.mark, rest) := by
  have htail := takeWhile_mark_of_head? hrest
  interval_cases n <;> simp [close?, htriple, List.replicate_succ, htail]

end Close

/-- Up to one mark and then something else do not close it. -/
theorem close?_eq_none (htriple : q.triple = true) {n : Nat} (hn : n ≤ 1) {c : Char} (hc : c ≠ q.mark)
    (after : List Char) : q.close? (List.replicate n q.mark ++ c :: after) = none := by
  interval_cases n
  · cases after <;> simp [close?, htriple, hc]
  · simp [close?, htriple, hc]

theorem body?_mark (q : Quotation) (rest : List Char) : q.body? 0 (q.mark :: rest) =
    match q.close? rest with
    | some closed => some closed
    | none => (q.body? 0 rest).map fun (content, after) => (q.mark :: content, after) := by
  rw [body?]
  exact if_pos rfl

/-- By induction on the text; marks in it are told from those at its end by what follows them. -/
theorem Writes.body?_eq (h : Writes q run text content) (hrun : run ≤ 2)
    (hrest : rest.head? ≠ some q.mark) :
    q.body? 0 (text ++ (q.closing ++ rest)) = some (content, rest) := by
  induction h with
  | nil run =>
    rw [List.nil_append, closing]
    split_ifs with htriple
    · have hclose : q.close? (q.mark :: q.mark :: rest) = some ([], rest) :=
        close?_replicate hrest htriple (Nat.zero_le 2)
      have hmarks : [q.mark, q.mark, q.mark] ++ rest = q.mark :: q.mark :: q.mark :: rest := rfl
      rw [hmarks, body?_mark, hclose]
    · have hclose : q.close? rest = some ([], rest) := by simp [close?, htriple]
      rw [List.singleton_append, body?_mark, hclose]
  | @mark run text content htriple hlt h ih =>
    have hclosing : q.closing ++ rest = q.mark :: q.mark :: q.mark :: rest := by
      rw [closing, if_pos htriple]
      rfl
    rw [List.cons_append, body?_mark]
    rcases h.leading (by omega) with ⟨n, hn, rfl, rfl⟩ | ⟨n, c, after, hn, hc, htext⟩
    · have hmarks : List.replicate n q.mark ++ (q.closing ++ rest) =
          List.replicate (n + 1) q.mark ++ q.mark :: q.mark :: rest := by
        rw [hclosing, List.replicate_succ', List.append_assoc, List.singleton_append]
      rw [hmarks, close?_replicate hrest htriple (by omega)]
      rfl
    · have hnone : q.close? (text ++ (q.closing ++ rest)) = none := by
        rw [htext, List.append_assoc, List.cons_append]
        exact close?_eq_none htriple (by omega) hc _
      rw [hnone, ih (by omega)]
      rfl
  | @plain run c text content hmark hescape hcontrol hline h ih =>
    have hreturn : c ≠ '\r' := by
      rintro rfl
      cases hcontrol
    rw [List.cons_append, Quotation.body?, if_neg hmark, if_neg fun h => hescape h.2 h.1,
      if_neg fun h => hreturn h.1, if_neg, ih (by omega)]
    · rfl
    · rintro (h | ⟨h, hsingle⟩)
      · cases hcontrol.symm.trans h
      · exact hsingle (hline h)
  | @escape run c code text content hescapes hmark hcode h ih =>
    rw [List.cons_append, Quotation.body?, if_neg hmark.symm, if_pos ⟨rfl, hescapes⟩,
      List.append_assoc, hcode]
    dsimp only
    rw [body?_skip, ih (by omega)]
    rfl

theorem code?_hex {n : Nat} (hn : n < 128) (rest : List Char) :
    code? 4 (['0', '0'] ++ (Hex.encodeByte (UInt8.ofNat n)).map Char.toUpper ++ rest) =
      some (Char.ofNat n) := by
  have hcheck : ∀ n < 128, Scalar.valueOf 16
      (['0', '0'] ++ (Hex.encodeByte (UInt8.ofNat n)).map Char.toUpper) = n ∧
      (['0', '0'] ++ (Hex.encodeByte (UInt8.ofNat n)).map Char.toUpper).all
        (Scalar.isDigitOf 16) = true := by decide +kernel
  obtain ⟨hvalue, hdigits⟩ := hcheck n hn
  have htake : (['0', '0'] ++ (Hex.encodeByte (UInt8.ofNat n)).map Char.toUpper ++ rest).take 4 =
      ['0', '0'] ++ (Hex.encodeByte (UInt8.ofNat n)).map Char.toUpper := rfl
  have hvalid : n.isValidChar := Or.inl (by omega)
  rw [code?, htake, hvalue, if_pos ⟨rfl, hdigits, hvalid⟩]

theorem isControl_eq_false {c : Char} (hlow : ¬ (c.toNat < 0x20 || c.toNat == 0x7F) = true) :
    isControl c = false := by
  rw [Bool.or_eq_true, decide_eq_true_eq, beq_iff_eq] at hlow
  simp only [isControl]
  simp only [not_or] at hlow
  simp [hlow]

def basic (triple : Bool) : Quotation := ⟨'"', triple⟩

def literal (triple : Bool) : Quotation := ⟨'\'', triple⟩

def allowedMarks (triple : Bool) : Nat := if triple then 2 else 0

theorem writes_escape {triple : Bool} {run : Nat} {c e : Char} {text content : List Char}
    (he : simpleEscape? e = some c) (h : Writes (basic triple) 0 text content) :
    Writes (basic triple) run ('\\' :: e :: text) (c :: content) := by
  have hcode (rest : List Char) : (basic triple).escape? ([e] ++ rest) = some ([c], [e].length) := by
    rw [List.singleton_append, escape?, if_neg, if_neg, he]
    · rfl
    · rintro rfl
      cases he
    · rintro rfl
      cases he
  exact .escape rfl (by decide : '"' ≠ '\\') hcode h

theorem writes_unicodeEscape {triple : Bool} {run : Nat} {c : Char} {text content : List Char}
    (hc : c.toNat < 128) (h : Writes (basic triple) 0 text content) :
    Writes (basic triple) run (unicodeEscape c ++ text) (c :: content) := by
  have hcode (rest : List Char) : (basic triple).escape?
      ('u' :: (['0', '0'] ++ (Hex.encodeByte (UInt8.ofNat c.toNat)).map Char.toUpper) ++ rest) =
        some ([c], 5) := by
    rw [List.cons_append, escape?, if_pos rfl, code?_hex hc, Char.ofNat_toNat]
    rfl
  exact .escape rfl (by decide : '"' ≠ '\\') hcode h

theorem writes_basicBody (triple : Bool) (run : Nat) (cs : List Char) :
    Writes (basic triple) run (basicBody triple (allowedMarks triple) run cs) cs := by
  induction cs generalizing run with
  | nil => exact .nil run
  | cons c cs ih =>
    rw [basicBody]
    split_ifs with hmark hrun
    · subst hmark
      cases triple with
      | false => cases hrun
      | true => exact Writes.mark (q := basic true) rfl hrun (ih (run + 1))
    · subst hmark
      exact writes_escape rfl (ih 0)
    · rw [escapeBasic]
      split_ifs with hb ht hn htriple hf hr hs hcontrol
      · exact hb ▸ writes_escape rfl (ih 0)
      · exact ht ▸ writes_escape rfl (ih 0)
      · subst hn
        exact .plain hmark (fun _ => by decide) rfl (fun _ => htriple) (ih 0)
      · exact hn ▸ writes_escape rfl (ih 0)
      · exact hf ▸ writes_escape rfl (ih 0)
      · exact hr ▸ writes_escape rfl (ih 0)
      · subst hs
        exact writes_escape rfl (ih 0)
      · refine writes_unicodeEscape ?_ (ih 0)
        rw [Bool.or_eq_true, decide_eq_true_eq, beq_iff_eq] at hcontrol
        omega
      · exact .plain hmark (fun _ => hs) (isControl_eq_false hcontrol) (fun h => absurd h hn) (ih 0)

theorem le_longestRun (mark : Char) (run : Nat) (cs : List Char) : run ≤ longestRun mark run cs := by
  induction cs generalizing run with
  | nil => exact le_refl run
  | cons c cs ih =>
    rw [longestRun]
    split_ifs
    · exact (Nat.le_succ run).trans (ih (run + 1))
    · exact le_max_left _ _

theorem writes_literal {triple : Bool} {run : Nat} {cs : List Char}
    (hmarks : longestRun '\'' run cs ≤ allowedMarks triple) (hcontrol : cs.any isControl = false)
    (hline : '\n' ∈ cs → triple = true) : Writes (literal triple) run cs cs := by
  induction cs generalizing run with
  | nil => exact .nil run
  | cons c cs ih =>
    rw [List.any_cons, Bool.or_eq_false_iff] at hcontrol
    have hlater : '\n' ∈ cs → triple = true := fun h => hline (List.mem_cons_of_mem _ h)
    rw [longestRun] at hmarks
    split_ifs at hmarks with hmark
    · subst hmark
      have hrun := (le_longestRun '\'' (run + 1) cs).trans hmarks
      cases triple with
      | false => cases hrun
      | true => exact Writes.mark (q := literal true) rfl hrun (ih hmarks hcontrol.2 hlater)
    · refine .plain hmark (fun h => by cases h) hcontrol.1 (fun h => ?_) ?_
      · exact hline (List.mem_cons.mpr (Or.inl h.symm))
      · exact ih ((le_max_right _ _).trans hmarks) hcontrol.2 hlater

theorem Writes.head?_ne (h : Writes q run text content) (hsingle : q.triple = false) :
    text.head? ≠ some q.mark := by
  intro hhead
  cases h with
  | nil => cases hhead
  | mark htriple => cases hsingle.symm.trans htriple
  | plain hmark => exact hmark (Option.some_inj.mp hhead)
  | escape hescapes hmark => exact hmark (Option.some_inj.mp hhead).symm

theorem open?_single (hmark : isMark q.mark = true) (hsingle : q.triple = false)
    (h : Writes q run text content) (rest : List Char) :
    open? (q.mark :: (text ++ (q.closing ++ '\n' :: rest))) =
      some (q, text ++ (q.closing ++ '\n' :: rest)) := by
  have hq : (⟨q.mark, false⟩ : Quotation) = q := hsingle ▸ rfl
  have hline : '\n' ≠ q.mark := fun h => by
    rw [← h] at hmark
    cases hmark
  have hclosing : q.closing = [q.mark] := by rw [closing, hsingle]; rfl
  have hhead := h.head?_ne hsingle
  rw [hclosing]
  cases text with
  | nil => simp [open?, hmark, hline, hq]
  | cons c text =>
    have hc : c ≠ q.mark := fun h => hhead (congrArg some h)
    cases text <;> simp [open?, hmark, hc, hq]

theorem open?_triple (hmark : isMark q.mark = true) (htriple : q.triple = true) (rest : List Char) :
    open? (q.mark :: q.mark :: q.mark :: rest) = some (q, dropFirstLineEnd rest) := by
  have hq : (⟨q.mark, true⟩ : Quotation) = q := htriple ▸ rfl
  simp [open?, hmark, hq]

/-- Nothing is dropped from a text that stands for a content without line feeds. -/
theorem Writes.dropFirstLineEnd_eq (h : Writes q run text content) (hmark : isMark q.mark = true)
    (hline : '\n' ∉ content) (rest : List Char) :
    dropFirstLineEnd (text ++ (q.closing ++ rest)) = text ++ (q.closing ++ rest) := by
  have hkeep {c : Char} {after : List Char} (hfeed : c ≠ '\n') (hreturn : c ≠ '\r') :
      dropFirstLineEnd (c :: after) = c :: after := by
    rw [dropFirstLineEnd.eq_def]
    split
    · rename_i heq
      exact absurd (List.cons.inj heq).1 hfeed
    · rename_i heq
      exact absurd (List.cons.inj heq).1 hreturn
    · rfl
  have hmarks : q.mark ≠ '\n' ∧ q.mark ≠ '\r' := by
    constructor
    · intro h
      rw [h] at hmark
      cases hmark
    · intro h
      rw [h] at hmark
      cases hmark
  cases h with
  | nil => cases htriple : q.triple <;> simp only [closing, htriple] <;> exact hkeep hmarks.1 hmarks.2
  | mark => exact hkeep hmarks.1 hmarks.2
  | plain _ _ hcontrol =>
    refine hkeep (fun h => hline (h ▸ List.mem_cons_self)) ?_
    rintro rfl
    cases hcontrol
  | escape => exact hkeep (by decide) (by decide)

end Quotation

open Quotation

variable {q : Quotation} {text content : List Char}

/-- No quotation goes on at the end of a line. -/
theorem head?_lineFeed_ne (hmark : isMark q.mark = true) (rest : List Char) :
    ('\n' :: rest).head? ≠ some q.mark := by
  intro h
  rw [← Option.some_inj.mp h] at hmark
  cases hmark

theorem string?_oneLine (hmark : isMark q.mark = true) (hsingle : q.triple = false)
    (h : Writes q 0 text content) (rest : List Char) :
    string? (oneLine [q.mark] text ++ '\n' :: rest) = some (String.ofList content, '\n' :: rest) := by
  have hclosing : q.closing = [q.mark] := by rw [closing, hsingle]; rfl
  have hinput : oneLine [q.mark] text ++ '\n' :: rest =
      q.mark :: (text ++ (q.closing ++ '\n' :: rest)) := by
    rw [oneLine, hclosing, List.append_assoc, List.append_assoc]
    rfl
  rw [string?, hinput, open?_single hmark hsingle h, Option.bind_some]
  dsimp only
  rw [h.body?_eq (Nat.zero_le 2) (head?_lineFeed_ne hmark rest)]
  rfl

theorem string?_manyLines (hmark : isMark q.mark = true) (htriple : q.triple = true)
    (h : Writes q 0 text content) {hasNewline : Bool} (hline : '\n' ∈ content → hasNewline = true)
    (rest : List Char) :
    string? (manyLines hasNewline [q.mark, q.mark, q.mark] text ++ '\n' :: rest) =
      some (String.ofList content, '\n' :: rest) := by
  have hclosing : q.closing = [q.mark, q.mark, q.mark] := by rw [closing, htriple]; rfl
  have hopened : open? (manyLines hasNewline [q.mark, q.mark, q.mark] text ++ '\n' :: rest) =
      some (q, text ++ (q.closing ++ '\n' :: rest)) := by
    rw [manyLines, hclosing]
    cases hasNewline with
    | true =>
      rw [if_pos rfl, List.append_assoc, List.append_assoc, List.append_assoc]
      exact open?_triple hmark htriple _
    | false =>
      have hkeep := h.dropFirstLineEnd_eq hmark (fun hmem => by cases hline hmem) ('\n' :: rest)
      have hopen := open?_triple hmark htriple (text ++ (q.closing ++ '\n' :: rest))
      rw [hkeep, hclosing] at hopen
      rw [if_neg Bool.false_ne_true, List.append_nil, List.append_assoc, List.append_assoc]
      exact hopen
  rw [string?, hopened, Option.bind_some]
  dsimp only
  rw [h.body?_eq (Nat.zero_le 2) (head?_lineFeed_ne hmark rest)]
  rfl

/-- A string is read back from a line, in whatever form it is written. -/
theorem string?_string (text : String) (rest : List Char) :
    string? ((string text).toList ++ '\n' :: rest) = some (text, '\n' :: rest) := by
  obtain ⟨cs, rfl⟩ : ∃ cs, text = String.ofList cs := ⟨text.toList, String.ofList_toList.symm⟩
  have hline : '\n' ∈ cs → (traits cs).hasNewline = true := List.contains_iff_mem.mpr
  have hbasic := string?_oneLine rfl rfl (writes_basicBody false 0 cs) rest
  rw [string, String.toList_ofList, String.toList_ofList]
  split_ifs with hplain hliteral hplains hliterals hfeed
  · exact hbasic
  · simp only [Bool.and_eq_true, Bool.not_eq_true', beq_iff_eq] at hliteral
    obtain ⟨⟨hcontrol, hmarks⟩, hnone⟩ := hliteral
    have hwrites : Writes (literal false) 0 cs cs :=
      writes_literal hmarks.le hcontrol fun h => by cases (hline h).symm.trans hnone
    exact string?_oneLine rfl rfl hwrites rest
  · exact string?_manyLines rfl rfl (writes_basicBody true 0 cs) hline rest
  · simp only [Bool.and_eq_true, Bool.not_eq_true', decide_eq_true_eq] at hliterals
    have hwrites : Writes (literal true) 0 cs cs :=
      writes_literal hliterals.2 hliterals.1 fun _ => rfl
    exact string?_manyLines rfl rfl hwrites hline rest
  · exact string?_manyLines rfl rfl (writes_basicBody true 0 cs) (fun _ => rfl) rest
  · exact hbasic

theorem quotedKey?_oneLine (hmark : isMark q.mark = true) (hsingle : q.triple = false)
    (h : Writes q 0 text content) {c : Char} (hc : c ≠ q.mark) (rest : List Char) :
    quotedKey? (oneLine [q.mark] text ++ c :: rest) = some (String.ofList content, c :: rest) := by
  have hq : (⟨q.mark, false⟩ : Quotation) = q := hsingle ▸ rfl
  have hclosing : q.closing = [q.mark] := by rw [closing, hsingle]; rfl
  have hinput : oneLine [q.mark] text ++ c :: rest = q.mark :: (text ++ (q.closing ++ c :: rest)) := by
    rw [oneLine, hclosing, List.append_assoc, List.append_assoc]
    rfl
  have hrest : (c :: rest).head? ≠ some q.mark := fun h => hc (Option.some_inj.mp h)
  rw [hinput, quotedKey?, if_pos hmark, hq, h.body?_eq (Nat.zero_le 2) hrest]
  rfl

theorem not_isMark_of_isBareKeyChar {c : Char} (h : isBareKeyChar c = true) : isMark c = false := by
  rw [isMark, Bool.or_eq_false_iff, beq_eq_false_iff_ne, beq_eq_false_iff_ne]
  constructor <;> rintro rfl <;> cases h

theorem key?_bare {cs : List Char} (hne : cs ≠ []) (hbare : cs.all isBareKeyChar = true) {c : Char}
    (hc : isBareKeyChar c = false) (rest : List Char) :
    key? (cs ++ c :: rest) = some (String.ofList cs, c :: rest) := by
  have hall : ∀ d ∈ cs, isBareKeyChar d = true := List.all_eq_true.mp hbare
  have hquoted : quotedKey? (cs ++ c :: rest) = none := by
    cases cs with
    | nil => exact absurd rfl hne
    | cons d cs =>
      rw [List.cons_append, quotedKey?, not_isMark_of_isBareKeyChar (hall d List.mem_cons_self)]
      rfl
  have hkey : (cs ++ c :: rest).takeWhile isBareKeyChar = cs := by
    rw [List.takeWhile_append_of_pos hall, List.takeWhile_cons, hc]
    exact List.append_nil cs
  have hrest : (cs ++ c :: rest).dropWhile isBareKeyChar = c :: rest := by
    rw [List.dropWhile_append_of_pos hall, List.dropWhile_cons, hc]
    rfl
  rw [key?, hquoted]
  dsimp only
  rw [bareKey?, hkey, hrest, if_neg hne]

/-- A key is read back from before a blank. -/
theorem key?_key (name : String) (rest : List Char) :
    key? ((key name).toList ++ ' ' :: rest) = some (name, ' ' :: rest) := by
  obtain ⟨cs, rfl⟩ : ∃ cs, name = String.ofList cs := ⟨name.toList, String.ofList_toList.symm⟩
  have hquoted {input : List Char} (h : quotedKey? input = some (String.ofList cs, ' ' :: rest)) :
      key? input = some (String.ofList cs, ' ' :: rest) := by
    rw [key?, h]
  have hbasic : quotedKey? (oneLine basicMark (basicBody false 0 0 cs) ++ ' ' :: rest) =
      some (String.ofList cs, ' ' :: rest) :=
    quotedKey?_oneLine rfl rfl (writes_basicBody false 0 cs) (by decide) rest
  rw [key, String.toList_ofList, String.toList_ofList]
  split_ifs with hbare hplain hliteral
  · rw [Bool.and_eq_true, Bool.not_eq_true', List.isEmpty_eq_false_iff] at hbare
    exact key?_bare hbare.1 hbare.2 rfl rest
  · exact hquoted hbasic
  · simp only [Bool.and_eq_true, Bool.not_eq_true', beq_iff_eq, Bool.or_eq_false_iff] at hliteral
    obtain ⟨⟨hcontrol, hnone⟩, hmarks⟩ := hliteral
    have hwrites : Writes (literal false) 0 cs cs :=
      writes_literal hmarks.le hcontrol fun h => by
        cases (List.contains_iff_mem.mpr h).symm.trans hnone
    exact hquoted (quotedKey?_oneLine rfl rfl hwrites (by decide) rest)
  · exact hquoted hbasic

end MerkleDir.Toml
