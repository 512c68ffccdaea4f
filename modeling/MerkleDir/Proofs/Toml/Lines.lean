import Mathlib
import MerkleDir.Config.Render
import MerkleDir.Proofs.Toml.Numbers
import MerkleDir.Proofs.Toml.Strings

namespace MerkleDir.Toml

/-- A text that is read as a value at the end of a line. -/
def IsTerm (text : List Char) (term : Term) : Prop :=
  ∀ rest, term? depthLimit (skipBlanks (text ++ '\n' :: rest)) = some (term, '\n' :: rest)

theorem isMark_of_string? {c : Char} {input : List Char} {found : String × List Char}
    (h : string? (c :: input) = some found) : Quotation.isMark c = true := by
  by_contra hmark
  rw [Bool.not_eq_true] at hmark
  have hopen : Quotation.open? (c :: input) = none := by
    cases input with
    | nil => simp [Quotation.open?, hmark]
    | cons b rest => cases rest <;> simp [Quotation.open?, hmark]
  rw [string?, hopen] at h
  cases h

theorem skipBlanks_cons {c : Char} (hc : isBlank c = false) (input : List Char) :
    skipBlanks (c :: input) = c :: input := by
  rw [skipBlanks, List.dropWhile_cons, hc]
  rfl

theorem not_isBlank_of_isMark {c : Char} (h : Quotation.isMark c = true) : isBlank c = false := by
  rw [Quotation.isMark, Bool.or_eq_true, beq_iff_eq, beq_iff_eq] at h
  rcases h with rfl | rfl <;> rfl

theorem isTerm_string (text : String) : IsTerm (string text).toList (.string text) := by
  intro rest
  have hstring := string?_string text rest
  cases hinput : (string text).toList ++ '\n' :: rest with
  | nil => cases (List.append_eq_nil_iff.mp hinput).2
  | cons c input =>
    rw [hinput] at hstring
    have hc := isMark_of_string? hstring
    rw [skipBlanks_cons (not_isBlank_of_isMark hc), term?.eq_def]
    dsimp only
    rw [if_pos hc, hstring]
    rfl

theorem not_isScalarChar {c : Char} (h : isScalarChar c = true) :
    isBlank c = false ∧ Quotation.isMark c = false ∧ c ≠ '[' ∧ c ≠ '\x7b' := by
  refine ⟨?_, ?_, ?_, ?_⟩
  · rw [isBlank, Bool.or_eq_false_iff, beq_eq_false_iff_ne, beq_eq_false_iff_ne]
    constructor <;> rintro rfl <;> cases h
  · rw [Quotation.isMark, Bool.or_eq_false_iff, beq_eq_false_iff_ne, beq_eq_false_iff_ne]
    constructor <;> rintro rfl <;> cases h
  · rintro rfl
    cases h
  · rintro rfl
    cases h

theorem cutScalar_append {word : List Char} (hword : ∀ c ∈ word, isScalarChar c = true)
    (rest : List Char) : cutScalar (word ++ '\n' :: rest) = (word, '\n' :: rest) := by
  have htake : (word ++ '\n' :: rest).takeWhile isScalarChar = word := by
    rw [List.takeWhile_append_of_pos hword]
    exact List.append_nil word
  have hdrop : (word ++ '\n' :: rest).dropWhile isScalarChar = '\n' :: rest := by
    rw [List.dropWhile_append_of_pos hword]
    rfl
  rw [cutScalar, htake, hdrop]
  rfl

/-- A word that ends its line is read as what it stands for. -/
theorem isTerm_word {word : List Char} {term : Term} (hne : word ≠ [])
    (hword : ∀ c ∈ word, isScalarChar c = true) (hread : Scalar.read? word = some term) :
    IsTerm word term := by
  intro rest
  have hscalar : scalar? (word ++ '\n' :: rest) = some (term, '\n' :: rest) := by
    rw [scalar?, cutScalar_append hword]
    dsimp only
    rw [hread]
    rfl
  cases word with
  | nil => exact absurd rfl hne
  | cons c word =>
    obtain ⟨hblank, hmark, hbracket, hbrace⟩ := not_isScalarChar (hword c List.mem_cons_self)
    rw [List.cons_append] at hscalar ⊢
    rw [skipBlanks_cons hblank, term?.eq_def]
    dsimp only
    rw [if_neg (by rw [hmark]; exact Bool.false_ne_true), if_neg hbracket, if_neg hbrace, hscalar]

theorem isTerm_bool (b : Bool) : IsTerm (Config.renderBool b).toList (.bool b) := by
  have hfalse : IsTerm ['f', 'a', 'l', 's', 'e'] (.bool false) :=
    isTerm_word (List.cons_ne_nil _ _) (List.all_eq_true.mp rfl) rfl
  have htrue : IsTerm ['t', 'r', 'u', 'e'] (.bool true) :=
    isTerm_word (List.cons_ne_nil _ _) (List.all_eq_true.mp rfl) rfl
  cases b with
  | false => exact hfalse
  | true => exact htrue

theorem isTerm_nat {n : Nat} (hn : n < Decimal.signedBound) :
    IsTerm (toString n).toList (.integer n) := by
  rw [Nat.toString_eq_ofList_toDigits, String.toList_ofList]
  refine isTerm_word Nat.toDigits_ne_nil (fun c hc => ?_) (Scalar.read?_toDigits hn)
  have hdigit := Nat.isDigit_of_mem_toDigits (by decide) (by decide) hc
  simp [isScalarChar, Char.isAlphanum, hdigit]

def isStart (c : Char) : Bool := Quotation.isMark c || isBareKeyChar c || c == '['

theorem skipTrivia_of_isStart {c : Char} (hc : isStart c = true) (rest : List Char) :
    skipTrivia false (c :: rest) = some (c :: rest) := by
  have hne {d : Char} (hd : isStart d = false) : c ≠ d := by
    rintro rfl
    cases hd.symm.trans hc
  have hblank : isBlank c = false := by
    rw [isBlank, beq_false_of_ne (hne rfl), beq_false_of_ne (hne rfl)]
    rfl
  rw [skipTrivia, if_neg, if_neg fun h => hne rfl h.1, if_neg (hne rfl)]
  rw [hblank]
  exact fun h => h.elim Bool.false_ne_true (hne rfl)

theorem exists_cons_of_key? {input : List Char} {found : String × List Char}
    (h : key? input = some found) :
    ∃ c rest, input = c :: rest ∧ (Quotation.isMark c || isBareKeyChar c) = true := by
  cases input with
  | nil => cases h
  | cons c rest =>
    refine ⟨c, rest, rfl, ?_⟩
    by_contra hc
    rw [Bool.not_eq_true, Bool.or_eq_false_iff] at hc
    rw [key?, quotedKey?, if_neg (by rw [hc.1]; exact Bool.false_ne_true), bareKey?,
      List.takeWhile_cons, hc.2] at h
    cases h

structure IsLine (text : List Char) (statement : Statement) : Prop where
  start : ∃ c rest, text = c :: rest ∧ isStart c = true
  read? (rest : List Char) : Statement.read? (text ++ '\n' :: rest) = some (statement, '\n' :: rest)

def settingLine (key value : List Char) : List Char := key ++ ' ' :: '=' :: ' ' :: value

/-- The blanks around a single key do not count. -/
theorem keyPath?_of_key? {input rest : List Char} {name : String}
    (hkey : key? input = some (name, ' ' :: '=' :: rest)) :
    keyPath? depthLimit input = some ([name], '=' :: rest) := by
  obtain ⟨c, after, rfl, hc⟩ := exists_cons_of_key? hkey
  have hblank : isBlank c = false := by
    rw [isBlank, Bool.or_eq_false_iff, beq_eq_false_iff_ne, beq_eq_false_iff_ne]
    constructor <;> rintro rfl <;> cases hc
  rw [depthLimit, keyPath?, skipBlanks_cons hblank, hkey]
  rfl

theorem isLine_setting {text value : List Char} {name : String} {term : Term}
    (hkey : ∀ rest, key? (text ++ ' ' :: rest) = some (name, ' ' :: rest)) (hvalue : IsTerm value term) :
    IsLine (settingLine text value) (.assignment [name] term) where
  start := by
    obtain ⟨c, rest, hinput, hc⟩ := exists_cons_of_key? (hkey ('=' :: ' ' :: value))
    exact ⟨c, rest, hinput, by rw [isStart, hc]; rfl⟩
  read? rest := by
    have hinput : settingLine text value ++ '\n' :: rest =
        text ++ ' ' :: '=' :: ' ' :: (value ++ '\n' :: rest) := by
      simp [settingLine]
    have hfound := hkey ('=' :: ' ' :: (value ++ '\n' :: rest))
    have hskip : skipBlanks (' ' :: (value ++ '\n' :: rest)) = skipBlanks (value ++ '\n' :: rest) := rfl
    have hassignment : assignment? (term? depthLimit)
        (text ++ ' ' :: '=' :: ' ' :: (value ++ '\n' :: rest)) =
          some (([name], term), '\n' :: rest) := by
      rw [assignment?, keyPath?_of_key? hfound, Option.bind_some]
      show (term? depthLimit (skipBlanks (' ' :: (value ++ '\n' :: rest)))).map _ = _
      rw [hskip, hvalue]
      rfl
    obtain ⟨c, after, hc, hstart⟩ := exists_cons_of_key? hfound
    rw [hinput, Statement.read?.eq_def]
    split
    · rename_i heq
      rw [heq] at hc
      obtain ⟨rfl, -⟩ := List.cons.inj hc
      cases hstart
    · rename_i heq
      rw [heq] at hc
      obtain ⟨rfl, -⟩ := List.cons.inj hc
      cases hstart
    · rw [hassignment]
      rfl

/-- A text that is made of such lines and of blank ones. -/
inductive IsText : List Char → List Statement → Prop
  | nil : IsText [] []
  | blank {text : List Char} {statements : List Statement} (h : IsText text statements) :
      IsText ('\n' :: text) statements
  | line {first text : List Char} {statement : Statement} {statements : List Statement}
      (hfirst : IsLine first statement) (h : IsText text statements) :
      IsText (first ++ '\n' :: text) (statement :: statements)

namespace IsText

variable {text later : List Char} {statements others : List Statement}

theorem append (h : IsText text statements) (hlater : IsText later others) :
    IsText (text ++ later) (statements ++ others) := by
  induction h with
  | nil => exact hlater
  | blank _ ih => exact .blank ih
  | @line first text statement statements hfirst _ ih =>
    rw [List.append_assoc, List.cons_append, List.cons_append]
    exact .line hfirst ih

theorem single {first : List Char} {statement : Statement} (h : IsLine first statement) :
    IsText (first ++ ['\n']) [statement] :=
  .line h .nil

theorem length_le (h : IsText text statements) : statements.length ≤ text.length := by
  induction h with
  | nil => exact le_refl 0
  | blank _ ih => exact ih.trans (Nat.le_succ _)
  | @line first text statement statements hfirst _ ih =>
    rw [List.length_cons, List.length_append, List.length_cons]
    omega

/-- By induction on the lines: each leaves the line feed behind it, which is passed over next. -/
theorem statementsUpTo?_eq (h : IsText text statements) {limit : Nat} (hlimit : statements.length < limit) :
    statementsUpTo? limit text = some statements := by
  have hfeed (limit : Nat) (text : List Char) :
      statementsUpTo? limit ('\n' :: text) = statementsUpTo? limit text := by
    cases limit with
    | zero => rfl
    | succ limit => rfl
  induction h generalizing limit with
  | nil =>
    obtain ⟨limit, rfl⟩ := Nat.exists_eq_succ_of_ne_zero hlimit.ne'
    rfl
  | blank _ ih => rw [hfeed, ih hlimit]
  | @line first text statement statements hfirst _ ih =>
    cases limit with
    | zero => cases hlimit
    | succ limit =>
      obtain ⟨c, rest, rfl, hc⟩ := hfirst.start
      have hread := hfirst.read? text
      rw [List.cons_append] at hread ⊢
      rw [statementsUpTo?, skipTrivia_of_isStart hc]
      dsimp only
      rw [hread, Option.bind_some]
      have hends : endsLine ('\n' :: text) = true := rfl
      dsimp only
      rw [if_pos hends, hfeed, ih (Nat.lt_of_succ_lt_succ hlimit)]
      rfl

theorem dropByteOrderMark_eq (h : IsText text statements) : dropByteOrderMark text = text := by
  have hkeep {c : Char} {rest : List Char} (hc : c ≠ '\uFEFF') :
      dropByteOrderMark (c :: rest) = c :: rest := by
    rw [dropByteOrderMark.eq_def]
    split
    · rename_i heq
      exact absurd (List.cons.inj heq).1 hc
    · rfl
  cases h with
  | nil => rfl
  | blank => exact hkeep (by decide)
  | line hfirst =>
    obtain ⟨c, rest, rfl, hc⟩ := hfirst.start
    refine hkeep ?_
    rintro rfl
    cases hc

theorem statements?_eq {text : String} (h : IsText text.toList statements) :
    statements? text = some statements := by
  rw [statements?, h.dropByteOrderMark_eq]
  exact h.statementsUpTo?_eq (Nat.lt_succ_of_le h.length_le)

end IsText

end MerkleDir.Toml
