import Mathlib
import MerkleDir.Proofs.Nfc.Composition

namespace MerkleDir.Nfc

open CombiningClass (ofCodePoint)

def normalForm (codes : List Nat) : List Nat :=
  compose (orderMarks [] (codes.flatMap decomposeCode))

section Codes

variable {codes : List Nat}

theorem whole_of_mem_orderMarks {e : Nat}
    (h : e ∈ orderMarks [] (codes.flatMap decomposeCode)) : decomposeOnce e = [e] := by
  obtain ⟨c, -, he⟩ := List.mem_flatMap.mp ((orderMarks_nil_agree _).mem_iff.mp h)
  exact decomposeOnce_of_mem_decomposeCode he

theorem agree_normalForm (codes : List Nat) :
    Agree ((normalForm codes).flatMap decomposeCode) (codes.flatMap decomposeCode) :=
  (agree_compose (fun _ => whole_of_mem_orderMarks) (isOrdered_orderMarks isRun_nil _)).trans
    (orderMarks_nil_agree _)

theorem normalForm_normalForm (codes : List Nat) :
    normalForm (normalForm codes) = normalForm codes :=
  congrArg compose (orderMarks_eq_of_agree (agree_normalForm codes))

theorem normalForm_append_low {c : Nat} (h : c < 0x300) (before rest : List Nat) :
    normalForm (before ++ c :: rest) = normalForm before ++ normalForm (c :: rest) := by
  obtain ⟨first, others, hcode, hfirst⟩ := exists_decomposeCode_low h
  have hclass := ofCodePoint_of_lt hfirst
  have hhead : (c :: rest).flatMap decomposeCode =
      first :: (others ++ rest.flatMap decomposeCode) := by
    rw [List.flatMap_cons, hcode, List.cons_append]
  have hstart {text : List Nat} : orderMarks [] (first :: text) = first :: orderMarks [] text := by
    rw [orderMarks, if_pos hclass, List.reverse_nil, List.nil_append]
  rw [normalForm, normalForm, normalForm, List.flatMap_append, hhead,
    orderMarks_append_starter hclass, hstart,
    compose_append hclass (composePair?_of_lt hfirst)]

theorem normalForm_singleton_low {c : Nat} (h : c < 0x300) : normalForm [c] = [c] := by
  rw [normalForm, List.flatMap_singleton, orderMarks_of_isOrdered (isOrdered_decomposeCode_low h),
    ← List.append_nil (decomposeCode c), compose_decomposeCode_append h, composeAfter,
    List.reverse_nil]

theorem normalForm_low (h : ∀ c ∈ codes, c < 0x300) : normalForm codes = codes := by
  induction codes using List.reverseRecOn with
  | nil => rfl
  | append_singleton before c ih =>
    obtain ⟨hbefore, hc⟩ := List.forall_mem_append.mp h
    have hc := hc c (List.mem_singleton_self c)
    rw [normalForm_append_low hc, ih hbefore, normalForm_singleton_low hc]

theorem mem_normalForm_iff {m : Nat} (hm : m ∈ pathMarks) : m ∈ normalForm codes ↔ m ∈ codes := by
  have hmem {text : List Nat} : m ∈ text.flatMap decomposeCode ↔ m ∈ text := by
    rw [List.mem_flatMap]
    constructor
    · rintro ⟨c, hc, h⟩
      rwa [(pathMark_mem_decomposeCode_iff hm).mp h]
    · exact fun h => ⟨m, h, (pathMark_mem_decomposeCode_iff hm).mpr rfl⟩
  rw [← hmem, (agree_normalForm codes).mem_iff, hmem]

end Codes

section PathMarks

variable {codes : List Nat} {m : Nat}

theorem lt_of_mem_pathMarks (hm : m ∈ pathMarks) : m < 0x80 := by
  have hall : ∀ m ∈ pathMarks, m < 0x80 := by decide
  exact hall m hm

theorem ofCodePoint_pathMark (hm : m ∈ pathMarks) : ofCodePoint m = 0 :=
  ofCodePoint_of_lt ((lt_of_mem_pathMarks hm).trans (by decide))

theorem decomposeCode_pathMark (hm : m ∈ pathMarks) : decomposeCode m = [m] :=
  decomposeCode_of_decomposeOnce
    (decomposeOnce_of_lt ((lt_of_mem_pathMarks hm).trans (by decide)))

theorem composePair?_pathMark (hm : m ∈ pathMarks) (second : Nat) :
    composePair? m second = none := by
  have hlow := lt_of_mem_pathMarks hm
  cases hcomposed : composePair? m second with
  | none => rfl
  | some c =>
    rcases composePair?_cases hcomposed with hsyllable | ⟨d, hd, -, hparts⟩
    · rcases Hangul.compose?_cases hsyllable with h | ⟨h, -⟩
      · omega
      · have hrange := Hangul.isSyllable_iff.mp h
        omega
    · have hentry := check_table.2.2.2.1 d (List.mem_append_left _ hd)
      obtain ⟨-, -, -, -, -, hmarks⟩ := Decomposition.isEntry_iff.mp hentry
      exact absurd hm (hmarks m (hparts ▸ List.mem_cons_self)).2

theorem composeAfter_of_none (h : ∀ second, composePair? m second = none) (marks rest : List Nat) :
    composeAfter m marks rest = m :: marks.reverse ++ compose rest := by
  induction rest generalizing marks with
  | nil => rw [composeAfter, compose, List.append_nil]
  | cons c rest ih =>
    rw [compose]
    rcases composeAfter_cons_cases m marks c rest with
      ⟨-, composed, hcomposed, -⟩ | ⟨hclass, heq⟩ | ⟨hclass, heq⟩
    · rw [h] at hcomposed
      cases hcomposed
    · rw [heq, if_pos hclass]
    · rw [heq, if_neg hclass, ih, List.reverse_cons, List.cons_append, List.append_assoc]
      rfl

theorem normalForm_cons_pathMark (hm : m ∈ pathMarks) (rest : List Nat) :
    normalForm (m :: rest) = m :: normalForm rest := by
  have hclass := ofCodePoint_pathMark hm
  rw [normalForm, normalForm, List.flatMap_cons, decomposeCode_pathMark hm, List.singleton_append,
    orderMarks, if_pos hclass, List.reverse_nil, List.nil_append, compose, if_pos hclass,
    composeAfter_of_none (composePair?_pathMark hm)]
  rfl

theorem normalForm_append_pathMark (hm : m ∈ pathMarks) (before rest : List Nat) :
    normalForm (before ++ m :: rest) = normalForm before ++ m :: normalForm rest := by
  rw [normalForm_append_low ((lt_of_mem_pathMarks hm).trans (by decide)),
    normalForm_cons_pathMark hm]

theorem normalForm_append_pathMarks {marks : List Nat} (h : ∀ m ∈ marks, m ∈ pathMarks) :
    normalForm (codes ++ marks) = normalForm codes ++ marks := by
  cases marks with
  | nil => rw [List.append_nil, List.append_nil]
  | cons m marks =>
    obtain ⟨hm, hmarks⟩ := List.forall_mem_cons.mp h
    rw [normalForm_append_pathMark hm, normalForm_low fun c hc =>
      (lt_of_mem_pathMarks (hmarks c hc)).trans (by decide)]

/-- Nothing else is normalized to dots and separators. -/
theorem normalForm_of_pathMarks (h : ∀ m ∈ normalForm codes, m ∈ pathMarks) :
    normalForm codes = codes := by
  have hmarks : ∀ e ∈ codes.flatMap decomposeCode, e ∈ pathMarks := by
    intro e he
    obtain ⟨m, hm, he⟩ := List.mem_flatMap.mp ((agree_normalForm codes).mem_iff.mpr he)
    rw [decomposeCode_pathMark (h m hm), List.mem_singleton] at he
    exact he ▸ h m hm
  refine normalForm_low fun c hc => ?_
  obtain ⟨e, rest, hcode⟩ := List.exists_cons_of_ne_nil (decomposeCode_ne_nil c)
  have hmem : e ∈ decomposeCode c := hcode ▸ List.mem_cons_self
  have he := hmarks e (List.mem_flatMap.mpr ⟨c, hc, hmem⟩)
  rw [← (pathMark_mem_decomposeCode_iff he).mp hmem]
  exact (lt_of_mem_pathMarks he).trans (by decide)

theorem normalForm_ends_iff (hm : m ∈ pathMarks) :
    (∃ before, normalForm codes = before ++ [m]) ↔ ∃ before, codes = before ++ [m] := by
  constructor
  · rintro ⟨before, hbefore⟩
    have hagree := (agree_normalForm codes).symm
    rw [hbefore, List.flatMap_append, List.flatMap_singleton, decomposeCode_pathMark hm] at hagree
    obtain ⟨parts, hparts⟩ := hagree.exists_of_concat_starter (ofCodePoint_pathMark hm)
    rcases List.eq_nil_or_concat' codes with rfl | ⟨initial, c, rfl⟩
    · cases List.append_ne_nil_of_right_ne_nil _ (List.cons_ne_nil m _) hparts.symm
    · rw [List.flatMap_append, List.flatMap_singleton] at hparts
      obtain ⟨start, last, hcode⟩ :=
        (List.eq_nil_or_concat' (decomposeCode c)).resolve_left (decomposeCode_ne_nil c)
      rw [hcode, ← List.append_assoc] at hparts
      obtain ⟨-, hlast⟩ := List.append_inj' hparts rfl
      obtain rfl := (List.cons.inj hlast).1
      have hmem : last ∈ decomposeCode c := by simp [hcode]
      exact ⟨initial, by rw [(pathMark_mem_decomposeCode_iff hm).mp hmem]⟩
  · rintro ⟨before, rfl⟩
    exact ⟨normalForm before, normalForm_append_pathMark hm before []⟩

end PathMarks

theorem isValidChar_of_mem_composeAfter {starter : Nat} {marks rest : List Nat}
    (hstarter : starter.isValidChar) (hmarks : ∀ e ∈ marks, e.isValidChar)
    (hrest : ∀ e ∈ rest, e.isValidChar) :
    ∀ e ∈ composeAfter starter marks rest, e.isValidChar := by
  have hreverse : ∀ e ∈ marks.reverse, e.isValidChar :=
    fun e he => hmarks e (List.mem_reverse.mp he)
  induction rest generalizing starter marks with
  | nil => exact List.forall_mem_cons.mpr ⟨hstarter, hreverse⟩
  | cons c rest ih =>
    obtain ⟨hc, hrest⟩ := List.forall_mem_cons.mp hrest
    rcases composeAfter_cons_cases starter marks c rest with
      ⟨-, composed, hcomposed, heq⟩ | ⟨-, heq⟩ | ⟨-, heq⟩ <;> rw [heq]
    · exact ih (isValidChar_of_composePair? hcomposed) hmarks hrest hreverse
    · exact List.forall_mem_append.mpr
        ⟨List.forall_mem_cons.mpr ⟨hstarter, hreverse⟩, ih hc nofun hrest nofun⟩
    · have hcons := List.forall_mem_cons.mpr ⟨hc, hmarks⟩
      exact ih hstarter hcons hrest fun e he => hcons e (List.mem_reverse.mp he)

theorem isValidChar_of_mem_normalForm {codes : List Nat} (h : ∀ c ∈ codes, c.isValidChar) :
    ∀ e ∈ normalForm codes, e.isValidChar := by
  have hordered : ∀ e ∈ orderMarks [] (codes.flatMap decomposeCode), e.isValidChar := by
    intro e he
    obtain ⟨c, hc, he⟩ := List.mem_flatMap.mp ((orderMarks_nil_agree _).mem_iff.mp he)
    exact isValidChar_of_mem_decomposeCode (h c hc) he
  rw [normalForm]
  generalize orderMarks [] (codes.flatMap decomposeCode) = text at hordered
  induction text with
  | nil => exact List.forall_mem_nil _
  | cons c rest ih =>
    obtain ⟨hc, hrest⟩ := List.forall_mem_cons.mp hordered
    rw [compose]
    split_ifs
    · exact isValidChar_of_mem_composeAfter hc (List.forall_mem_nil _) hrest
    · exact List.forall_mem_cons.mpr ⟨hc, ih hrest⟩

def codePoints (text : String) : List Nat := text.toList.map Char.toNat

theorem codePoints_injective : Function.Injective codePoints := by
  intro s t h
  have hchars : s.toList = t.toList :=
    List.map_injective_iff.mpr (fun c d hcd => Char.toNat_inj.mp hcd) h
  exact String.toList_injective hchars

theorem codePoints_ofList (chars : List Char) :
    codePoints (String.ofList chars) = chars.map Char.toNat := by
  rw [codePoints, String.toList_ofList]

theorem isValidChar_of_mem_codePoints {text : String} {c : Nat} (h : c ∈ codePoints text) :
    c.isValidChar := by
  obtain ⟨d, -, rfl⟩ := List.mem_map.mp h
  exact d.valid

/-- Text is normalized by its code points, below U+0300 as elsewhere. -/
theorem codePoints_normalize (text : String) :
    codePoints (normalize text) = normalForm (codePoints text) := by
  rw [normalize]
  split_ifs with hlow
  · refine (normalForm_low fun c hc => ?_).symm
    obtain ⟨d, hd, rfl⟩ := List.mem_map.mp hc
    exact of_decide_eq_true (List.all_eq_true.mp hlow d hd)
  · have hvalid := isValidChar_of_mem_normalForm fun c hc =>
      @isValidChar_of_mem_codePoints text c hc
    have htoNat : ∀ e ∈ normalForm (codePoints text), (Char.toNat ∘ Char.ofNat) e = e :=
      fun e he => (Char.toNat_ofNat e).trans (if_pos (hvalid e he))
    have hflat : text.toList.flatMap (fun c => decomposeCode c.toNat) =
        (codePoints text).flatMap decomposeCode := (List.flatMap_map ..).symm
    rw [codePoints_ofList, hflat, List.map_map]
    exact (List.map_congr_left htoNat).trans (List.map_id' _)

theorem normalize_normalize (text : String) : normalize (normalize text) = normalize text := by
  apply codePoints_injective
  rw [codePoints_normalize, codePoints_normalize, normalForm_normalForm]

theorem codePoints_append (s t : String) : codePoints (s ++ t) = codePoints s ++ codePoints t := by
  rw [codePoints, String.toList_append, List.map_append, codePoints, codePoints]

theorem normalize_append_pathMarks {text marks : String}
    (h : ∀ m ∈ codePoints marks, m ∈ pathMarks) :
    normalize (text ++ marks) = normalize text ++ marks := by
  apply codePoints_injective
  rw [codePoints_normalize, codePoints_append, normalForm_append_pathMarks h, codePoints_append,
    codePoints_normalize]

theorem normalize_eq_pathMarks_iff {text marks : String}
    (h : ∀ m ∈ codePoints marks, m ∈ pathMarks) : normalize text = marks ↔ text = marks := by
  constructor
  · rintro rfl
    rw [codePoints_normalize] at h
    apply codePoints_injective
    rw [codePoints_normalize, normalForm_of_pathMarks h]
  · rintro rfl
    have hempty : normalize "" = "" := rfl
    rw [← String.empty_append (s := text), normalize_append_pathMarks h, hempty]

theorem getLast?_normalize_iff {text : String} {c : Char} (hc : c.toNat ∈ pathMarks) :
    (normalize text).toList.getLast? = some c ↔ text.toList.getLast? = some c := by
  have hcodes (text : String) :
      text.toList.getLast? = some c ↔ ∃ before, codePoints text = before ++ [c.toNat] := by
    rw [← List.getLast?_eq_some_iff, codePoints, List.getLast?_map, Option.map_eq_some_iff]
    exact ⟨fun h => ⟨c, h, rfl⟩, fun ⟨d, hd, h⟩ => Char.toNat_inj.mp h ▸ hd⟩
  rw [hcodes, hcodes, codePoints_normalize, normalForm_ends_iff hc]

end MerkleDir.Nfc
