import Mathlib
import MerkleDir.Proofs.Nfc.Decomposition
import MerkleDir.Proofs.Nfc.Order

/-!
# Composition

What has been composed is decomposed again to what it was composed of, up to the order of marks of
different classes. A starter that is never the second of a pair parts a text in two.
-/
namespace MerkleDir.Nfc

open CombiningClass (ofCodePoint)

section Composed

variable {starter : Nat} {marks rest : List Nat}

theorem flatMap_decomposeCode_of_whole {text : List Nat} (h : ∀ e ∈ text, decomposeOnce e = [e]) :
    text.flatMap decomposeCode = text := by
  rw [List.flatMap_congr fun e he => decomposeCode_of_decomposeOnce (h e he),
    List.flatMap_singleton']

theorem lt_of_not_isBlocked (hrun : IsRun marks) {c : Nat} (h : isBlocked marks c = false) :
    ∀ e ∈ marks, ofCodePoint e < ofCodePoint c := by
  cases marks with
  | nil => exact nofun
  | cons last before =>
    have hlast : ofCodePoint last < ofCodePoint c := by simpa [isBlocked] using h
    obtain ⟨hbefore, -⟩ := List.pairwise_cons.mp hrun.descending
    exact List.forall_mem_cons.mpr ⟨hlast, fun e he => (hbefore e he).trans_lt hlast⟩

theorem IsRun.cons (hrun : IsRun marks) {c : Nat} (hc : ofCodePoint c ≠ 0)
    (hle : ∀ e ∈ marks, ofCodePoint e ≤ ofCodePoint c) : IsRun (c :: marks) :=
  ⟨List.forall_mem_cons.mpr ⟨hc, hrun.marks⟩, List.pairwise_cons.mpr ⟨hle, hrun.descending⟩⟩

/-- A character is composed with the starter, begins anew, or is put aside as a mark. -/
theorem composeAfter_cons_cases (starter : Nat) (marks : List Nat) (c : Nat) (rest : List Nat) :
    (isBlocked marks c = false ∧ ∃ composed, composePair? starter c = some composed ∧
        composeAfter starter marks (c :: rest) = composeAfter composed marks rest) ∨
      (ofCodePoint c = 0 ∧ composeAfter starter marks (c :: rest) =
        starter :: marks.reverse ++ composeAfter c [] rest) ∨
      (ofCodePoint c ≠ 0 ∧
        composeAfter starter marks (c :: rest) = composeAfter starter (c :: marks) rest) := by
  rw [composeAfter]
  split
  · rename_i composed hcomposed
    split_ifs at hcomposed with hblocked
    exact Or.inl ⟨Bool.eq_false_of_not_eq_true hblocked, composed, hcomposed, rfl⟩
  · split_ifs with hc
    · exact Or.inr (Or.inl ⟨hc, rfl⟩)
    · exact Or.inr (Or.inr ⟨hc, rfl⟩)

theorem agree_composeAfter (hmarks : ∀ e ∈ marks, decomposeOnce e = [e])
    (hrest : ∀ e ∈ rest, decomposeOnce e = [e]) (hrun : IsRun marks) (hordered : IsOrdered rest)
    (hnext : ∀ c ∈ rest.head?, ofCodePoint c ≠ 0 → ∀ e ∈ marks, ofCodePoint e ≤ ofCodePoint c) :
    Agree ((composeAfter starter marks rest).flatMap decomposeCode)
      (decomposeCode starter ++ marks.reverse ++ rest) := by
  have hreverse : marks.reverse.flatMap decomposeCode = marks.reverse :=
    flatMap_decomposeCode_of_whole fun e he => hmarks e (List.mem_reverse.mp he)
  induction rest generalizing starter marks with
  | nil =>
    rw [composeAfter, List.flatMap_cons, hreverse, List.append_nil]
    exact .refl _
  | cons c rest ih =>
    obtain ⟨hc, hrest⟩ := List.forall_mem_cons.mp hrest
    obtain ⟨hhead, htail⟩ := List.isChain_cons.mp hordered
    have hle (hclass : ofCodePoint c ≠ 0) : ∀ e ∈ marks, ofCodePoint e ≤ ofCodePoint c :=
      hnext c rfl hclass
    have hfurther {e : Nat} (he : ofCodePoint e ≤ ofCodePoint c) {next : Nat}
        (hmem : next ∈ rest.head?) (hclass : ofCodePoint next ≠ 0) :
        ofCodePoint e ≤ ofCodePoint next :=
      he.trans ((hhead next hmem).resolve_left hclass)
    rcases composeAfter_cons_cases starter marks c rest with
      ⟨hblocked, composed, hcomposed, heq⟩ | ⟨hclass, heq⟩ | ⟨hclass, heq⟩
    · have hlt := lt_of_not_isBlocked hrun hblocked
      have hswap : Agree (c :: marks.reverse) (marks.reverse ++ [c]) := by
        rcases eq_or_ne marks [] with rfl | hne
        · exact .refl [c]
        · obtain ⟨last, before, rfl⟩ := List.exists_cons_of_ne_nil hne
          have hc := Nat.ne_of_gt ((Nat.zero_le _).trans_lt (hlt last List.mem_cons_self))
          refine .swap hc fun e he => ?_
          have hmem := List.mem_reverse.mp he
          exact ⟨hrun.marks e hmem, (hlt e hmem).ne⟩
      have hcomposition := @ih composed marks hmarks hrest hrun htail
        (fun next hmem hnext e he => hfurther (hlt e he).le hmem hnext) hreverse
      rw [heq]
      refine hcomposition.trans ?_
      have hmoved := ((Agree.refl (decomposeCode starter)).append hswap).append (.refl rest)
      simpa [decomposeCode_of_composePair? hcomposed] using hmoved
    · have hcomposition := @ih c [] nofun hrest isRun_nil htail (fun _ _ _ => nofun) rfl
      rw [decomposeCode_of_decomposeOnce hc] at hcomposition
      rw [heq, List.cons_append, List.flatMap_cons, List.flatMap_append, hreverse,
        ← List.append_assoc]
      exact (Agree.refl _).append hcomposition
    · have hle := hnext c rfl hclass
      have hcomposition := @ih starter (c :: marks) (List.forall_mem_cons.mpr ⟨hc, hmarks⟩) hrest
        (hrun.cons hclass hle) htail (fun next hmem hnext => List.forall_mem_cons.mpr
          ⟨hfurther le_rfl hmem hnext, fun e he => hfurther (hle e he) hmem hnext⟩)
        (flatMap_decomposeCode_of_whole (by simpa [or_imp, forall_and, hc] using hmarks))
      rw [heq]
      simpa using hcomposition

theorem agree_compose {text : List Nat} (hwhole : ∀ e ∈ text, decomposeOnce e = [e])
    (hordered : IsOrdered text) : Agree ((compose text).flatMap decomposeCode) text := by
  induction text with
  | nil => exact .refl []
  | cons c rest ih =>
    obtain ⟨hc, hrest⟩ := List.forall_mem_cons.mp hwhole
    rw [compose]
    split_ifs with hclass
    · have hcomposition := @agree_composeAfter c [] rest nofun hrest isRun_nil hordered.of_cons
        fun _ _ _ => nofun
      rwa [decomposeCode_of_decomposeOnce hc] at hcomposition
    · rw [List.flatMap_cons, decomposeCode_of_decomposeOnce hc]
      exact (Agree.refl [c]).append (ih hrest hordered.of_cons)

end Composed

section Cut

variable {c : Nat} (hc : ofCodePoint c = 0) (hsecond : ∀ starter, composePair? starter c = none)

include hc hsecond

theorem composeAfter_append (starter : Nat) (marks before rest : List Nat) :
    composeAfter starter marks (before ++ c :: rest) =
      composeAfter starter marks before ++ composeAfter c [] rest := by
  induction before generalizing starter marks with
  | nil =>
    rw [List.nil_append]
    rcases composeAfter_cons_cases starter marks c rest with
      ⟨-, composed, hcomposed, -⟩ | ⟨-, heq⟩ | ⟨hclass, -⟩
    · rw [hsecond] at hcomposed
      cases hcomposed
    · exact heq
    · exact absurd hc hclass
  | cons b before ih =>
    rw [List.cons_append, composeAfter, composeAfter]
    split
    · exact ih _ _
    · split_ifs
      · rw [ih, List.cons_append, List.append_assoc, List.cons_append]
      · exact ih _ _

theorem compose_append (before rest : List Nat) :
    compose (before ++ c :: rest) = compose before ++ compose (c :: rest) := by
  have hstart : compose (c :: rest) = composeAfter c [] rest := by rw [compose, if_pos hc]
  induction before with
  | nil => rfl
  | cons b before ih =>
    rw [List.cons_append, compose, compose]
    split_ifs
    · rw [composeAfter_append hc hsecond, hstart]
    · rw [ih, List.cons_append]

end Cut

theorem ofCodePoint_of_lt {c : Nat} (h : c < 0x300) : ofCodePoint c = 0 := by
  rw [ofCodePoint, if_pos h]

theorem composePair?_of_lt {c : Nat} (h : c < 0x300) (starter : Nat) :
    composePair? starter c = none := by
  cases hcomposed : composePair? starter c with
  | none => rfl
  | some composed => exact absurd (le_of_composePair? hcomposed) h.not_ge

theorem low_cases {c : Nat} (h : c < 0x300) : decomposeOnce c = [c] ∨
    ∃ d ∈ composites, d.code = c ∧ ∃ first second, d.parts = [first, second] ∧ first < 0x300 := by
  rcases decomposeOnce_cases c with ⟨hsyllable, -⟩ | ⟨d, hd, rfl, -⟩ | honce
  · have hrange := Hangul.isSyllable_iff.mp hsyllable
    omega
  · rcases List.mem_append.mp hd with hd | hd
    · have hpair := check_table.2.2.2.2.1 d hd
      rw [Decomposition.isPair] at hpair
      split at hpair
      · rename_i first second hparts
        exact Or.inr ⟨d, hd, rfl, first, second, hparts, (isPair_of_mem hd hparts).2.2 h⟩
      · cases hpair
    · exact absurd (check_table.2.2.2.2.2.1 d hd) h.not_ge
  · exact Or.inl honce

/-- A character below U+0300 is whole, or a pair whose first is below U+0300. -/
@[elab_as_elim]
theorem low_induction {motive : ∀ c : Nat, c < 0x300 → Prop}
    (whole : ∀ c hc, decomposeOnce c = [c] → motive c hc)
    (pair : ∀ d ∈ composites, ∀ hd first second hfirst, d.parts = [first, second] →
      motive first hfirst → motive d.code hd) (c : Nat) (h : c < 0x300) : motive c h := by
  induction hlength : (decomposeCode c).length using Nat.strong_induction_on generalizing c with
  | h n ih =>
    rcases low_cases h with honce | ⟨d, hd, rfl, first, second, hparts, hfirst⟩
    · exact whole c h honce
    · refine pair d hd h first second hfirst hparts (ih _ ?_ first hfirst rfl)
      rw [← hlength, decomposeCode_of_composePair? (composePair?_of_mem hd hparts hfirst),
        List.length_append]
      exact Nat.lt_succ_self _

theorem exists_decomposeCode_low {c : Nat} (h : c < 0x300) :
    ∃ first rest, decomposeCode c = first :: rest ∧ first < 0x300 := by
  induction c, h using low_induction with
  | whole c hc honce => exact ⟨c, [], decomposeCode_of_decomposeOnce honce, hc⟩
  | pair d hd _ first second hfirst hparts ih =>
    obtain ⟨head, rest, hcode, hhead⟩ := ih
    rw [decomposeCode_of_composePair? (composePair?_of_mem hd hparts hfirst), hcode]
    exact ⟨head, rest ++ [second], rfl, hhead⟩

theorem compose_decomposeCode_append {c : Nat} (h : c < 0x300) (rest : List Nat) :
    compose (decomposeCode c ++ rest) = composeAfter c [] rest := by
  induction c, h using low_induction generalizing rest with
  | whole c hc honce =>
    rw [decomposeCode_of_decomposeOnce honce, List.singleton_append, compose,
      if_pos (ofCodePoint_of_lt hc)]
  | pair d hd _ first second hfirst hparts ih =>
    have hcomposed := composePair?_of_mem hd hparts hfirst
    rw [decomposeCode_of_composePair? hcomposed, List.append_assoc, ih, List.singleton_append,
      composeAfter]
    simp only [isBlocked, hcomposed, if_neg Bool.false_ne_true]

theorem le_of_stacked {d e : Decomposition} (hd : d ∈ composites) (he : e ∈ composites)
    (hlow : d.code < 0x300) (helow : e.code < 0x300) {second first below : Nat}
    (hparts : d.parts = [e.code, second]) (heparts : e.parts = [first, below]) :
    ofCodePoint below ≤ ofCodePoint second := by
  have hmem {d : Decomposition} (hd : d ∈ composites) (hlow : d.code < 0x300) :
      d ∈ low composites := List.mem_filter.mpr ⟨hd, decide_eq_true hlow⟩
  have hnested : d ∈ nested (low composites) := mem_nested.mpr ⟨hmem hd hlow, e.code,
    hparts ▸ List.mem_cons_self, List.mem_map.mpr ⟨e, hmem he helow, rfl⟩⟩
  have hstacked := check_table.2.2.2.2.2.2 d hnested e (hmem he helow)
  simp only [Decomposition.isStackedOn, hparts, heparts, bne_self_eq_false, Bool.false_or,
    List.contains_iff_mem] at hstacked
  exact stackedMarks_ordered _ hstacked

theorem isOrdered_decomposeCode_low {c : Nat} (h : c < 0x300) : IsOrdered (decomposeCode c) := by
  induction c, h using low_induction with
  | whole c hc honce =>
    rw [decomposeCode_of_decomposeOnce honce]
    exact List.isChain_singleton c
  | pair d hd hlow first second hfirst hparts ih =>
    rw [decomposeCode_of_composePair? (composePair?_of_mem hd hparts hfirst)]
    refine List.isChain_append.mpr ⟨ih, List.isChain_singleton second, ?_⟩
    rintro last hlast _ ⟨rfl⟩
    rcases low_cases hfirst with honce | ⟨e, he, rfl, inner, below, heparts, hinner⟩
    · rw [decomposeCode_of_decomposeOnce honce] at hlast
      obtain rfl := Option.some.inj hlast
      exact Or.inr (ofCodePoint_of_lt hfirst ▸ Nat.zero_le _)
    · rw [decomposeCode_of_composePair? (composePair?_of_mem he heparts hinner),
        List.getLast?_concat] at hlast
      obtain rfl := Option.some.inj hlast
      exact Or.inr (le_of_stacked hd he hlow hfirst hparts heparts)

end MerkleDir.Nfc
