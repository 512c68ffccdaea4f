import Mathlib
import MerkleDir.Text.Nfc

/-!
# Canonical order

Marks of different classes may change places, marks of one class and starters may not. What cannot
be told apart by that has one canonical order.
-/
namespace MerkleDir.Nfc

open CombiningClass (ofCodePoint)

/-- The starters of a text and its marks of class `k`. -/
def ofClass (k : Nat) (text : List Nat) : List Nat :=
  text.filter fun c => ofCodePoint c = 0 ∨ ofCodePoint c = k

theorem ofClass_append (k : Nat) (x y : List Nat) :
    ofClass k (x ++ y) = ofClass k x ++ ofClass k y :=
  List.filter_append x y

theorem ofClass_cons_of_pos {k c : Nat} (h : ofCodePoint c = 0 ∨ ofCodePoint c = k)
    (text : List Nat) : ofClass k (c :: text) = c :: ofClass k text :=
  List.filter_cons_of_pos (decide_eq_true h)

theorem ofClass_cons_of_neg {k c : Nat} (hstarter : ofCodePoint c ≠ 0) (hclass : ofCodePoint c ≠ k)
    (text : List Nat) : ofClass k (c :: text) = ofClass k text :=
  List.filter_cons_of_neg (by simp [hstarter, hclass])

/-- Texts that differ at most in the order of marks of different classes. -/
def Agree (x y : List Nat) : Prop := ∀ k, ofClass k x = ofClass k y

namespace Agree

variable {x y z : List Nat}

theorem refl (x : List Nat) : Agree x x := fun _ => rfl

theorem symm (h : Agree x y) : Agree y x := fun k => (h k).symm

theorem trans (hxy : Agree x y) (hyz : Agree y z) : Agree x z := fun k => (hxy k).trans (hyz k)

theorem append {x' y' : List Nat} (h : Agree x y) (h' : Agree x' y') :
    Agree (x ++ x') (y ++ y') := by
  intro k
  rw [ofClass_append, ofClass_append, h, h']

theorem mem_iff (h : Agree x y) {c : Nat} : c ∈ x ↔ c ∈ y := by
  have hmem {text : List Nat} : c ∈ ofClass (ofCodePoint c) text ↔ c ∈ text := by
    simp [ofClass]
  rw [← hmem, h, hmem]

theorem swap {c : Nat} (hc : ofCodePoint c ≠ 0)
    (h : ∀ e ∈ x, ofCodePoint e ≠ 0 ∧ ofCodePoint e ≠ ofCodePoint c) :
    Agree (c :: x) (x ++ [c]) := by
  intro k
  rw [ofClass_append]
  rcases eq_or_ne (ofCodePoint c) k with rfl | hk
  · have hnil : ofClass (ofCodePoint c) x = [] := by
      refine List.filter_eq_nil_iff.mpr fun e he => ?_
      simpa using h e he
    rw [ofClass_cons_of_pos (Or.inr rfl), ofClass_cons_of_pos (Or.inr rfl), hnil]
    rfl
  · rw [ofClass_cons_of_neg hc hk, ofClass_cons_of_neg hc hk]
    exact (List.append_nil _).symm

theorem eq_of_starters (h : Agree x y) (hy : ∀ c ∈ y, ofCodePoint c = 0) : x = y := by
  have hx : ∀ c ∈ x, ofCodePoint c = 0 := fun c hc => hy c (h.mem_iff.mp hc)
  have hall {text : List Nat} (htext : ∀ c ∈ text, ofCodePoint c = 0) : ofClass 0 text = text :=
    List.filter_eq_self.mpr fun c hc => by simp [htext c hc]
  rw [← hall hx, h, hall hy]

theorem exists_of_concat_starter {c : Nat} (hc : ofCodePoint c = 0) (h : Agree x (y ++ [c])) :
    ∃ before, x = before ++ [c] := by
  rcases List.eq_nil_or_concat' x with rfl | ⟨before, last, rfl⟩
  · have hlast := h 0
    rw [ofClass_append, ofClass_cons_of_pos (Or.inl hc)] at hlast
    cases List.append_ne_nil_of_right_ne_nil _ (List.cons_ne_nil c _) hlast.symm
  · have hlast := h (ofCodePoint last)
    rw [ofClass_append, ofClass_append, ofClass_cons_of_pos (Or.inr rfl),
      ofClass_cons_of_pos (Or.inl hc)] at hlast
    obtain ⟨-, hend⟩ := List.append_inj' hlast rfl
    obtain rfl := (List.cons.inj hend).1
    exact ⟨before, rfl⟩

end Agree

def IsOrdered (text : List Nat) : Prop :=
  text.IsChain fun a b => ofCodePoint b = 0 ∨ ofCodePoint a ≤ ofCodePoint b

theorem IsOrdered.of_cons {c : Nat} {text : List Nat} (h : IsOrdered (c :: text)) :
    IsOrdered text :=
  List.IsChain.tail h

/-- Up to the first mark that is found in a class or as a starter, the classes ascend. -/
theorem IsOrdered.le_of_ofClass {b a : Nat} {text rest : List Nat} (h : IsOrdered (b :: text))
    (hb : ofCodePoint b ≠ 0) (ha : ofCodePoint a ≠ 0)
    (hfirst : ofClass (ofCodePoint a) text = a :: rest) : ofCodePoint b ≤ ofCodePoint a := by
  induction text generalizing b with
  | nil => cases hfirst
  | cons c text ih =>
    obtain ⟨hbc, htext⟩ := List.isChain_cons_cons.mp h
    by_cases hc : ofCodePoint c = 0 ∨ ofCodePoint c = ofCodePoint a
    · rw [ofClass_cons_of_pos hc] at hfirst
      obtain rfl := (List.cons.inj hfirst).1
      exact hbc.resolve_left ha
    · obtain ⟨hstarter, hclass⟩ := not_or.mp hc
      rw [ofClass_cons_of_neg hstarter hclass] at hfirst
      exact (hbc.resolve_left hstarter).trans (ih htext hstarter hfirst)

/-- The first characters of ordered texts are not of different classes. -/
theorem IsOrdered.le_of_agree {a b : Nat} {x y : List Nat} (hy : IsOrdered (b :: y))
    (h : Agree (a :: x) (b :: y)) (ha : ofCodePoint a ≠ 0) (hb : ofCodePoint b ≠ 0) :
    ofCodePoint b ≤ ofCodePoint a := by
  rcases eq_or_ne (ofCodePoint b) (ofCodePoint a) with hclass | hclass
  · exact hclass.le
  · have hfirst := h (ofCodePoint a)
    rw [ofClass_cons_of_pos (Or.inr rfl), ofClass_cons_of_neg hb hclass] at hfirst
    exact hy.le_of_ofClass hb ha hfirst.symm

/-- There is one canonical order. -/
theorem IsOrdered.eq_of_agree {x y : List Nat} (hx : IsOrdered x) (hy : IsOrdered y)
    (h : Agree x y) : x = y := by
  induction x generalizing y with
  | nil => exact (h.symm.eq_of_starters nofun).symm
  | cons a x ih =>
    cases y with
    | nil => exact h.eq_of_starters nofun
    | cons b y =>
      have hsame {k : Nat} (ha : ofCodePoint a = 0 ∨ ofCodePoint a = k)
          (hb : ofCodePoint b = 0 ∨ ofCodePoint b = k) : a = b := by
        have hk := h k
        rw [ofClass_cons_of_pos ha, ofClass_cons_of_pos hb] at hk
        exact (List.cons.inj hk).1
      obtain rfl : a = b := by
        rcases eq_or_ne (ofCodePoint a) 0 with ha | ha
        · exact hsame (Or.inl ha) (Or.inr rfl)
        rcases eq_or_ne (ofCodePoint b) 0 with hb | hb
        · exact hsame (Or.inr rfl) (Or.inl hb)
        have hclass := (hx.le_of_agree h.symm hb ha).antisymm (hy.le_of_agree h ha hb)
        exact hsame (Or.inr rfl) (Or.inr hclass.symm)
      refine congrArg (a :: ·) (ih hx.of_cons hy.of_cons fun k => ?_)
      have hk := h k
      by_cases ha : ofCodePoint a = 0 ∨ ofCodePoint a = k
      · rw [ofClass_cons_of_pos ha, ofClass_cons_of_pos ha] at hk
        exact (List.cons.inj hk).2
      · obtain ⟨hstarter, hclass⟩ := not_or.mp ha
        rwa [ofClass_cons_of_neg hstarter hclass, ofClass_cons_of_neg hstarter hclass] at hk

structure IsRun (run : List Nat) : Prop where
  marks : ∀ c ∈ run, ofCodePoint c ≠ 0
  descending : run.Pairwise fun a b => ofCodePoint b ≤ ofCodePoint a

theorem isRun_nil : IsRun [] := ⟨nofun, .nil⟩

section Run

variable {run : List Nat} {mark : Nat}

theorem insertMark_perm (mark : Nat) (run : List Nat) :
    (insertMark mark run).Perm (mark :: run) := by
  induction run with
  | nil => exact .refl _
  | cons last rest ih =>
    rw [insertMark]
    split_ifs
    · exact (ih.cons last).trans (.swap mark last rest)
    · exact .refl _

theorem IsRun.insertMark (h : IsRun run) (hmark : ofCodePoint mark ≠ 0) :
    IsRun (insertMark mark run) := by
  refine ⟨fun c hc => ?_, ?_⟩
  · rcases List.mem_cons.mp ((insertMark_perm mark run).mem_iff.mp hc) with rfl | hc
    · exact hmark
    · exact h.marks c hc
  · obtain ⟨-, hdescending⟩ := h
    induction run with
    | nil => exact List.pairwise_singleton _ _
    | cons last rest ih =>
      obtain ⟨hlast, hrest⟩ := List.pairwise_cons.mp hdescending
      rw [Nfc.insertMark]
      split_ifs with hlt
      · refine List.pairwise_cons.mpr ⟨fun c hc => ?_, ih hrest⟩
        rcases List.mem_cons.mp ((insertMark_perm mark rest).mem_iff.mp hc) with rfl | hc
        · exact hlt.le
        · exact hlast c hc
      · have hle := Nat.not_lt.mp hlt
        refine List.pairwise_cons.mpr ⟨fun c hc => ?_, hdescending⟩
        rcases List.mem_cons.mp hc with rfl | hc
        · exact hle
        · exact (hlast c hc).trans hle

theorem insertMark_agree (hrun : ∀ c ∈ run, ofCodePoint c ≠ 0) (hmark : ofCodePoint mark ≠ 0) :
    Agree (insertMark mark run).reverse (run.reverse ++ [mark]) := by
  induction run with
  | nil => exact .refl _
  | cons last rest ih =>
    obtain ⟨hlast, hrest⟩ := List.forall_mem_cons.mp hrun
    rw [insertMark]
    split_ifs with hlt
    · rw [List.reverse_cons, List.reverse_cons, List.append_assoc]
      have hswap : Agree ([mark] ++ [last]) ([last] ++ [mark]) :=
        .swap hmark (by simpa using ⟨hlast, hlt.ne'⟩)
      refine ((ih hrest).append (.refl [last])).trans ?_
      rw [List.append_assoc]
      exact (Agree.refl _).append hswap
    · rw [List.reverse_cons]
      exact .refl _

theorem IsRun.isOrdered (h : IsRun run) : IsOrdered run.reverse :=
  (List.pairwise_reverse.mpr (h.descending.imp Or.inr)).isChain

theorem isOrdered_orderMarks (h : IsRun run) (text : List Nat) :
    IsOrdered (orderMarks run text) := by
  induction text generalizing run with
  | nil => exact h.isOrdered
  | cons c rest ih =>
    rw [orderMarks]
    split_ifs with hc
    · have hcons : IsOrdered (c :: orderMarks [] rest) :=
        List.isChain_cons.mpr ⟨fun e _ => Or.inr (hc ▸ Nat.zero_le _), ih isRun_nil⟩
      exact List.isChain_append.mpr ⟨h.isOrdered, hcons, by simp [hc]⟩
    · exact ih (h.insertMark hc)

theorem orderMarks_agree (hrun : ∀ c ∈ run, ofCodePoint c ≠ 0) (text : List Nat) :
    Agree (orderMarks run text) (run.reverse ++ text) := by
  induction text generalizing run with
  | nil =>
    rw [orderMarks, List.append_nil]
    exact .refl _
  | cons c rest ih =>
    rw [orderMarks]
    split_ifs with hc
    · exact (Agree.refl _).append ((Agree.refl [c]).append (ih nofun))
    · have hinserted : ∀ e ∈ insertMark c run, ofCodePoint e ≠ 0 := by
        intro e he
        rcases List.mem_cons.mp ((insertMark_perm c run).mem_iff.mp he) with rfl | he
        · exact hc
        · exact hrun e he
      refine (ih hinserted).trans ?_
      rw [List.append_cons]
      exact (insertMark_agree hrun hc).append (.refl rest)

end Run

theorem orderMarks_nil_agree (text : List Nat) : Agree (orderMarks [] text) text :=
  orderMarks_agree (fun _ h => absurd h List.not_mem_nil) text

theorem orderMarks_of_isOrdered {text : List Nat} (h : IsOrdered text) :
    orderMarks [] text = text :=
  (isOrdered_orderMarks isRun_nil text).eq_of_agree h (orderMarks_nil_agree text)

theorem orderMarks_eq_of_agree {x y : List Nat} (h : Agree x y) :
    orderMarks [] x = orderMarks [] y :=
  (isOrdered_orderMarks isRun_nil x).eq_of_agree (isOrdered_orderMarks isRun_nil y)
    ((orderMarks_nil_agree x).trans (h.trans (orderMarks_nil_agree y).symm))

theorem orderMarks_append_starter {c : Nat} (hc : ofCodePoint c = 0) (run before rest : List Nat) :
    orderMarks run (before ++ c :: rest) = orderMarks run before ++ orderMarks [] (c :: rest) := by
  induction before generalizing run with
  | nil => simp only [List.nil_append, orderMarks, if_pos hc, List.reverse_nil]
  | cons b before ih =>
    rw [List.cons_append, orderMarks, orderMarks]
    split_ifs
    · rw [ih, List.append_assoc, List.cons_append]
    · exact ih _

end MerkleDir.Nfc
