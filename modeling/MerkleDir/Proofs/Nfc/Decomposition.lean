import Mathlib
import MerkleDir.Proofs.Nfc.Table

namespace MerkleDir.Nfc

open CombiningClass (ofCodePoint)

section Lookup

variable {κ β : Type} [BEq κ] [LawfulBEq κ] [Hashable κ] [LawfulHashable κ] {entries : List (κ × β)}
  {k : κ} {v : β}

theorem get?_ofList_of_mem (hkeys : entries.Pairwise fun a b => a.1 ≠ b.1)
    (h : (k, v) ∈ entries) : (Std.HashMap.ofList entries).get? k = some v := by
  rw [Std.HashMap.get?_eq_getElem?]
  exact Std.HashMap.getElem?_ofList_of_mem BEq.rfl (hkeys.imp beq_eq_false_iff_ne.mpr) h

theorem mem_of_get?_ofList (hkeys : entries.Pairwise fun a b => a.1 ≠ b.1)
    (h : (Std.HashMap.ofList entries).get? k = some v) : (k, v) ∈ entries := by
  have hmem : k ∈ entries.map Prod.fst := by
    by_contra hk
    rw [Std.HashMap.get?_eq_getElem?,
      Std.HashMap.getElem?_ofList_of_contains_eq_false (by simpa using hk)] at h
    cases h
  obtain ⟨⟨key, w⟩, he, rfl⟩ := List.mem_map.mp hmem
  obtain rfl := Option.some.inj ((get?_ofList_of_mem hkeys he).symm.trans h)
  exact he

end Lookup

theorem nodup_codes : (codesOf table).Nodup := (nodup_of_areDistinct check_table.1).1

theorem get?_decompositions {d : Decomposition} (h : d ∈ table) :
    decompositions.get? d.code = some d.parts := by
  refine get?_ofList_of_mem ?_ (List.mem_map.mpr ⟨d, h, rfl⟩)
  exact List.pairwise_map.mpr (List.pairwise_map.mp nodup_codes)

theorem get?_decompositions_eq_none {c : Nat} (h : c ∉ codesOf table) :
    decompositions.get? c = none := by
  rw [decompositions, Std.HashMap.get?_eq_getElem?]
  refine Std.HashMap.getElem?_ofList_of_contains_eq_false ?_
  rw [List.contains_eq_mem, decide_eq_false_iff_not, List.map_map]
  exact h

def Decomposition.pair? (d : Decomposition) : Option ((Nat × Nat) × Nat) :=
  match d.parts with
  | [first, second] => some ((first, second), d.code)
  | _ => none

theorem pair?_eq_some_iff {d : Decomposition} {first second c : Nat} :
    d.pair? = some ((first, second), c) ↔ d.parts = [first, second] ∧ d.code = c := by
  rw [Decomposition.pair?]
  split <;> simp_all

theorem pairwise_pairs : (composites.filterMap (·.pair?)).Pairwise fun a b => a.1 ≠ b.1 := by
  have hkeys := List.pairwise_map.mp (nodup_of_areDistinct check_table.2.1).1
  refine List.pairwise_filterMap.mpr (hkeys.imp ?_)
  rintro d e hne ⟨⟨a, b⟩, c⟩ hd ⟨⟨a', b'⟩, c'⟩ he heq
  cases heq
  obtain ⟨hd, -⟩ := pair?_eq_some_iff.mp hd
  obtain ⟨he, -⟩ := pair?_eq_some_iff.mp he
  exact hne (by rw [Decomposition.pairKey, Decomposition.pairKey, hd, he])

theorem get?_compositions_eq_some_iff {first second c : Nat} :
    compositions.get? (first, second) = some c ↔
      ∃ d ∈ composites, d.code = c ∧ d.parts = [first, second] := by
  have hentry : ((first, second), c) ∈ composites.filterMap (·.pair?) ↔
      ∃ d ∈ composites, d.code = c ∧ d.parts = [first, second] := by
    simp only [List.mem_filterMap, pair?_eq_some_iff, and_comm]
  rw [← hentry]
  exact ⟨mem_of_get?_ofList pairwise_pairs, get?_ofList_of_mem pairwise_pairs⟩

theorem Decomposition.isEntry_iff {d : Decomposition} : d.isEntry = true ↔ 0xC0 ≤ d.code ∧
    d.code.isValidChar ∧ Hangul.isSyllable d.code = false ∧ isJamo d.code = false ∧ d.parts ≠ [] ∧
    ∀ p ∈ d.parts, p.isValidChar ∧ p ∉ pathMarks := by
  simp [isEntry, and_assoc]

theorem decomposeOnce_of_mem {d : Decomposition} (h : d ∈ table) :
    decomposeOnce d.code = d.parts := by
  obtain ⟨-, -, hsyllable, -⟩ := Decomposition.isEntry_iff.mp (check_table.2.2.2.1 d h)
  rw [decomposeOnce, hsyllable, if_neg Bool.false_ne_true, get?_decompositions h,
    Option.getD_some]

theorem decomposeOnce_of_notMem {c : Nat} (hsyllable : Hangul.isSyllable c = false)
    (h : c ∉ codesOf table) : decomposeOnce c = [c] := by
  rw [decomposeOnce, hsyllable, if_neg Bool.false_ne_true, get?_decompositions_eq_none h,
    Option.getD_none]

/-- A syllable, an entry of the table, or a character without parts. -/
theorem decomposeOnce_cases (c : Nat) :
    (Hangul.isSyllable c = true ∧ decomposeOnce c = Hangul.decompose c) ∨
      (∃ d ∈ table, d.code = c ∧ decomposeOnce c = d.parts) ∨ decomposeOnce c = [c] := by
  cases hsyllable : Hangul.isSyllable c with
  | true => exact Or.inl ⟨rfl, by rw [decomposeOnce, hsyllable, if_pos rfl]⟩
  | false =>
    by_cases hc : c ∈ codesOf table
    · obtain ⟨d, hd, rfl⟩ := List.mem_map.mp hc
      exact Or.inr (Or.inl ⟨d, hd, rfl, decomposeOnce_of_mem hd⟩)
    · exact Or.inr (Or.inr (decomposeOnce_of_notMem hsyllable hc))

namespace Hangul

theorem isSyllable_iff {c : Nat} : isSyllable c = true ↔ 0xAC00 ≤ c ∧ c < 0xD7A4 := by
  rw [isSyllable, Bool.and_eq_true, decide_eq_true_eq, decide_eq_true_eq]
  exact Iff.rfl

theorem decompose_eq (c : Nat) : decompose c =
    if (c - 0xAC00) % 28 = 0 then
      [0x1100 + (c - 0xAC00) / 588, 0x1161 + (c - 0xAC00) % 588 / 28]
    else [0x1100 + (c - 0xAC00) / 588, 0x1161 + (c - 0xAC00) % 588 / 28,
      0x11A7 + (c - 0xAC00) % 28] := rfl

theorem isJamo_of_mem_decompose {c e : Nat} (hc : isSyllable c = true) (h : e ∈ decompose c) :
    isJamo e = true := by
  obtain ⟨hlow, hhigh⟩ := isSyllable_iff.mp hc
  have hjamo : 0x1100 ≤ e ∧ e < 0x1200 := by
    rw [decompose_eq] at h
    split_ifs at h <;> simp only [List.mem_cons, List.not_mem_nil, or_false] at h <;> omega
  simpa [isJamo] using hjamo

end Hangul

theorem decomposeOnce_of_lt {c : Nat} (h : c < 0xC0) : decomposeOnce c = [c] := by
  refine decomposeOnce_of_notMem (Bool.eq_false_of_not_eq_true fun hsyllable => ?_) fun hc => ?_
  · have hlow := (Hangul.isSyllable_iff.mp hsyllable).1
    omega
  · obtain ⟨d, hd, rfl⟩ := List.mem_map.mp hc
    have hlow := (Decomposition.isEntry_iff.mp (check_table.2.2.2.1 d hd)).1
    omega

theorem decomposeOnce_of_isJamo {c : Nat} (h : isJamo c = true) : decomposeOnce c = [c] := by
  refine decomposeOnce_of_notMem ?_ fun hc => ?_
  · have hjamo : 0x1100 ≤ c ∧ c < 0x1200 := by simpa [isJamo] using h
    refine Bool.eq_false_of_not_eq_true fun hsyllable => ?_
    have hlow := (Hangul.isSyllable_iff.mp hsyllable).1
    omega
  · obtain ⟨d, hd, rfl⟩ := List.mem_map.mp hc
    obtain ⟨-, -, -, hjamo, -⟩ := Decomposition.isEntry_iff.mp (check_table.2.2.2.1 d hd)
    rw [hjamo] at h
    cases h

theorem decomposeOnce_ne_nil (c : Nat) : decomposeOnce c ≠ [] := by
  rcases decomposeOnce_cases c with ⟨-, h⟩ | ⟨d, hd, -, h⟩ | h
  · rw [h, Hangul.decompose_eq]
    split_ifs <;> exact List.cons_ne_nil _ _
  · rw [h]
    exact (Decomposition.isEntry_iff.mp (check_table.2.2.2.1 d hd)).2.2.2.2.1
  · rw [h]
    exact List.cons_ne_nil c []

theorem isValidChar_of_mem_decomposeOnce {c e : Nat} (hc : c.isValidChar)
    (h : e ∈ decomposeOnce c) : e.isValidChar := by
  rcases decomposeOnce_cases c with ⟨hsyllable, hc⟩ | ⟨d, hd, -, hc⟩ | hc <;> rw [hc] at h
  · have hjamo : 0x1100 ≤ e ∧ e < 0x1200 := by
      simpa [isJamo] using Hangul.isJamo_of_mem_decompose hsyllable h
    exact Or.inl (by omega)
  · exact ((Decomposition.isEntry_iff.mp (check_table.2.2.2.1 d hd)).2.2.2.2.2 e h).1
  · rwa [List.mem_singleton.mp h]

theorem eq_of_pathMark_mem_decomposeOnce {c m : Nat} (hm : m ∈ pathMarks)
    (h : m ∈ decomposeOnce c) : m = c := by
  rcases decomposeOnce_cases c with ⟨hsyllable, hc⟩ | ⟨d, hd, -, hc⟩ | hc <;> rw [hc] at h
  · have hjamo := Hangul.isJamo_of_mem_decompose hsyllable h
    have hmarks : ∀ m ∈ pathMarks, isJamo m = false := by decide
    rw [hmarks m hm] at hjamo
    cases hjamo
  · exact absurd hm ((Decomposition.isEntry_iff.mp (check_table.2.2.2.1 d hd)).2.2.2.2.2 m h).2
  · exact List.mem_singleton.mp h

def decomposeTimes : Nat → Nat → List Nat
  | 0, c => [c]
  | n + 1, c => (decomposeOnce c).flatMap (decomposeTimes n)

theorem decomposeTimes_succ (n c : Nat) :
    decomposeTimes (n + 1) c = (decomposeTimes n c).flatMap decomposeOnce := by
  induction n generalizing c with
  | zero => simp [decomposeTimes]
  | succ n ih =>
    rw [decomposeTimes, decomposeTimes, List.flatMap_assoc]
    exact congrArg (decomposeOnce c).flatMap (funext ih)

theorem decomposeCode_eq_decomposeTimes (c : Nat) : decomposeCode c = decomposeTimes 4 c := by
  have hzero : decomposeTimes 0 c = [c] := rfl
  rw [decomposeCode, decomposeTimes_succ, decomposeTimes_succ, decomposeTimes_succ,
    decomposeTimes_succ, hzero, List.flatMap_singleton]

/-- Nothing is left to decompose after `n` steps. -/
def Resolves (n c : Nat) : Prop := ∀ e ∈ decomposeTimes n c, decomposeOnce e = [e]

theorem Resolves.of_parts {n c : Nat} (h : ∀ p ∈ decomposeOnce c, Resolves n p) :
    Resolves (n + 1) c := by
  intro e he
  obtain ⟨p, hp, he⟩ := List.mem_flatMap.mp he
  exact h p hp e he

theorem Resolves.decomposeTimes_succ {n c : Nat} (h : Resolves n c) :
    decomposeTimes (n + 1) c = decomposeTimes n c := by
  rw [Nfc.decomposeTimes_succ, List.flatMap_congr h, List.flatMap_singleton']

theorem Resolves.succ {n c : Nat} (h : Resolves n c) : Resolves (n + 1) c := by
  intro e he
  rw [h.decomposeTimes_succ] at he
  exact h e he

theorem resolves_of_notMem_nested {entries : List Decomposition} (hentries : entries ⊆ table)
    {n : Nat} (h : ∀ c ∉ codesOf entries, Resolves n c) {c : Nat}
    (hc : c ∉ codesOf (nested entries)) : Resolves (n + 1) c := by
  by_cases hmem : c ∈ codesOf entries
  · obtain ⟨d, hd, rfl⟩ := List.mem_map.mp hmem
    refine .of_parts fun p hp => h p fun hpart => hc ?_
    rw [decomposeOnce_of_mem (hentries hd)] at hp
    exact List.mem_map.mpr ⟨d, mem_nested.mpr ⟨hd, p, hp, hpart⟩, rfl⟩
  · exact (h c hmem).succ

theorem resolves_four (c : Nat) : Resolves 4 c := by
  have hsub {entries : List Decomposition} (h : entries ⊆ table) : nested entries ⊆ table :=
    fun d hd => h (mem_nested.mp hd).1
  have hone : ∀ c ∉ codesOf table, Resolves 1 c := by
    intro c hc
    rcases decomposeOnce_cases c with ⟨hsyllable, hparts⟩ | ⟨d, hd, rfl, -⟩ | hparts
    · refine .of_parts fun p hp => ?_
      rw [hparts] at hp
      intro e he
      rw [List.mem_singleton.mp he,
        decomposeOnce_of_isJamo (Hangul.isJamo_of_mem_decompose hsyllable hp)]
    · exact absurd (List.mem_map.mpr ⟨d, hd, rfl⟩) hc
    · intro e he
      rw [decomposeTimes, hparts, List.flatMap_singleton] at he
      rw [List.mem_singleton.mp he, hparts]
  -- the table is nested three deep
  have htwo := fun c => resolves_of_notMem_nested (List.Subset.refl table) hone (c := c)
  have hthree := fun c => resolves_of_notMem_nested (hsub (List.Subset.refl table)) htwo (c := c)
  refine resolves_of_notMem_nested (hsub (hsub (List.Subset.refl table))) hthree ?_
  rw [check_table.2.2.1]
  exact List.not_mem_nil

theorem decomposeOnce_of_mem_decomposeCode {c e : Nat} (h : e ∈ decomposeCode c) :
    decomposeOnce e = [e] :=
  resolves_four c e (decomposeCode_eq_decomposeTimes c ▸ h)

theorem decomposeCode_eq_flatMap (c : Nat) :
    decomposeCode c = (decomposeOnce c).flatMap decomposeCode := by
  rw [decomposeCode_eq_decomposeTimes, ← (resolves_four c).decomposeTimes_succ, decomposeTimes]
  exact congrArg (decomposeOnce c).flatMap
    (funext fun e => (decomposeCode_eq_decomposeTimes e).symm)

theorem decomposeCode_of_decomposeOnce {c : Nat} (h : decomposeOnce c = [c]) :
    decomposeCode c = [c] := by
  simp only [decomposeCode, h, List.flatMap_singleton]

theorem decomposeCode_ne_nil (c : Nat) : decomposeCode c ≠ [] := by
  have htimes (n : Nat) : decomposeTimes n c ≠ [] := by
    induction n with
    | zero => exact List.cons_ne_nil c []
    | succ n ih =>
      obtain ⟨e, rest, he⟩ := List.exists_cons_of_ne_nil ih
      rw [decomposeTimes_succ, he, List.flatMap_cons]
      exact List.append_ne_nil_of_left_ne_nil (decomposeOnce_ne_nil e) _
  exact decomposeCode_eq_decomposeTimes c ▸ htimes 4

theorem isValidChar_of_mem_decomposeCode {c e : Nat} (hc : c.isValidChar)
    (h : e ∈ decomposeCode c) : e.isValidChar := by
  have htimes (n : Nat) : ∀ e ∈ decomposeTimes n c, e.isValidChar := by
    induction n with
    | zero =>
      intro e he
      rwa [List.mem_singleton.mp he]
    | succ n ih =>
      intro e he
      rw [decomposeTimes_succ] at he
      obtain ⟨p, hp, he⟩ := List.mem_flatMap.mp he
      exact isValidChar_of_mem_decomposeOnce (ih p hp) he
  exact htimes 4 e (decomposeCode_eq_decomposeTimes c ▸ h)

theorem pathMark_mem_decomposeCode_iff {c m : Nat} (hm : m ∈ pathMarks) :
    m ∈ decomposeCode c ↔ m = c := by
  constructor
  · have htimes (n : Nat) : ∀ c, m ∈ decomposeTimes n c → m = c := by
      induction n with
      | zero => exact fun c h => List.mem_singleton.mp h
      | succ n ih =>
        intro c h
        obtain ⟨p, hp, h⟩ := List.mem_flatMap.mp h
        obtain rfl := ih p h
        exact eq_of_pathMark_mem_decomposeOnce hm hp
    exact fun h => htimes 4 c (decomposeCode_eq_decomposeTimes c ▸ h)
  · rintro rfl
    have hlow : ∀ m ∈ pathMarks, m < 0xC0 := by decide
    rw [decomposeCode_of_decomposeOnce (decomposeOnce_of_lt (hlow m hm))]
    exact List.mem_singleton_self m

namespace Hangul

theorem compose?_cases {first second c : Nat} (h : compose? first second = some c) :
    (0x1100 ≤ first ∧ first < 0x1113 ∧ 0x1161 ≤ second ∧ second < 0x1176 ∧
        c = 0xAC00 + ((first - 0x1100) * 21 + (second - 0x1161)) * 28) ∨
      (isSyllable first = true ∧ (first - 0xAC00) % 28 = 0 ∧ 0x11A7 < second ∧ second < 0x11C3 ∧
        c = first + (second - 0x11A7)) := by
  rw [compose?] at h
  split_ifs at h with hvowel htrailing
  · obtain ⟨hfirst, hfirst', hsecond, hsecond'⟩ := hvowel
    exact Or.inl ⟨hfirst, hfirst', hsecond, hsecond', (Option.some.inj h).symm⟩
  · obtain ⟨hfirst, hmod, hsecond, hsecond'⟩ := htrailing
    exact Or.inr ⟨hfirst, hmod, hsecond, hsecond', (Option.some.inj h).symm⟩

theorem isJamo_of_compose? {first second c : Nat} (h : compose? first second = some c) :
    isJamo second = true := by
  have hjamo : 0x1100 ≤ second ∧ second < 0x1200 := by
    rcases compose?_cases h with h | h <;> omega
  simpa [isJamo] using hjamo

theorem isSyllable_of_compose? {first second c : Nat} (h : compose? first second = some c) :
    isSyllable c = true := by
  rw [isSyllable_iff]
  rcases compose?_cases h with h | ⟨hfirst, h⟩
  · omega
  · have hrange := isSyllable_iff.mp hfirst
    omega

theorem decomposeCode_of_isSyllable {c : Nat} (h : isSyllable c = true) :
    decomposeCode c = decompose c := by
  have honce : decomposeOnce c = decompose c := by rw [decomposeOnce, h, if_pos rfl]
  have hparts : ∀ e ∈ decompose c, decomposeCode e = [e] := fun e he =>
    decomposeCode_of_decomposeOnce (decomposeOnce_of_isJamo (isJamo_of_mem_decompose h he))
  rw [decomposeCode_eq_flatMap, honce, List.flatMap_congr hparts, List.flatMap_singleton']

theorem decomposeCode_of_compose? {first second c : Nat} (h : compose? first second = some c) :
    decomposeCode c = decomposeCode first ++ [second] := by
  rw [decomposeCode_of_isSyllable (isSyllable_of_compose? h), decompose_eq]
  rcases compose?_cases h with ⟨hfirst, hfirst', hsecond, hsecond', hc⟩ |
    ⟨hfirst, hmod, hsecond, hsecond', hc⟩
  · have hjamo : isJamo first = true := by
      have hrange : 0x1100 ≤ first ∧ first < 0x1200 := by omega
      simpa [isJamo] using hrange
    rw [decomposeCode_of_decomposeOnce (decomposeOnce_of_isJamo hjamo), if_pos (by omega)]
    simp only [List.cons_append, List.nil_append, List.cons.injEq, and_true]
    omega
  · have hrange := isSyllable_iff.mp hfirst
    rw [decomposeCode_of_isSyllable hfirst, decompose_eq, if_pos hmod, if_neg (by omega)]
    simp only [List.cons_append, List.nil_append, List.cons.injEq, and_true]
    omega

end Hangul

section Pair

variable {first second c : Nat}

theorem composePair?_cases (h : composePair? first second = some c) :
    Hangul.compose? first second = some c ∨
      ∃ d ∈ composites, d.code = c ∧ d.parts = [first, second] := by
  rw [composePair?] at h
  cases hsyllable : Hangul.compose? first second with
  | some e =>
    rw [hsyllable] at h
    exact Or.inl h
  | none =>
    rw [hsyllable] at h
    exact Or.inr (get?_compositions_eq_some_iff.mp h)

theorem isPair_of_mem {d : Decomposition} (hd : d ∈ composites)
    (hparts : d.parts = [first, second]) : 0x300 ≤ second ∧ decomposeOnce second = [second] ∧
      (d.code < 0x300 → first < 0x300) := by
  have hpair := check_table.2.2.2.2.1 d hd
  simp only [Decomposition.isPair, hparts, Bool.and_eq_true, Bool.not_eq_true', decide_eq_true_eq,
    Bool.or_eq_true] at hpair
  obtain ⟨⟨⟨hsecond, hcodes⟩, hsyllable⟩, hlow⟩ := hpair
  refine ⟨hsecond, decomposeOnce_of_notMem hsyllable fun hmem => ?_, fun h => by omega⟩
  rw [testBit_maskOf.mpr hmem] at hcodes
  cases hcodes

/-- What begins a text is never the second of a pair below U+0300. -/
theorem le_of_composePair? (h : composePair? first second = some c) : 0x300 ≤ second := by
  rcases composePair?_cases h with hsyllable | ⟨d, hd, -, hparts⟩
  · have hjamo : 0x1100 ≤ second ∧ second < 0x1200 := by
      simpa [isJamo] using Hangul.isJamo_of_compose? hsyllable
    omega
  · exact (isPair_of_mem hd hparts).1

theorem isValidChar_of_composePair? (h : composePair? first second = some c) :
    c.isValidChar := by
  rcases composePair?_cases h with hsyllable | ⟨d, hd, rfl, -⟩
  · have hrange := Hangul.isSyllable_iff.mp (Hangul.isSyllable_of_compose? hsyllable)
    exact Or.inl (by omega)
  · exact (Decomposition.isEntry_iff.mp (check_table.2.2.2.1 d (List.mem_append_left _ hd))).2.1

theorem decomposeCode_of_composePair? (h : composePair? first second = some c) :
    decomposeCode c = decomposeCode first ++ [second] := by
  rcases composePair?_cases h with hsyllable | ⟨d, hd, rfl, hparts⟩
  · exact Hangul.decomposeCode_of_compose? hsyllable
  · obtain ⟨-, hsecond, -⟩ := isPair_of_mem hd hparts
    rw [decomposeCode_eq_flatMap d.code, decomposeOnce_of_mem (List.mem_append_left _ hd), hparts,
      List.flatMap_cons, List.flatMap_singleton, decomposeCode_of_decomposeOnce hsecond]

theorem composePair?_of_mem {d : Decomposition} (hd : d ∈ composites)
    (hparts : d.parts = [first, second]) (hfirst : first < 0x300) :
    composePair? first second = some d.code := by
  have hsyllable : Hangul.compose? first second = none := by
    cases h : Hangul.compose? first second with
    | none => rfl
    | some c =>
      rcases Hangul.compose?_cases h with h | ⟨h, -⟩
      · omega
      · have hrange := Hangul.isSyllable_iff.mp h
        omega
  rw [composePair?, hsyllable]
  exact get?_compositions_eq_some_iff.mpr ⟨d, hd, rfl, hparts⟩

end Pair

end MerkleDir.Nfc
