import Mathlib
import MerkleDir.Text.Utf8

/-!
# Decoding of UTF-8

A byte below 128 is a character of its own wherever it stands, so bytes can be cut at it before or
after they are decoded, and no other byte is displayed as that character. Text that has been encoded
is displayed as it was.
-/
namespace MerkleDir.Utf8

theorem continuation_append {x : UInt8} (hx : x < 0x80) {n : Nat} {low high : UInt8}
    (hlow : 0x80 ≤ low) (a b : Bytes) :
    continuation n low high (a ++ x :: b) = continuation n low high a := by
  induction a generalizing n low high with
  | nil =>
    cases n with
    | zero => rfl
    | succ n =>
      rw [List.nil_append, continuation, if_neg, continuation]
      · exact nofun
      · exact fun h => absurd (UInt8.lt_of_lt_of_le hx (UInt8.le_trans hlow h.1))
          (UInt8.lt_irrefl x)
  | cons y a ih =>
    cases n with
    | zero => rfl
    | succ n => rw [List.cons_append, continuation, continuation, ih UInt8.le_rfl]

theorem continuation_isPrefix (n : Nat) (low high : UInt8) (bytes : Bytes) :
    continuation n low high bytes <+: bytes := by
  fun_induction continuation n low high bytes with
  | case1 n low high b rest _ ih => exact List.prefix_cons_inj b |>.mpr ih
  | case2 => exact List.nil_prefix
  | case3 => exact List.nil_prefix

theorem low_of_lead? {b : UInt8} {l : Lead} (h : lead? b = some l) : 0x80 ≤ l.low := by
  unfold lead? at h
  split_ifs at h <;> obtain rfl := Option.some.inj h <;> simp

theorem pieces_append {x : UInt8} (hx : x < 0x80) (a b : Bytes) :
    pieces (a ++ x :: b) = pieces a ++ .char (Char.ofNat x.toNat) :: pieces b := by
  fun_induction pieces a with
  | case1 => rw [List.nil_append, pieces, if_pos hx, List.nil_append]
  | case2 y a hy ih => rw [List.cons_append, pieces, if_pos hy, ih, List.cons_append]
  | case3 y a hy hlead ih =>
    rw [List.cons_append, pieces, if_neg hy, hlead, List.cons_append]
    simp only [ih]
  | case4 y a hy l hlead tail piece ih =>
    have htail : continuation l.following l.low l.high (a ++ x :: b) = tail :=
      continuation_append hx (low_of_lead? hlead) a b
    have hlen : tail.length ≤ a.length := (continuation_isPrefix _ _ _ a).length_le
    rw [List.cons_append, pieces, if_neg hy, hlead]
    simp only [htail, List.drop_append_of_le_length hlen, ih, List.cons_append]
    rfl

theorem display_append {x : UInt8} (hx : x < 0x80) (a b : Bytes) :
    display (a ++ x :: b) =
      display a ++ String.singleton (Char.ofNat x.toNat) ++ display b := by
  apply String.toList_injective
  simp [display, pieces_append hx, Piece.display]

theorem lead?_two {h : Nat} (hlow : 2 ≤ h) (hhigh : h < 32) :
    lead? (UInt8.ofNat (h + 192)) = some ⟨h, 1, 0x80, 0xBF⟩ := by
  interval_cases h <;> rfl

theorem lead?_three {h : Nat} (hhigh : h < 16) : lead? (UInt8.ofNat (h + 224)) =
    some ⟨h, 2, if h = 0 then 0xA0 else 0x80, if h = 13 then 0x9F else 0xBF⟩ := by
  interval_cases h <;> rfl

theorem lead?_four {h : Nat} (hhigh : h ≤ 4) : lead? (UInt8.ofNat (h + 240)) =
    some ⟨h, 3, if h = 0 then 0x90 else 0x80, if h = 4 then 0x8F else 0xBF⟩ := by
  interval_cases h <;> rfl

theorem continuation_cons {n m : Nat} {low high : UInt8} (hm : m < 64)
    (hlow : low.toNat ≤ m + 128) (hhigh : m + 128 ≤ high.toNat) (rest : Bytes) :
    continuation (n + 1) low high (UInt8.ofNat (m + 128) :: rest) =
      UInt8.ofNat (m + 128) :: continuation n 0x80 0xBF rest := by
  have hbyte : (UInt8.ofNat (m + 128)).toNat = m + 128 := by
    rw [UInt8.toNat_ofNat', Nat.mod_eq_of_lt (by omega)]
  rw [continuation, if_pos]
  rw [UInt8.le_iff_toNat_le, UInt8.le_iff_toNat_le, hbyte]
  exact ⟨hlow, hhigh⟩

theorem pieces_lead {b : UInt8} {l : Lead} {bytes rest : Bytes} (hb : 0x80 ≤ b)
    (hlead : lead? b = some l) (hlen : bytes.length = l.following)
    (hbytes : continuation l.following l.low l.high (bytes ++ rest) = bytes) :
    pieces (b :: bytes ++ rest) = .char (scalar l.payload bytes) :: pieces rest := by
  rw [List.cons_append, pieces, if_neg (UInt8.not_lt.mpr hb), hlead]
  simp only [hbytes, if_pos hlen, List.drop_left]

theorem toNat_continuation (m : Nat) (hm : m < 64) : (UInt8.ofNat (m + 128)).toNat - 128 = m := by
  rw [UInt8.toNat_ofNat', Nat.mod_eq_of_lt (by omega), Nat.add_sub_cancel]

theorem le_ofNat {n : Nat} (hlow : 128 ≤ n) (hhigh : n < 256) : 0x80 ≤ UInt8.ofNat n := by
  rw [UInt8.le_iff_toNat_le, UInt8.toNat_ofNat', Nat.mod_eq_of_lt hhigh]
  exact hlow

theorem pieces_encodeChar (c : Char) (rest : Bytes) :
    pieces (String.utf8EncodeChar c ++ rest) = .char c :: pieces rest := by
  have hc : Char.ofNat c.val.toNat = c := c.ofNat_toNat
  have hvalid : c.val.toNat < 0xD800 ∨ 0xDFFF < c.val.toNat ∧ c.val.toNat < 0x110000 := c.valid
  unfold String.utf8EncodeChar
  generalize c.val.toNat = v at hc hvalid
  simp only
  split_ifs with h1 h2 h3
  · have hv : (UInt8.ofNat v).toNat = v := by rw [UInt8.toNat_ofNat', Nat.mod_eq_of_lt (by omega)]
    have hlt : UInt8.ofNat v < 0x80 := by
      rw [UInt8.lt_iff_toNat_lt, hv]
      exact Nat.lt_succ_of_le h1
    rw [List.cons_append, pieces, if_pos hlt, hv, hc, List.nil_append]
  · rw [Nat.mod_eq_of_lt (show v / 64 < 32 by omega),
      pieces_lead (le_ofNat (by omega) (by omega)) (lead?_two (by omega) (by omega)) rfl]
    · rw [scalar, List.foldl_cons, List.foldl_nil, toNat_continuation _ (by omega),
        Nat.div_add_mod', hc]
    · rw [List.cons_append, continuation_cons (by omega) (Nat.le_add_left _ _) (by simp; omega)]
      rfl
  · rw [Nat.mod_eq_of_lt (show v / 4096 < 16 by omega),
      pieces_lead (le_ofNat (by omega) (by omega)) (lead?_three (by omega)) rfl]
    · rw [scalar, List.foldl_cons, List.foldl_cons, List.foldl_nil, toNat_continuation _ (by omega),
        toNat_continuation _ (by omega),
        show (v / 4096 * 64 + v / 64 % 64) * 64 + v % 64 = v by omega, hc]
    -- the second byte tells overlong forms and surrogates apart
    · rw [List.cons_append, continuation_cons (by omega) (by split_ifs <;> simp <;> omega)
        (by split_ifs <;> simp <;> omega), List.cons_append, continuation_cons (by omega)
        (Nat.le_add_left _ _) (by simp; omega)]
      rfl
  · rw [Nat.mod_eq_of_lt (show v / 262144 < 8 by omega),
      pieces_lead (le_ofNat (by omega) (by omega)) (lead?_four (by omega)) rfl]
    · rw [scalar, List.foldl_cons, List.foldl_cons, List.foldl_cons, List.foldl_nil,
        toNat_continuation _ (by omega), toNat_continuation _ (by omega),
        toNat_continuation _ (by omega),
        show ((v / 262144 * 64 + v / 4096 % 64) * 64 + v / 64 % 64) * 64 + v % 64 = v by omega, hc]
    · rw [List.cons_append, continuation_cons (by omega) (by split_ifs <;> simp <;> omega)
        (by split_ifs <;> simp <;> omega), List.cons_append, continuation_cons (by omega)
        (Nat.le_add_left _ _) (by simp; omega), List.cons_append, continuation_cons (by omega)
        (Nat.le_add_left _ _) (by simp; omega)]
      rfl

theorem pieces_encode (s : String) : pieces (encode s) = s.toList.map .char := by
  rw [encode]
  induction s.toList with
  | nil => rw [List.flatMap_nil, pieces, List.map_nil]
  | cons c cs ih => rw [List.flatMap_cons, pieces_encodeChar, ih, List.map_cons]

theorem display_encode (s : String) : display (encode s) = s := by
  rw [display, pieces_encode, List.map_map]
  exact (congrArg String.ofList (List.map_id s.toList)).trans String.ofList_toList

theorem decode?_encode (s : String) : decode? (encode s) = some s := by
  have hchars (cs : List Char) : (cs.map Piece.char).mapM Piece.char? = some cs := by
    rw [List.mapM_map]
    induction cs with
    | nil => rfl
    | cons c cs ih =>
      rw [List.mapM_cons, ih]
      rfl
  rw [decode?, pieces_encode, hchars, Option.map_some, String.ofList_toList]

theorem toNat_mem_continuation {n : Nat} {bytes : Bytes} {t : UInt8}
    (h : t ∈ continuation n 0x80 0xBF bytes) : 128 ≤ t.toNat ∧ t.toNat < 192 := by
  induction n generalizing bytes with
  | zero => cases h
  | succ n ih =>
    cases bytes with
    | nil => cases h
    | cons b rest =>
      rw [continuation] at h
      split_ifs at h with hb
      · rcases List.mem_cons.mp h with rfl | h
        · exact ⟨UInt8.le_iff_toNat_le.mp hb.1, Nat.lt_succ_of_le (UInt8.le_iff_toNat_le.mp hb.2)⟩
        · exact ih h
      · cases h

theorem toNat_continuation_cons {n : Nat} {low high t : UInt8} {bytes tail : Bytes}
    (h : continuation n low high bytes = t :: tail) :
    low.toNat ≤ t.toNat ∧ t.toNat ≤ high.toNat ∧ ∀ e ∈ tail, 128 ≤ e.toNat ∧ e.toNat < 192 := by
  cases n with
  | zero => cases h
  | succ n =>
    cases bytes with
    | nil => cases h
    | cons b rest =>
      rw [continuation] at h
      split_ifs at h with hb
      obtain ⟨rfl, rfl⟩ := List.cons.inj h
      exact ⟨UInt8.le_iff_toNat_le.mp hb.1, UInt8.le_iff_toNat_le.mp hb.2,
        fun e he => toNat_mem_continuation he⟩

/-- What a first byte stands for, by the number of bytes that follow. -/
theorem lead?_cases {b : UInt8} {l : Lead} (h : lead? b = some l) :
    (l.following = 1 ∧ 2 ≤ l.payload ∧ l.payload < 32 ∧ 128 ≤ l.low.toNat ∧ l.high.toNat < 192) ∨
      (l.following = 2 ∧ l.payload < 16 ∧ 128 ≤ l.low.toNat ∧ l.high.toNat < 192 ∧
        (l.payload = 0 → 160 ≤ l.low.toNat) ∧ (l.payload = 13 → l.high.toNat < 160)) ∨
      (l.following = 3 ∧ l.payload < 5 ∧ 128 ≤ l.low.toNat ∧ l.high.toNat < 192 ∧
        (l.payload = 0 → 144 ≤ l.low.toNat) ∧ (l.payload = 4 → l.high.toNat < 144)) := by
  unfold lead? at h
  simp only [UInt8.le_iff_toNat_le, ← UInt8.toNat_inj] at h
  split_ifs at h <;> obtain rfl := Option.some.inj h <;> simp at * <;> omega

/-- No character below 128 is encoded by several bytes. -/
theorem le_toNat_scalar {b : UInt8} {l : Lead} (hlead : lead? b = some l) {bytes tail : Bytes}
    (htail : continuation l.following l.low l.high bytes = tail)
    (hlen : tail.length = l.following) : 128 ≤ (scalar l.payload tail).toNat := by
  have hscalar {v : Nat} (hlow : 128 ≤ v) (hvalid : v < 0xD800 ∨ 0xDFFF < v ∧ v < 0x110000) :
      128 ≤ (Char.ofNat v).toNat := by
    rw [Char.toNat_ofNat, if_pos hvalid]
    exact hlow
  rcases lead?_cases hlead with ⟨hl, h⟩ | ⟨hl, h⟩ | ⟨hl, h⟩ <;> rw [hl] at hlen
  · obtain ⟨t, rfl⟩ := List.length_eq_one_iff.mp hlen
    obtain ⟨hlow, hhigh, -⟩ := toNat_continuation_cons htail
    exact hscalar (by simp; omega) (by simp; omega)
  · obtain ⟨t, u, rfl⟩ := List.length_eq_two.mp hlen
    obtain ⟨hlow, hhigh, hrest⟩ := toNat_continuation_cons htail
    obtain ⟨hu, hu'⟩ := hrest u (by simp)
    exact hscalar (by simp; omega) (by simp; omega)
  · obtain ⟨t, u, w, rfl⟩ := List.length_eq_three.mp hlen
    obtain ⟨hlow, hhigh, hrest⟩ := toNat_continuation_cons htail
    obtain ⟨hu, hu'⟩ := hrest u (by simp)
    obtain ⟨hw, hw'⟩ := hrest w (by simp)
    exact hscalar (by simp; omega) (by simp; omega)

/-- A byte from 128 on begins nothing that is displayed below 128. -/
theorem exists_pieces_cons {b : UInt8} (hb : ¬ b < 0x80) (rest : Bytes) :
    ∃ piece n, pieces (b :: rest) = piece :: pieces (rest.drop n) ∧
      128 ≤ piece.display.toNat := by
  have hinvalid (bytes : Bytes) : 128 ≤ (Piece.invalid bytes).display.toNat :=
    show 128 ≤ '\uFFFD'.toNat by decide
  rw [pieces, if_neg hb]
  cases hlead : lead? b with
  | none => exact ⟨.invalid [b], 0, rfl, hinvalid _⟩
  | some l =>
    refine ⟨_, _, rfl, ?_⟩
    split_ifs with hlen
    · exact le_toNat_scalar hlead rfl hlen
    · exact hinvalid _

/-- Bytes are read one by one below 128, and several at a time elsewhere. -/
@[elab_as_elim]
theorem pieces_induction {motive : Bytes → Prop} (nil : motive [])
    (ascii : ∀ b rest, b < 0x80 → motive rest → motive (b :: rest))
    (other : ∀ b rest piece n, pieces (b :: rest) = piece :: pieces (rest.drop n) →
      128 ≤ piece.display.toNat → motive (rest.drop n) → motive (b :: rest))
    (bytes : Bytes) : motive bytes := by
  induction hlen : bytes.length using Nat.strong_induction_on generalizing bytes with
  | h n ih =>
    cases bytes with
    | nil => exact nil
    | cons b rest =>
      rw [List.length_cons] at hlen
      by_cases hb : b < 0x80
      · exact ascii b rest hb (ih rest.length (by omega) rest rfl)
      · obtain ⟨piece, k, hpieces, hpiece⟩ := exists_pieces_cons hb rest
        refine other b rest piece k hpieces hpiece (ih _ ?_ _ rfl)
        rw [List.length_drop]
        omega

theorem display_eq (bytes : Bytes) : (display bytes).toList = (pieces bytes).map Piece.display := by
  rw [display, String.toList_ofList]

theorem display_ascii {b : UInt8} (hb : b < 0x80) (rest : Bytes) :
    (display (b :: rest)).toList = Char.ofNat b.toNat :: (display rest).toList := by
  rw [display_eq, display_eq, pieces, if_pos hb]
  rfl

theorem toNat_ofNat_byte (b : UInt8) : (Char.ofNat b.toNat).toNat = b.toNat := by
  have hlt := b.toNat_lt
  rw [Char.toNat_ofNat, if_pos (Or.inl (by omega))]

theorem encodeChar_ascii {b : UInt8} (hb : b < 0x80) :
    String.utf8EncodeChar (Char.ofNat b.toNat) = [b] := by
  have hval : (Char.ofNat b.toNat).val.toNat = b.toNat := toNat_ofNat_byte b
  have hle : b.toNat ≤ 127 := Nat.le_of_lt_succ (UInt8.lt_iff_toNat_lt.mp hb)
  unfold String.utf8EncodeChar
  simp only [hval, if_pos hle, UInt8.ofNat_toNat]

theorem encode_display {bytes : Bytes} (h : ∀ c ∈ (display bytes).toList, c.toNat < 128) :
    encode (display bytes) = bytes := by
  rw [encode]
  induction bytes using pieces_induction with
  | nil => rw [display_eq, pieces, List.map_nil, List.flatMap_nil]
  | ascii b rest hb ih =>
    rw [display_ascii hb] at h ⊢
    rw [List.flatMap_cons, encodeChar_ascii hb, ih fun c hc => h c (List.mem_cons_of_mem _ hc)]
    rfl
  | other b rest piece n hpieces hpiece =>
    rw [display_eq, hpieces] at h
    exact absurd (h piece.display List.mem_cons_self) hpiece.not_gt

/-- The bytes below 128 are displayed as they are, and nothing else is displayed so. -/
theorem mem_display_iff {x : UInt8} (hx : x < 0x80) {bytes : Bytes} :
    Char.ofNat x.toNat ∈ (display bytes).toList ↔ x ∈ bytes := by
  constructor
  · intro h
    induction bytes using pieces_induction with
    | nil =>
      rw [display_eq, pieces] at h
      cases h
    | ascii b rest hb ih =>
      rw [display_ascii hb] at h
      rcases List.mem_cons.mp h with heq | h
      · have hbyte := congrArg Char.toNat heq
        rw [toNat_ofNat_byte, toNat_ofNat_byte] at hbyte
        exact UInt8.toNat_inj.mp hbyte ▸ List.mem_cons_self
      · exact List.mem_cons_of_mem b (ih h)
    | other b rest piece n hpieces hpiece ih =>
      rw [display_eq, hpieces, List.map_cons, ← display_eq] at h
      rcases List.mem_cons.mp h with heq | h
      · rw [← heq, toNat_ofNat_byte] at hpiece
        exact absurd hpiece (UInt8.lt_iff_toNat_lt.mp hx).not_ge
      · exact List.mem_cons_of_mem b (List.mem_of_mem_drop (ih h))
  · intro h
    obtain ⟨before, after, rfl⟩ := List.append_of_mem h
    rw [display_append hx]
    simp

theorem encode_append (s t : String) : encode (s ++ t) = encode s ++ encode t := by
  simp [encode]

theorem encode_injective : Function.Injective encode := by
  intro s t h
  have hs : s.toList.utf8Encode = t.toList.utf8Encode := congrArg List.toByteArray h
  rw [← String.toByteArray_ofList, ← String.toByteArray_ofList, String.ofList_toList,
    String.ofList_toList] at hs
  exact String.toByteArray_inj.mp hs

end MerkleDir.Utf8
