namespace MerkleDir

abbrev Bytes := List UInt8

namespace Bytes

def compare : Bytes → Bytes → Ordering
  | [], [] => .eq
  | [], _ :: _ => .lt
  | _ :: _, [] => .gt
  | x :: xs, y :: ys => if x < y then .lt else if y < x then .gt else compare xs ys

theorem compare_self (a : Bytes) : compare a a = .eq := by
  induction a with
  | nil => rfl
  | cons x a ih => simp [compare, ih, UInt8.lt_irrefl]

theorem compare_eq_iff {a b : Bytes} : compare a b = .eq ↔ a = b := by
  refine ⟨fun h => ?_, fun h => h ▸ compare_self a⟩
  fun_induction compare a b with
  | case1 => rfl
  | case2 => cases h
  | case3 => cases h
  | case4 => cases h
  | case5 => cases h
  | case6 x xs y ys hxy hyx ih =>
    rw [UInt8.le_antisymm (UInt8.not_lt.mp hyx) (UInt8.not_lt.mp hxy), ih h]

theorem compare_swap (a b : Bytes) : (compare a b).swap = compare b a := by
  fun_induction compare a b with
  | case1 => rfl
  | case2 => rfl
  | case3 => rfl
  | case4 x xs y ys hxy => simp [compare, hxy, UInt8.lt_asymm hxy]
  | case5 x xs y ys hxy hyx => simp [compare, hyx]
  | case6 x xs y ys hxy hyx ih => simp [compare, hxy, hyx, ih]

theorem compare_trans {a b c : Bytes} (hab : compare a b = .lt) (hbc : compare b c = .lt) :
    compare a c = .lt := by
  induction a generalizing b c with
  | nil =>
    cases c with
    | nil => cases b <;> cases hbc
    | cons z c => rfl
  | cons x a ih =>
    cases b with
    | nil => cases hab
    | cons y b =>
      cases c with
      | nil => cases hbc
      | cons z c =>
        simp only [compare] at *
        grind

end Bytes
end MerkleDir
