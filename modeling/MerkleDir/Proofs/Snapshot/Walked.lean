import Mathlib
import MerkleDir.Snapshot.Walk

namespace MerkleDir

open Logged (result)

theorem result_mapM_eq_ok {ε α β : Type} {f : α → ExceptT ε Logged β} {xs : List α} {ys : List β} :
    result (xs.mapM f) = .ok ys ↔ List.Forall₂ (fun x y => result (f x) = .ok y) xs ys := by
  induction xs generalizing ys with
  | nil => cases ys <;> simp
  | cons x xs ih =>
    rw [List.mapM_cons, Logged.result_bind_eq_ok]
    constructor
    · rintro ⟨y, hy, hrest⟩
      obtain ⟨rest, hrest, hys⟩ := Logged.result_bind_eq_ok.mp hrest
      rw [Logged.result_pure, Except.ok.injEq] at hys
      exact hys ▸ .cons hy (ih.mp hrest)
    · rintro (_ | ⟨hy, hrest⟩)
      exact ⟨_, hy, Logged.result_bind_eq_ok.mpr ⟨_, ih.mpr hrest, rfl⟩⟩

variable {fs : FileSystem} {options : SnapshotOptions} {root : Path}

theorem walk_eq_ok_iff {items : List WalkItem} : result (walk fs options root) = .ok items ↔
    ∃ es found, fs.list root = .ok es ∧
      List.Forall₂ (fun e item => result (Walk.classify fs options root e) = .ok item) es found ∧
      items = found.filterMap id := by
  rw [walk, Logged.result_bind_eq_ok]
  simp only [Attempt.result_ofOs, mapError_eq_ok]
  constructor
  · rintro ⟨node, hnode, h⟩
    cases node with
    | directory isOpen listed =>
      cases hlist : fs.list root with
      | error e => simp [hlist] at h
      | ok es =>
        simp only [hlist, Logged.result_bind_eq_ok, result_mapM_eq_ok, Logged.result_pure,
          Except.ok.injEq] at h
        obtain ⟨found, hfound, rfl⟩ := h
        exact ⟨es, found, rfl, hfound, rfl⟩
    | file => simp at h
    | link => simp at h
    | special => simp at h
  · rintro ⟨es, found, hlist, hfound, rfl⟩
    obtain ⟨location, hlocate, hnode⟩ := FileSystem.list_eq_ok_iff.mp hlist
    refine ⟨_, FileSystem.stat_of_locate hlocate hnode, ?_⟩
    simp only [hlist, Logged.result_bind_eq_ok, result_mapM_eq_ok, Logged.result_pure]
    exact ⟨found, hfound, rfl⟩

theorem canonicalLocation_of_walk {items : List WalkItem} {location : Location}
    (hlocate : fs.locate root true = .ok location) (h : result (walk fs options root) = .ok items) :
    fs.canonicalLocation root = .ok location := by
  obtain ⟨es, -, hlist, -, -⟩ := walk_eq_ok_iff.mp h
  exact FileSystem.canonicalLocation_of_list hlocate hlist

namespace Walk

def IsItemOf (name : Bytes) (path : Path) (item : WalkItem) : Prop :=
  item = .directory path ∨ ∃ modified kind, item = .leaf ⟨name, path, modified, kind⟩

theorem result_follow_succ (limit steps : Nat) (name : Bytes) (link current : Path) :
    result (follow fs limit name link (steps + 1) current) =
      match fs.readLink current with
      | .error e => .error (.filesystem current (.os e))
      | .ok bytes =>
        match fs.lstat (linkTarget current bytes) with
        | .error .notFound => .ok none
        | .error e => .error (.filesystem (linkTarget current bytes) (.os e))
        | .ok (.link _ _) => result (follow fs limit name link steps (linkTarget current bytes))
        | .ok (.file modified _) =>
          .ok (some (.leaf
            ⟨name, link, modified, .followedSymlink (linkTarget current bytes)⟩))
        | .ok (.directory _ _) => .ok (some (.directory link))
        | .ok .special => .ok none := by
  rw [follow, Logged.result_bind, Attempt.result_ofOs]
  cases fs.readLink current with
  | error e => rfl
  | ok bytes =>
    show result _ = _
    dsimp only
    cases fs.lstat (linkTarget current bytes) with
    | error e => cases e <;> rfl
    | ok node => cases node <;> rfl

theorem isItemOf_follow {limit steps : Nat} {name : Bytes} {link current : Path} {item : WalkItem}
    (h : result (follow fs limit name link steps current) = .ok (some item)) :
    IsItemOf name link item := by
  induction steps generalizing current with
  | zero => simp [follow] at h
  | succ steps ih =>
    rw [result_follow_succ] at h
    split at h
    · simp at h
    · split at h
      · simp at h
      · simp at h
      · exact ih h
      · rw [Except.ok.injEq, Option.some_inj] at h
        exact Or.inr ⟨_, _, h.symm⟩
      · rw [Except.ok.injEq, Option.some_inj] at h
        exact Or.inl h.symm
      · simp at h

theorem isItemOf_classify {entry : Bytes × Node} {item : WalkItem}
    (h : result (classify fs options root entry) = .ok (some item)) :
    IsItemOf entry.1 (root.join entry.1) item := by
  obtain ⟨name, node⟩ := entry
  cases node with
  | link modified target =>
    cases hpolicy : options.symlinks with
    | ignore => simp [classify, hpolicy, Except.map] at h
    | copy =>
      simp only [classify, hpolicy] at h
      obtain ⟨node, -, h⟩ := Logged.result_bind_eq_ok.mp h
      split at h
      · rw [Logged.result_pure, Except.ok.injEq, Option.some_inj] at h
        exact Or.inr ⟨_, _, h.symm⟩
      · simp at h
    | follow =>
      simp only [classify, hpolicy] at h
      exact isItemOf_follow h
  | file modified content =>
    simp only [classify] at h
    split at h
    · rw [Logged.result_pure, Except.ok.injEq, Option.some_inj] at h
      exact Or.inr ⟨_, _, h.symm⟩
    · simp at h
  | directory isOpen es =>
    rw [classify, Logged.result_pure, Except.ok.injEq, Option.some_inj] at h
    exact Or.inl h.symm
  | special => simp [classify, Except.map] at h

end Walk
end MerkleDir
