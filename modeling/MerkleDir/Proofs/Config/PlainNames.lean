import Mathlib
import MerkleDir.Proofs.Config.Modules
import MerkleDir.Proofs.Text.LowerCase

namespace MerkleDir.Config

namespace Layer

structure IsPlain (fs : List (String × Json)) : Prop where
  lowerCase_eq : ∀ name ∈ fs.map Prod.fst, lowerCase name = name
  nodup : (fs.map Prod.fst).Nodup

structure HasTable (source : List (String × Json)) (table : String) (fs : List (String × Json)) :
    Prop where
  get?_eq : get? table (.object source) = some (.object fs)
  isPlain : IsPlain fs

/-- Names none of which is a path. -/
def HasNames (fs : List (String × Json)) : Prop :=
  ∀ name ∈ fs.map Prod.fst, stepsOf (lowerCase name) = [.field (lowerCase name)]

variable {name : String} {path : List String} {fs : List (String × Json)}

theorem IsPlain.of_names (names : List String) (h : fs.map Prod.fst = names)
    (hlower : ∀ name ∈ names, lowerCase name = name) (hnodup : names.Nodup) : IsPlain fs :=
  ⟨h ▸ hlower, h ▸ hnodup⟩

theorem IsPlain.given?_eq (h : IsPlain fs) :
    given? (name :: path) (.object fs) = (get? name (.object fs)).bind (given? path) := by
  induction fs with
  | nil => rfl
  | cons field fs ih =>
    obtain ⟨hfield, hfs⟩ := List.forall_mem_cons.mp h.lowerCase_eq
    obtain ⟨hnotMem, hnodup⟩ := List.nodup_cons.mp h.nodup
    have hcons : get? name (.object (field :: fs)) =
        if name = field.1 then some field.2 else get? name (.object fs) :=
      lookup_cons_eq name field.1 field.2 fs
    rw [given?_cons, ih ⟨hfs, hnodup⟩, hcons, hfield]
    split_ifs with hname hsame hsame
    · have hnone : get? name (.object fs) = none := lookup_eq_none_of_notMem (hname ▸ hnotMem)
      rw [hnone, Option.bind_none, Option.none_or]
      rfl
    · exact absurd hname.symm hsame
    · exact absurd hsame.symm hname
    · exact Option.or_none

theorem IsPlain.fits (h : IsPlain fs)
    (hvalue : ∀ value, get? name (.object fs) = some value → Fits path value) :
    Fits (name :: path) (.object fs) := by
  refine ⟨fs, rfl, fun field hfield hname => hvalue field.2 ?_⟩
  rw [← hname, h.lowerCase_eq field.1 (List.mem_map_of_mem hfield)]
  exact (mem_iff_lookup h.nodup).mp hfield

theorem HasNames.set?_eq (h : HasNames fs) :
    set? (name :: path) (.object fs) = given? (name :: path) (.object fs) := by
  induction fs with
  | nil => rfl
  | cons field fs ih =>
    obtain ⟨hfield, hfs⟩ := List.forall_mem_cons.mp h
    have hcons : set? (name :: path) (.object (field :: fs)) = (set? (name :: path) (.object fs)).or
        (givenAfter? field.2 (stepsOf (lowerCase field.1)) (name :: path)) :=
      findSome?_reverse_cons _ field fs
    rw [hcons, ih hfs, given?_cons, hfield]
    rfl

theorem HasNames.fitsSource (h : HasNames fs) (hfits : Fits (name :: path) (.object fs)) :
    FitsSource (name :: path) (.object fs) := by
  obtain ⟨found, hfound, hfits⟩ := hfits
  obtain rfl := Json.object.inj hfound
  refine ⟨fun field hfield => ?_⟩
  rw [h field.1 (List.mem_map_of_mem hfield)]
  exact hfits field hfield

end Layer

def lowerName (m : String × String) : String × String := (lowerCase m.1, m.2)

def lowerModules (modules : List (String × String)) : List (String × String) :=
  (modules.map lowerName).foldl (fun sorted e => Reading.insertSorted e sorted) []

section Modules

variable {modules : List (String × String)}

theorem isMap_lowerModules (modules : List (String × String)) : IsMap (lowerModules modules) :=
  (Reading.insertAll_spec .nil).1

theorem lookup_lowerModules (name : String) (modules : List (String × String)) :
    List.lookup name (lowerModules modules) = List.lookup name (modules.map lowerName).reverse :=
  ((Reading.insertAll_spec .nil).2 name).trans Option.or_none

/-- In whatever order the modules come, all names are as they were if they are in lower case, and only
then. -/
theorem lowerModules_eq_iff {order : List (String × String)} (hperm : order.Perm modules)
    (h : IsMap modules) : lowerModules order = modules ↔ ∀ m ∈ modules, lowerCase m.1 = m.1 := by
  constructor
  · intro hself m hm
    have hlevel := h.mem_iff.mp hm
    rw [← hself, lookup_lowerModules] at hlevel
    have hmem := List.mem_reverse.mp (Layer.mem_of_lookup_eq_some hlevel)
    obtain ⟨other, -, hother⟩ := List.mem_map.mp hmem
    have hname : lowerCase other.1 = m.1 := congrArg Prod.fst hother
    rw [← hname, lowerCase_lowerCase]
  · intro hlower
    have hname : ∀ m ∈ order, lowerName m = id m :=
      fun m hm => Prod.ext (hlower m (hperm.mem_iff.mp hm)) rfl
    have hsame : order.map lowerName = order :=
      (List.map_congr_left hname).trans (List.map_id order)
    have hnodup : (order.map Prod.fst).Nodup := (hperm.map Prod.fst).nodup_iff.mpr h.nodup
    refine (isMap_lowerModules order).ext h fun name => Option.ext fun level => ?_
    rw [lookup_lowerModules, hsame, Reading.lookup_reverse hnodup]
    exact ((Layer.mem_iff_lookup hnodup).symm.trans hperm.mem_iff).trans h.mem_iff

end Modules

end MerkleDir.Config
