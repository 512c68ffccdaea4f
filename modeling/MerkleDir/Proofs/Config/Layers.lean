import Mathlib
import MerkleDir.Config.Load

namespace MerkleDir.Config.Layer

@[simp] theorem fields_object (fs : List (String × Json)) : fields (.object fs) = fs := rfl

theorem lookup_cons_eq {β : Type} (name key : String) (value : β) (fs : List (String × β)) :
    List.lookup name ((key, value) :: fs) =
      if name = key then some value else List.lookup name fs := by
  rw [List.lookup_cons, beq_eq_decide]
  split_ifs with h <;> simp [h]

theorem lookup_eq_none_of_notMem {β : Type} {name : String} {fs : List (String × β)}
    (h : name ∉ fs.map Prod.fst) : List.lookup name fs = none := by
  rw [List.lookup_eq_none_iff]
  exact fun field hfield => bne_iff_ne.mpr fun heq => h (List.mem_map.mpr ⟨field, hfield, heq.symm⟩)

theorem mem_of_lookup_eq_some {β : Type} {name : String} {value : β} {fs : List (String × β)}
    (h : List.lookup name fs = some value) : (name, value) ∈ fs := by
  obtain ⟨before, after, rfl, -⟩ := List.lookup_eq_some_iff.mp h
  exact List.mem_append_right before List.mem_cons_self

theorem mem_iff_lookup {β : Type} {fs : List (String × β)} (h : (fs.map Prod.fst).Nodup)
    {name : String} {value : β} : (name, value) ∈ fs ↔ List.lookup name fs = some value := by
  refine ⟨fun hfield => ?_, mem_of_lookup_eq_some⟩
  induction fs with
  | nil => cases hfield
  | cons first fs ih =>
    obtain ⟨hnotMem, hrest⟩ := List.nodup_cons.mp h
    rw [lookup_cons_eq name first.1 first.2 fs]
    rcases List.mem_cons.mp hfield with rfl | hfield
    · exact if_pos rfl
    · rw [if_neg, ih hrest hfield]
      intro hname
      exact hnotMem (List.mem_map.mpr ⟨_, hfield, hname⟩)

theorem lookup_put (name key : String) (value : Json) (fs : List (String × Json)) :
    List.lookup name (put key value fs) =
      if name = key then some value else List.lookup name fs := by
  induction fs with
  | nil => exact lookup_cons_eq name key value []
  | cons field fs ih =>
    obtain ⟨other, old⟩ := field
    rw [put]
    split_ifs with hother hname hname
    · rw [lookup_cons_eq, if_pos hname]
    · rw [lookup_cons_eq, if_neg hname, lookup_cons_eq, if_neg fun h => hname (h.trans hother)]
    · rw [lookup_cons_eq, if_neg fun h => hother (h.symm.trans hname), ih, if_pos hname]
    · rw [lookup_cons_eq, lookup_cons_eq, ih, if_neg hname]

theorem get?_put (name key : String) (value : Json) (fs : List (String × Json)) :
    get? name (.object (put key value fs)) =
      if name = key then some value else List.lookup name fs :=
  lookup_put name key value fs

theorem mem_map_fst_put {name key : String} {value : Json} {fs : List (String × Json)}
    (h : name ∈ (put key value fs).map Prod.fst) : name = key ∨ name ∈ fs.map Prod.fst := by
  induction fs with
  | nil => exact Or.inl (List.mem_singleton.mp h)
  | cons field fs ih =>
    obtain ⟨other, old⟩ := field
    rw [put] at h
    split_ifs at h with hother
    · rcases List.mem_cons.mp h with h | h
      · exact Or.inl h
      · exact Or.inr (List.mem_cons_of_mem _ h)
    · rcases List.mem_cons.mp h with rfl | h
      · exact Or.inr List.mem_cons_self
      · exact (ih h).imp_right (List.mem_cons_of_mem _)

theorem nodup_put {key : String} {value : Json} {fs : List (String × Json)}
    (h : (fs.map Prod.fst).Nodup) : ((put key value fs).map Prod.fst).Nodup := by
  induction fs with
  | nil => exact List.nodup_singleton key
  | cons field fs ih =>
    obtain ⟨other, old⟩ := field
    obtain ⟨hnotMem, hrest⟩ := List.nodup_cons.mp h
    rw [put]
    split_ifs with hother
    · exact List.nodup_cons.mpr ⟨hother ▸ hnotMem, hrest⟩
    · refine List.nodup_cons.mpr ⟨fun hmem => ?_, ih hrest⟩
      exact (mem_map_fst_put hmem).elim hother hnotMem

/-- Of what is found from the end on, the first is found last. -/
theorem findSome?_reverse_cons {α β : Type} (f : α → Option β) (x : α) (xs : List α) :
    (x :: xs).reverse.findSome? f = (xs.reverse.findSome? f).or (f x) := by
  rw [List.reverse_cons, List.findSome?_append, List.findSome?_singleton]

def valueAt? : List String → Json → Option Json
  | [], value => some value
  | name :: path, value => (get? name value).bind (valueAt? path)

theorem valueAt?_singleton (name : String) (value : Json) :
    valueAt? [name] value = get? name value := by
  rw [valueAt?]
  cases get? name value <;> rfl

/-- The value that `value` gives to the end of a path. Keys are taken in lower case, and of two that are
one then the later counts. -/
def given? : List String → Json → Option Json
  | [], value => some value
  | name :: path, value => (fields value).reverse.findSome? fun field =>
    if lowerCase field.1 = name then given? path field.2 else none

/-- Wherever `value` goes along the path it has tables, and something else at the end. -/
def Fits : List String → Json → Prop
  | [], value => ∀ fs, value ≠ .object fs
  | name :: path, value =>
    ∃ fs, value = .object fs ∧ ∀ field ∈ fs, lowerCase field.1 = name → Fits path field.2

def IsTableAlong : List String → Json → Prop
  | [], _ => True
  | name :: path, value => (∃ fs, value = .object fs ∧ (fs.map Prod.fst).Nodup) ∧
    ∀ inner, get? name value = some inner → IsTableAlong path inner

theorem isTableAlong_empty (path : List String) : IsTableAlong path (.object []) := by
  cases path with
  | nil => trivial
  | cons name path => exact ⟨⟨[], rfl, List.nodup_nil⟩, nofun⟩

section Field

variable {name : String} {path : List String} {fs : List (String × Json)}

theorem isTableAlong_of_get?_eq_none (hnodup : (fs.map Prod.fst).Nodup)
    (h : get? name (.object fs) = none) : IsTableAlong (name :: path) (.object fs) :=
  ⟨⟨fs, rfl, hnodup⟩, fun inner hinner => by cases h.symm.trans hinner⟩

theorem isTableAlong_of_get?_eq_some {inner : Json} (hnodup : (fs.map Prod.fst).Nodup)
    (h : get? name (.object fs) = some inner) (hinner : IsTableAlong path inner) :
    IsTableAlong (name :: path) (.object fs) :=
  ⟨⟨fs, rfl, hnodup⟩, fun _ hfound => Option.some_inj.mp (h.symm.trans hfound) ▸ hinner⟩

end Field

theorem IsTableAlong.nodup {name : String} {path : List String} {fs : List (String × Json)}
    (h : IsTableAlong (name :: path) (.object fs)) : (fs.map Prod.fst).Nodup := by
  obtain ⟨⟨found, hfound, hnodup⟩, -⟩ := h
  exact Json.object.inj hfound ▸ hnodup

theorem given?_cons (name : String) (path : List String) (field : String × Json)
    (fs : List (String × Json)) :
    given? (name :: path) (.object (field :: fs)) = (given? (name :: path) (.object fs)).or
      (if lowerCase field.1 = name then given? path field.2 else none) :=
  findSome?_reverse_cons _ field fs

/-- What comes of `base` at a path along which a value is given, if one is. -/
structure IsLaid (path : List String) (given : Option Json) (base after : Json) : Prop where
  isTable : IsTableAlong path after
  valueAt? : valueAt? path after = given.or (Layer.valueAt? path base)

namespace IsLaid

variable {path : List String} {given later : Option Json} {base middle after value : Json}
  {name key : String}

theorem refl (h : IsTableAlong path base) : IsLaid path none base base := ⟨h, rfl⟩

theorem trans (h : IsLaid path given base middle) (hlater : IsLaid path later middle after) :
    IsLaid path (later.or given) base after :=
  ⟨hlater.isTable, by rw [hlater.valueAt?, h.valueAt?, Option.or_assoc]⟩

theorem put_of_ne (h : IsTableAlong (name :: path) base) (hne : name ≠ key) :
    IsLaid (name :: path) none base (.object (put key value (fields base))) := by
  obtain ⟨⟨fs, rfl, hnodup⟩, hinner⟩ := h
  have hget : get? name (.object (put key value fs)) = get? name (.object fs) := by
    rw [get?_put, if_neg hne]
    rfl
  refine ⟨⟨⟨_, rfl, nodup_put hnodup⟩, fun inner h => hinner inner (hget ▸ h)⟩, ?_⟩
  rw [Layer.valueAt?, fields_object, hget]
  rfl

/-- Where the path ends, there has to be a value. -/
theorem put_self (h : IsTableAlong (name :: path) base) (hgiven : path = [] → given.isSome)
    (hvalue : IsLaid path given ((get? name base).getD (.object [])) value) :
    IsLaid (name :: path) given base (.object (put name value (fields base))) := by
  obtain ⟨⟨fs, rfl, hnodup⟩, hinner⟩ := h
  have hget : get? name (.object (put name value fs)) = some value := by
    rw [get?_put, if_pos rfl]
  refine ⟨⟨⟨_, rfl, nodup_put hnodup⟩, fun inner h => ?_⟩, ?_⟩
  · rw [fields_object, hget] at h
    exact Option.some_inj.mp h ▸ hvalue.isTable
  · rw [Layer.valueAt?, fields_object, hget, Option.bind_some, hvalue.valueAt?, Layer.valueAt?]
    cases hbase : get? name (.object fs) with
    | some old => rfl
    | none =>
      cases path with
      | nil =>
        obtain ⟨found, rfl⟩ := Option.isSome_iff_exists.mp (hgiven rfl)
        rfl
      | cons next path => rfl

/-- What stands there where the path goes on. -/
theorem isTableAlong_getD (h : IsTableAlong (name :: path) base) :
    IsTableAlong path ((get? name base).getD (.object [])) := by
  cases hbase : get? name base with
  | none => exact isTableAlong_empty path
  | some inner => exact h.2 inner hbase

end IsLaid

theorem assign_of_not_object (key : String) (base : Json) {value : Json}
    (h : ∀ fs, value ≠ .object fs) : assign key base value = .object (put key value (fields base)) := by
  cases value with
  | object fs => exact absurd rfl (h fs)
  | _ => rw [assign]

/-- Fields that are laid one after the other, from what each assignment does. -/
theorem isLaid_overlay_of {name : String} {path : List String}
    (hassign : ∀ {key : String} {base value : Json}, IsTableAlong (name :: path) base →
      (key = name → Fits path value) →
      IsLaid (name :: path) (if key = name then given? path value else none) base
        (assign key base value))
    {fs : List (String × Json)} {base : Json} (hbase : IsTableAlong (name :: path) base)
    (hfits : ∀ field ∈ fs, lowerCase field.1 = name → Fits path field.2) :
    IsLaid (name :: path) (given? (name :: path) (.object fs)) base (overlay base fs) := by
  induction fs generalizing base with
  | nil =>
    rw [overlay]
    exact .refl hbase
  | cons field fs ih =>
    obtain ⟨hfield, hfs⟩ := List.forall_mem_cons.mp hfits
    have hfirst := hassign hbase hfield
    rw [given?_cons, overlay]
    exact hfirst.trans (ih hfirst.isTable hfs)

/-- By induction on the path: a table at the end of one step is laid over the table that stands there. -/
theorem isLaid_assign {name key : String} {path : List String} {base value : Json}
    (hbase : IsTableAlong (name :: path) base) (hfits : key = name → Fits path value) :
    IsLaid (name :: path) (if key = name then given? path value else none) base
      (assign key base value) := by
  induction path generalizing name key base value with
  | nil =>
    split_ifs with hkey
    · subst hkey
      rw [assign_of_not_object _ _ (hfits rfl)]
      exact .put_self hbase (fun _ => rfl) ⟨trivial, rfl⟩
    · cases value <;> rw [assign] <;> exact .put_of_ne hbase (Ne.symm hkey)
  | cons next path ih =>
    split_ifs with hkey
    · subst hkey
      obtain ⟨fs, rfl, hfs⟩ := hfits rfl
      rw [assign]
      exact .put_self hbase nofun
        (isLaid_overlay_of ih (IsLaid.isTableAlong_getD hbase) hfs)
    · cases value <;> rw [assign] <;> exact .put_of_ne hbase (Ne.symm hkey)

def stepsOf (key : String) : List Step := (path? key).getD [.field key]

def givenAfter? (value : Json) : List Step → List String → Option Json
  | [], path => given? path value
  | .field step :: steps, name :: path => if step = name then givenAfter? value steps path else none
  | _, _ => none

/-- Steps along a path are names, and fewer than those of the path, and the value after them fits. -/
def FitsAfter (value : Json) : List Step → List String → Prop
  | [], path => Fits path value
  | .field step :: steps, name :: path => step = name → FitsAfter value steps path
  | _, _ => False

theorem stepsOf_ne_nil (key : String) : stepsOf key ≠ [] := by
  rw [stepsOf, path?]
  cases name? key.toList with
  | none => exact List.cons_ne_nil _ _
  | some found =>
    obtain ⟨step, rest⟩ := found
    dsimp only [Option.bind_some]
    cases steps? rest.length rest <;> exact List.cons_ne_nil _ _

theorem assignTop_eq (base : Json) (field : String × Json) :
    assignTop base field = assignPath field.2 (stepsOf (lowerCase field.1)) base := by
  rw [assignTop, stepsOf]
  cases path? (lowerCase field.1) with
  | none => rw [Option.getD_none, assignPath]
  | some steps => rfl

/-- Where there is nothing yet, an empty table is as good as null. -/
theorem assignPath_getD_null (value : Json) {steps : List Step} (hsteps : steps ≠ [])
    (old : Option Json) :
    assignPath value steps (old.getD .null) = assignPath value steps (old.getD (.object [])) := by
  cases old with
  | some old => rfl
  | none =>
    cases steps with
    | nil => exact absurd rfl hsteps
    | cons step steps =>
      cases step with
      | item index => rfl
      | field name =>
        cases steps with
        | cons next steps => rfl
        | nil =>
          show assign name .null value = assign name (.object []) value
          cases value <;> rw [assign, assign] <;> rfl

theorem isLaid_assignPath {value base : Json} {steps : List Step} {path : List String}
    (hsteps : steps ≠ []) (hbase : IsTableAlong path base) (hfits : FitsAfter value steps path) :
    IsLaid path (givenAfter? value steps path) base (assignPath value steps base) := by
  induction steps generalizing path base with
  | nil => exact absurd rfl hsteps
  | cons step steps ih =>
    cases step with
    | item index => exact hfits.elim
    | field step =>
      cases path with
      | nil => exact hfits.elim
      | cons name path =>
        cases steps with
        | nil =>
          rw [givenAfter?, assignPath]
          exact isLaid_assign hbase hfits
        | cons next steps =>
          have hnext : next :: steps ≠ [] := List.cons_ne_nil _ _
          have hassign : assignPath value (.field step :: next :: steps) base = .object (put step
              (assignPath value (next :: steps) ((get? step base).getD .null)) (fields base)) := rfl
          rw [givenAfter?, hassign, assignPath_getD_null _ hnext]
          split_ifs with hname
          · subst hname
            refine .put_self hbase (fun hpath => ?_)
              (ih hnext (IsLaid.isTableAlong_getD hbase) (hfits rfl))
            subst hpath
            cases next <;> exact (hfits rfl).elim
          · exact .put_of_ne hbase (Ne.symm hname)

def set? (path : List String) (source : Json) : Option Json :=
  (fields source).reverse.findSome? fun field =>
    givenAfter? field.2 (stepsOf (lowerCase field.1)) path

structure FitsSource (path : List String) (source : Json) : Prop where
  fitsAfter : ∀ field ∈ fields source, FitsAfter field.2 (stepsOf (lowerCase field.1)) path

def highest? (path : List String) (sources : List Json) : Option Json :=
  sources.reverse.findSome? (set? path)

theorem isLaid_foldl_assignTop {path : List String} {fs : List (String × Json)} {base : Json}
    (hbase : IsTableAlong path base)
    (hfits : ∀ field ∈ fs, FitsAfter field.2 (stepsOf (lowerCase field.1)) path) :
    IsLaid path (set? path (.object fs)) base (fs.foldl assignTop base) := by
  induction fs generalizing base with
  | nil => exact .refl hbase
  | cons field fs ih =>
    obtain ⟨hfield, hfs⟩ := List.forall_mem_cons.mp hfits
    have hset : set? path (.object (field :: fs)) = (set? path (.object fs)).or
        (givenAfter? field.2 (stepsOf (lowerCase field.1)) path) :=
      findSome?_reverse_cons _ field fs
    have hfirst := isLaid_assignPath (stepsOf_ne_nil (lowerCase field.1)) hbase hfield
    rw [← assignTop_eq] at hfirst
    rw [hset, List.foldl_cons]
    exact hfirst.trans (ih hfirst.isTable hfs)

theorem isLaid_addSource {path : List String} {base source : Json} (hbase : IsTableAlong path base)
    (hfits : FitsSource path source) :
    IsLaid path (set? path source) base (addSource base source) :=
  isLaid_foldl_assignTop hbase hfits.fitsAfter

/-- By induction on the sources: each is laid over those before it. -/
theorem isLaid_foldl_addSource {path : List String} {sources : List Json} {base : Json}
    (hbase : IsTableAlong path base) (hfits : ∀ source ∈ sources, FitsSource path source) :
    IsLaid path (highest? path sources) base (sources.foldl addSource base) := by
  induction sources generalizing base with
  | nil => exact .refl hbase
  | cons source sources ih =>
    obtain ⟨hsource, hsources⟩ := List.forall_mem_cons.mp hfits
    have hhighest : highest? path (source :: sources) =
        (highest? path sources).or (set? path source) :=
      findSome?_reverse_cons _ source sources
    have hfirst := isLaid_addSource hbase hsource
    rw [hhighest, List.foldl_cons]
    exact hfirst.trans (ih hfirst.isTable hsources)

end MerkleDir.Config.Layer
