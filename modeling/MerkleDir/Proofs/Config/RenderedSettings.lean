import Mathlib
import MerkleDir.Proofs.Config.PlainNames
import MerkleDir.Proofs.Config.Rendered
import MerkleDir.Proofs.Config.Settings

namespace MerkleDir.Config

open Layer (Fits IsPlain HasNames HasTable FitsSource get? given?)

section Fields

variable (config : Config) (file : String) (modules : Json)

theorem isPlain_settingsFields : IsPlain (config.settingsFields file modules) :=
  .of_names ["snapshot", "watch", "logging"] rfl (by decide +kernel) (by decide)

theorem hasNames_settingsFields : HasNames (config.settingsFields file modules) := by
  show ∀ name ∈ ["snapshot", "watch", "logging"],
    Layer.stepsOf (lowerCase name) = [.field (lowerCase name)]
  decide +kernel

theorem hasTable_snapshot :
    HasTable (config.settingsFields file modules) "snapshot" (snapshotFields config.snapshot) where
  get?_eq := by cbv
  isPlain := .of_names ["symlinks", "leaf_order", "max_symlink_depth"] rfl (by decide +kernel) (by decide)

theorem hasTable_watch :
    HasTable (config.settingsFields file modules) "watch" (watchFields config.debounce) where
  get?_eq := by cbv
  isPlain := .of_names ["debounce_ms"] rfl (by decide +kernel) (by decide)

theorem hasTable_logging : HasTable (config.settingsFields file modules) "logging"
    (loggingFields config.logging file ++ [("modules", modules)]) where
  get?_eq := by cbv
  isPlain := .of_names ["enabled", "level", "format", "output", "file", "color", "modules"] rfl
    (by decide +kernel) (by decide)

variable {config file modules} {table name : String} {path : List String}
  {fs : List (String × Json)}

theorem set?_settingsFields (h : HasTable (config.settingsFields file modules) table fs) :
    Layer.set? (table :: name :: path) (.object (config.settingsFields file modules)) =
      (get? name (.object fs)).bind (given? path) := by
  rw [(config.hasNames_settingsFields file modules).set?_eq,
    (config.isPlain_settingsFields file modules).given?_eq, h.get?_eq, Option.bind_some,
    h.isPlain.given?_eq]

theorem fitsSource_settingsFields (h : HasTable (config.settingsFields file modules) table fs)
    (hvalue : ∀ value, get? name (.object fs) = some value → Fits path value) :
    FitsSource (table :: name :: path) (.object (config.settingsFields file modules)) := by
  refine (config.hasNames_settingsFields file modules).fitsSource
    ((config.isPlain_settingsFields file modules).fits fun value hfound => ?_)
  obtain rfl := Option.some_inj.mp (h.get?_eq.symm.trans hfound)
  exact h.isPlain.fits hvalue

end Fields

theorem symlinks?_text (policy : SymlinkPolicy) :
    Reading.lenient.symlinks? (.string policy.text) = some policy := by
  cases policy <;> cbv

theorem leafOrder?_text (order : LeafOrder) :
    Reading.lenient.leafOrder? (.string order.text) = some order := by
  cases order <;> cbv

theorem nat?_integer {n : Nat} (h : n < Decimal.signedBound) :
    Reading.lenient.nat? (.integer n) = some n := by
  have hwide : Lenient.isWide n = false := by
    rw [Lenient.isWide, decide_eq_false_iff_not, not_le]
    exact_mod_cast h
  show Lenient.nat? (.integer n) = some n
  simp [Lenient.nat?, hwide]

def withModules (config : Config) (modules : List (String × String)) : Config :=
  { config with logging := { config.logging with modules } }

def renderedSource (config : Config) (file : String) : Json :=
  .object (config.settingsFields file (.object (moduleFields config.logging.modules)))

section Settings

variable {config : Config} {file : String}

theorem given?_moduleFields (name : String) (modules : List (String × String)) :
    given? [name] (.object (moduleFields modules)) =
      (List.lookup name (lowerModules modules)).map .string := by
  rw [lookup_lowerModules]
  induction modules with
  | nil => rfl
  | cons m modules ih =>
    have hcons : moduleFields (m :: modules) = (m.1, .string m.2) :: moduleFields modules := rfl
    have hlower : (lowerName m).1 = lowerCase m.1 := rfl
    rw [hcons, Layer.given?_cons, ih, List.map_cons, Reading.lookup_reverse_cons, Option.map_or,
      hlower]
    by_cases hname : lowerCase m.1 = name
    · rw [if_pos hname, if_pos hname.symm]
      rfl
    · rw [if_neg hname, if_neg (Ne.symm hname)]
      rfl

theorem set?_module (name : String) :
    Layer.set? (Setting.module name).path (config.renderedSource file) =
      (List.lookup name (lowerModules config.logging.modules)).map .string := by
  rw [Setting.path, renderedSource, set?_settingsFields (hasTable_logging _ _ _)]
  exact given?_moduleFields name config.logging.modules

theorem bind_set?_renderedSource (h : config.IsRenderable file) (s : Setting) :
    (Layer.set? s.path (config.renderedSource file)).bind s.decode? =
      s.of? (config.withModules (lowerModules config.logging.modules)) := by
  cases s with
  | symlinks =>
    rw [Setting.path, renderedSource, set?_settingsFields (hasTable_snapshot _ _ _)]
    exact symlinks?_text _
  | leafOrder =>
    rw [Setting.path, renderedSource, set?_settingsFields (hasTable_snapshot _ _ _)]
    exact leafOrder?_text _
  | maxLinkDepth =>
    rw [Setting.path, renderedSource, set?_settingsFields (hasTable_snapshot _ _ _)]
    exact nat?_integer h.maxLinkDepth
  | debounce =>
    rw [Setting.path, renderedSource, set?_settingsFields (hasTable_watch _ _ _)]
    exact nat?_integer h.debounce
  | file =>
    rw [Setting.path, renderedSource, set?_settingsFields (hasTable_logging _ _ _)]
    exact congrArg some h.file.symm
  | module name =>
    rw [set?_module, Option.bind_map]
    exact Option.bind_fun_some _
  | _ =>
    rw [Setting.path, renderedSource, set?_settingsFields (hasTable_logging _ _ _)]
    rfl

theorem fits_snapshotFields (name : String) (options : SnapshotOptions) (value : Json)
    (h : get? name (.object (snapshotFields options)) = some value) : Fits [] value := by
  have hmem : (name, value) ∈ snapshotFields options := Layer.mem_of_lookup_eq_some h
  simp only [snapshotFields, List.mem_cons, Prod.mk.injEq, List.not_mem_nil, or_false] at hmem
  intro inner hinner
  rcases hmem with ⟨-, rfl⟩ | ⟨-, rfl⟩ | ⟨-, rfl⟩ <;> cases hinner

theorem fits_loggingFields {name : String} (hname : name ≠ "modules") {modules : Json}
    {logging : LoggingConfig} (value : Json)
    (h : get? name (.object (loggingFields logging file ++ [("modules", modules)])) = some value) :
    Fits [] value := by
  have hmem : (name, value) ∈ loggingFields logging file ++ [("modules", modules)] :=
    Layer.mem_of_lookup_eq_some h
  simp only [loggingFields, List.mem_append, List.mem_cons, Prod.mk.injEq, List.not_mem_nil,
    or_false] at hmem
  rcases hmem with hscalar | ⟨hmodules, -⟩
  · intro inner hinner
    rcases hscalar with ⟨-, rfl⟩ | ⟨-, rfl⟩ | ⟨-, rfl⟩ | ⟨-, rfl⟩ | ⟨-, rfl⟩ | ⟨-, rfl⟩ <;>
      cases hinner
  · exact absurd hmodules hname

theorem fitsSource_logging {name : String} (hname : name ≠ "modules") (modules : Json) :
    FitsSource ["logging", name] (.object (config.settingsFields file modules)) :=
  fitsSource_settingsFields (hasTable_logging _ _ _) (fits_loggingFields hname)

theorem isWellTyped_renderedSource (h : config.IsRenderable file) :
    IsWellTyped (config.renderedSource file) where
  fits s := by
    cases s with
    | symlinks | leafOrder | maxLinkDepth =>
      exact fitsSource_settingsFields (hasTable_snapshot _ _ _) (fits_snapshotFields _ _)
    | debounce =>
      refine fitsSource_settingsFields (hasTable_watch _ _ _) fun value hvalue => ?_
      obtain rfl := Option.some_inj.mp hvalue
      exact nofun
    | module name =>
      refine fitsSource_settingsFields (hasTable_logging _ _ _) fun value hvalue => ?_
      obtain rfl := Option.some_inj.mp hvalue
      refine ⟨_, rfl, fun field hfield _ => ?_⟩
      obtain ⟨m, -, rfl⟩ := List.mem_map.mp hfield
      exact nofun
    | _ => exact fitsSource_logging (by decide) _
  decodes s value hvalue := by
    have hdecode := bind_set?_renderedSource h s
    rw [hvalue, Option.bind_some] at hdecode
    rw [hdecode]
    cases s with
    | module name =>
      rw [set?_module] at hvalue
      obtain ⟨level, hlevel, -⟩ := Option.map_eq_some_iff.mp hvalue
      exact Option.isSome_of_eq_some hlevel
    | _ => rfl

theorem settles_renderedSource (h : config.IsRenderable file) :
    (config.withModules (lowerModules config.logging.modules)).Settles
      (Setting.set? [config.renderedSource file]) where
  isMap := isMap_lowerModules config.logging.modules
  of? s := by
    have hhighest (source : Json) : Layer.highest? s.path [source] = Layer.set? s.path source :=
      List.findSome?_singleton
    rw [Setting.set?, hhighest, bind_set?_renderedSource h]
    cases s with
    | module name => exact Option.or_none.symm
    | _ => rfl

/-- What is rendered is loaded with the names of its modules in lower case. -/
theorem ofSources_renderedSource (h : config.IsRenderable file) (hvalid : config.faults = []) :
    ofSources [config.renderedSource file] =
      .ok (config.withModules (lowerModules config.logging.modules)) := by
  obtain ⟨loaded, hloaded, hsettles⟩ :=
    exists_settles (List.forall_mem_singleton.mpr (isWellTyped_renderedSource h))
  obtain rfl := hsettles.unique (settles_renderedSource h)
  rw [ofSources_eq hloaded]
  exact if_pos hvalid

end Settings

end MerkleDir.Config
