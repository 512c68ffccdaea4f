import Mathlib
import MerkleDir.Proofs.Config.Modules

/-!
# Settings

A setting has a place in the sources and one in the configuration. From sources whose values have the
right types a configuration is read that has each setting from the last source that gives it.
-/
namespace MerkleDir

inductive Setting where
  | symlinks
  | leafOrder
  | maxLinkDepth
  | debounce
  | enabled
  | level
  | format
  | output
  | file
  | color
  | module (name : String)

namespace Setting

def path : Setting → List String
  | .symlinks => ["snapshot", "symlinks"]
  | .leafOrder => ["snapshot", "leaf_order"]
  | .maxLinkDepth => ["snapshot", "max_symlink_depth"]
  | .debounce => ["watch", "debounce_ms"]
  | .enabled => ["logging", "enabled"]
  | .level => ["logging", "level"]
  | .format => ["logging", "format"]
  | .output => ["logging", "output"]
  | .file => ["logging", "file"]
  | .color => ["logging", "color"]
  | .module name => ["logging", "modules", name]

def Value : Setting → Type
  | .symlinks => SymlinkPolicy
  | .leafOrder => LeafOrder
  | .maxLinkDepth | .debounce => Nat
  | .enabled | .color => Bool
  | .level | .format | .output | .module _ => String
  | .file => Path

def decode? : (s : Setting) → Json → Option s.Value
  | .symlinks => Config.Reading.lenient.symlinks?
  | .leafOrder => Config.Reading.lenient.leafOrder?
  | .maxLinkDepth | .debounce => Config.Reading.lenient.nat?
  | .enabled | .color => Config.Reading.lenient.bool?
  | .level | .format | .output | .module _ => Config.Reading.lenient.text?
  | .file => Config.Reading.lenient.path?

/-- What a configuration has for a setting; a module need not have a level. -/
def of? (config : Config) : (s : Setting) → Option s.Value
  | .symlinks => some config.snapshot.symlinks
  | .leafOrder => some config.snapshot.leafOrder
  | .maxLinkDepth => some config.snapshot.maxLinkDepth
  | .debounce => some config.debounce
  | .enabled => some config.logging.enabled
  | .level => some config.logging.level
  | .format => some config.logging.format
  | .output => some config.logging.output
  | .file => some config.logging.file
  | .color => some config.logging.color
  | .module name => List.lookup name config.logging.modules

def default? : (s : Setting) → Option s.Value := of? .default

def set? (sources : List Json) (s : Setting) : Option s.Value :=
  (Config.Layer.highest? s.path sources).bind s.decode?

end Setting

namespace Config

open Layer (IsTableAlong FitsSource get? highest? isLaid_foldl_addSource valueAt?)

/-- A configuration that has the values given, and for all else the defaults. -/
structure Settles (config : Config) (value : (s : Setting) → Option s.Value) : Prop where
  isMap : IsMap config.logging.modules
  of? (s : Setting) : s.of? config = (value s).or s.default?

theorem Settles.unique {config other : Config} {value : (s : Setting) → Option s.Value}
    (h : config.Settles value) (hother : other.Settles value) : config = other := by
  have heq (s : Setting) : s.of? config = s.of? other := (h.of? s).trans (hother.of? s).symm
  have hmodules : config.logging.modules = other.logging.modules :=
    h.isMap.ext hother.isMap fun name => heq (.module name)
  obtain ⟨⟨symlinks, leafOrder, maxLinkDepth⟩, debounce,
    ⟨enabled, level, format, output, file, color, modules⟩⟩ := config
  obtain ⟨⟨symlinks', leafOrder', maxLinkDepth'⟩, debounce',
    ⟨enabled', level', format', output', file', color', modules'⟩⟩ := other
  obtain rfl : symlinks = symlinks' := Option.some_inj.mp (heq .symlinks)
  obtain rfl : leafOrder = leafOrder' := Option.some_inj.mp (heq .leafOrder)
  obtain rfl : maxLinkDepth = maxLinkDepth' := Option.some_inj.mp (heq .maxLinkDepth)
  obtain rfl : debounce = debounce' := Option.some_inj.mp (heq .debounce)
  obtain rfl : enabled = enabled' := Option.some_inj.mp (heq .enabled)
  obtain rfl : level = level' := Option.some_inj.mp (heq .level)
  obtain rfl : format = format' := Option.some_inj.mp (heq .format)
  obtain rfl : output = output' := Option.some_inj.mp (heq .output)
  obtain rfl : file = file' := Option.some_inj.mp (heq .file)
  obtain rfl : color = color' := Option.some_inj.mp (heq .color)
  obtain rfl : modules = modules' := hmodules
  rfl

/-- Tables lead to the settings, and each that is there has a value of its type. -/
structure IsReadable (settings : Json) : Prop where
  isTable (s : Setting) : IsTableAlong s.path settings
  decodes (s : Setting) {value : Json} (h : valueAt? s.path settings = some value) :
    (s.decode? value).isSome

theorem field?_eq_get? (name : String) {fs : List (String × Json)}
    (hnodup : (fs.map Prod.fst).Nodup) :
    Json.field? name (.object fs) = get? name (.object fs) := by
  rw [Json.field?, get?, Layer.fields_object]
  induction fs with
  | nil => rfl
  | cons field fs ih =>
    obtain ⟨key, value⟩ := field
    obtain ⟨hnotMem, hrest⟩ := List.nodup_cons.mp hnodup
    rw [List.reverse_cons, List.find?_append, Option.map_or, ih hrest, Layer.lookup_cons_eq]
    split_ifs with hname
    · rw [hname, Layer.lookup_eq_none_of_notMem hnotMem, List.find?_singleton,
        if_pos (beq_self_eq_true key)]
      rfl
    · rw [List.find?_singleton, if_neg fun h => hname (beq_iff_eq.mp h).symm]
      exact Option.or_none

theorem Record.read_eq {α : Type} {fs : List (String × Json)} (hnodup : (fs.map Prod.fst).Nodup)
    (name : String) (position : Nat) (default : α) (decode : Json → Option α) :
    (Record.named fs).read name position default decode =
      match Layer.get? name (.object fs) with
      | none => some default
      | some value => decode value := by
  rw [← field?_eq_get? name hnodup]
  rfl

/-- A field that has a value of its type if it is there. -/
theorem Record.read_of_decodes {α : Type} {fs : List (String × Json)} {name : String}
    {position : Nat} {default : α} {decode : Json → Option α} (hnodup : (fs.map Prod.fst).Nodup)
    (hdecode : ∀ value, Layer.get? name (.object fs) = some value → (decode value).isSome) :
    (Record.named fs).read name position default decode =
      ((Layer.get? name (.object fs)).bind decode).or (some default) := by
  rw [read_eq hnodup]
  cases hget : Layer.get? name (.object fs) with
  | none => rfl
  | some value =>
    obtain ⟨a, ha⟩ := Option.isSome_iff_exists.mp (hdecode value hget)
    simp [ha]

def readSetting (settings : Json) (s : Setting) : Option s.Value :=
  ((valueAt? s.path settings).bind s.decode?).or s.default?

theorem exists_readSetting (settings : Json) (s : Setting) {default : s.Value}
    (hdefault : s.default? = some default) : ∃ a, readSetting settings s = some a := by
  rw [readSetting, hdefault, Option.or_some]
  exact ⟨_, rfl⟩

namespace IsReadable

variable {settings inner : Json} {table name : String} {rest : List String}
  {fs : List (String × Json)}

theorem readSetting_of_none (s : Setting) (hpath : s.path = table :: rest)
    (hnone : get? table settings = none) : readSetting settings s = s.default? := by
  rw [readSetting, hpath, valueAt?, hnone]
  rfl

theorem isTable_inner (h : IsReadable settings) (s : Setting) (hpath : s.path = table :: rest)
    (hinner : get? table settings = some inner) : IsTableAlong rest inner := by
  have htable := h.isTable s
  rw [hpath] at htable
  exact htable.2 inner hinner

theorem exists_fields (h : IsReadable settings) (s : Setting) (hpath : s.path = table :: name :: rest)
    (hinner : get? table settings = some inner) : ∃ fs, inner = .object fs :=
  (h.isTable_inner s hpath hinner).1.imp fun _ => And.left

theorem read_eq_readSetting (h : IsReadable settings) (s : Setting) (hpath : s.path = [table, name])
    (hinner : get? table settings = some (.object fs)) (position : Nat) {default : s.Value}
    (hdefault : s.default? = some default) :
    (Record.named fs).read name position default s.decode? = readSetting settings s := by
  have hvalue : valueAt? s.path settings = get? name (.object fs) := by
    rw [hpath, valueAt?, hinner, Option.bind_some, Layer.valueAt?_singleton]
  rw [Record.read_of_decodes (h.isTable_inner s hpath hinner).nodup fun value hget =>
    h.decodes s (hvalue.trans hget), readSetting, hvalue, hdefault]

variable {top : List (String × Json)} (h : IsReadable (.object top))

include h

theorem nodup_top : (top.map Prod.fst).Nodup := (h.isTable .level).nodup

theorem exists_snapshot :
    ∃ options, (Record.named top).read "snapshot" 0 .default Reading.lenient.snapshot? = some options ∧
      readSetting (.object top) .symlinks = some options.symlinks ∧
      readSetting (.object top) .leafOrder = some options.leafOrder ∧
      readSetting (.object top) .maxLinkDepth = some options.maxLinkDepth := by
  rw [Record.read_eq h.nodup_top]
  cases hinner : get? "snapshot" (.object top) with
  | none =>
    exact ⟨.default, rfl, readSetting_of_none .symlinks rfl hinner,
      readSetting_of_none .leafOrder rfl hinner, readSetting_of_none .maxLinkDepth rfl hinner⟩
  | some inner =>
    obtain ⟨fs, rfl⟩ := h.exists_fields .symlinks rfl hinner
    obtain ⟨symlinks, hsymlinks⟩ := exists_readSetting (.object top) .symlinks rfl
    obtain ⟨leafOrder, hleafOrder⟩ := exists_readSetting (.object top) .leafOrder rfl
    obtain ⟨depth, hdepth⟩ := exists_readSetting (.object top) .maxLinkDepth rfl
    refine ⟨⟨symlinks, leafOrder, depth⟩, ?_, hsymlinks, hleafOrder, hdepth⟩
    dsimp only
    rw [Reading.snapshot?]
    refine Option.bind_eq_some_iff.mpr ⟨.named fs, rfl, ?_⟩
    refine Option.bind_eq_some_iff.mpr
      ⟨symlinks, (h.read_eq_readSetting .symlinks rfl hinner 0 rfl).trans hsymlinks, ?_⟩
    refine Option.bind_eq_some_iff.mpr
      ⟨leafOrder, (h.read_eq_readSetting .leafOrder rfl hinner 1 rfl).trans hleafOrder, ?_⟩
    exact Option.bind_eq_some_iff.mpr
      ⟨depth, (h.read_eq_readSetting .maxLinkDepth rfl hinner 2 rfl).trans hdepth, rfl⟩

theorem exists_debounce :
    ∃ debounce, (Record.named top).read "watch" 1 defaultDebounce Reading.lenient.debounce? =
        some debounce ∧ readSetting (.object top) .debounce = some debounce := by
  rw [Record.read_eq h.nodup_top]
  cases hinner : get? "watch" (.object top) with
  | none => exact ⟨defaultDebounce, rfl, readSetting_of_none .debounce rfl hinner⟩
  | some inner =>
    obtain ⟨fs, rfl⟩ := h.exists_fields .debounce rfl hinner
    obtain ⟨debounce, hdebounce⟩ := exists_readSetting (.object top) .debounce rfl
    refine ⟨debounce, ?_, hdebounce⟩
    dsimp only
    rw [Reading.debounce?]
    refine Option.bind_eq_some_iff.mpr ⟨.named fs, rfl, ?_⟩
    exact (h.read_eq_readSetting .debounce rfl hinner 0 rfl).trans hdebounce

theorem exists_modules (hinner : get? "logging" (.object top) = some (.object fs)) :
    ∃ modules, (Record.named fs).read "modules" 6 [] Reading.lenient.modules? = some modules ∧
      IsMap modules ∧ ∀ name, readSetting (.object top) (.module name) = List.lookup name modules := by
  have htable (name : String) : IsTableAlong ["modules", name] (.object fs) :=
    h.isTable_inner (.module name) rfl hinner
  have hvalue (name : String) : valueAt? (Setting.module name).path (.object top) =
      (get? "modules" (.object fs)).bind (get? name) := by
    rw [Setting.path, valueAt?, hinner, Option.bind_some, valueAt?]
    exact congrArg _ (funext (Layer.valueAt?_singleton name))
  have hread (name : String) : readSetting (.object top) (.module name) =
      ((get? "modules" (.object fs)).bind (get? name)).bind Reading.lenient.text? := by
    rw [readSetting, hvalue]
    exact Option.or_none
  rw [Record.read_eq (htable "").nodup]
  cases hmodules : get? "modules" (.object fs) with
  | none =>
    refine ⟨[], rfl, .nil, fun name => ?_⟩
    rw [hread, hmodules]
    rfl
  | some inner =>
    have hfields (name : String) : ∃ levels, inner = .object levels ∧ (levels.map Prod.fst).Nodup :=
      ((htable name).2 inner hmodules).1
    obtain ⟨levels, rfl, hnodup⟩ := hfields ""
    obtain ⟨modules, hread', hmap, hlookup⟩ := Reading.exists_modules (r := Reading.lenient) hnodup
      fun name value hget => h.decodes (.module name) (by rw [hvalue, hmodules]; exact hget)
    refine ⟨modules, hread', hmap, fun name => ?_⟩
    rw [hread, hmodules, hlookup]
    rfl

theorem exists_logging :
    ∃ logging, (Record.named top).read "logging" 2 .default Reading.lenient.logging? = some logging ∧
      IsMap logging.modules ∧
      readSetting (.object top) .enabled = some logging.enabled ∧
      readSetting (.object top) .level = some logging.level ∧
      readSetting (.object top) .format = some logging.format ∧
      readSetting (.object top) .output = some logging.output ∧
      readSetting (.object top) .file = some logging.file ∧
      readSetting (.object top) .color = some logging.color ∧
      ∀ name, readSetting (.object top) (.module name) = List.lookup name logging.modules := by
  rw [Record.read_eq h.nodup_top]
  cases hinner : get? "logging" (.object top) with
  | none =>
    exact ⟨.default, rfl, .nil, readSetting_of_none .enabled rfl hinner,
      readSetting_of_none .level rfl hinner, readSetting_of_none .format rfl hinner,
      readSetting_of_none .output rfl hinner, readSetting_of_none .file rfl hinner,
      readSetting_of_none .color rfl hinner,
      fun name => readSetting_of_none (.module name) rfl hinner⟩
  | some inner =>
    obtain ⟨fs, rfl⟩ := h.exists_fields .level rfl hinner
    obtain ⟨enabled, henabled⟩ := exists_readSetting (.object top) .enabled rfl
    obtain ⟨level, hlevel⟩ := exists_readSetting (.object top) .level rfl
    obtain ⟨format, hformat⟩ := exists_readSetting (.object top) .format rfl
    obtain ⟨output, houtput⟩ := exists_readSetting (.object top) .output rfl
    obtain ⟨file, hfile⟩ := exists_readSetting (.object top) .file rfl
    obtain ⟨color, hcolor⟩ := exists_readSetting (.object top) .color rfl
    obtain ⟨modules, hread, hmap, hmodules⟩ := h.exists_modules hinner
    refine ⟨⟨enabled, level, format, output, file, color, modules⟩, ?_, hmap, henabled, hlevel,
      hformat, houtput, hfile, hcolor, hmodules⟩
    dsimp only
    rw [Reading.logging?]
    refine Option.bind_eq_some_iff.mpr ⟨.named fs, rfl, ?_⟩
    refine Option.bind_eq_some_iff.mpr
      ⟨enabled, (h.read_eq_readSetting .enabled rfl hinner 0 rfl).trans henabled, ?_⟩
    refine Option.bind_eq_some_iff.mpr
      ⟨level, (h.read_eq_readSetting .level rfl hinner 1 rfl).trans hlevel, ?_⟩
    refine Option.bind_eq_some_iff.mpr
      ⟨format, (h.read_eq_readSetting .format rfl hinner 2 rfl).trans hformat, ?_⟩
    refine Option.bind_eq_some_iff.mpr
      ⟨output, (h.read_eq_readSetting .output rfl hinner 3 rfl).trans houtput, ?_⟩
    refine Option.bind_eq_some_iff.mpr
      ⟨file, (h.read_eq_readSetting .file rfl hinner 4 rfl).trans hfile, ?_⟩
    refine Option.bind_eq_some_iff.mpr
      ⟨color, (h.read_eq_readSetting .color rfl hinner 5 rfl).trans hcolor, ?_⟩
    exact Option.bind_eq_some_iff.mpr ⟨modules, hread, rfl⟩

/-- A configuration is read, and it has each setting as it is there. -/
theorem exists_config : ∃ config, Reading.lenient.config? (.object top) = some config ∧
    IsMap config.logging.modules ∧ ∀ s : Setting, s.of? config = readSetting (.object top) s := by
  obtain ⟨options, hoptions, hsymlinks, hleafOrder, hdepth⟩ := h.exists_snapshot
  obtain ⟨debounce, hread, hdebounce⟩ := h.exists_debounce
  obtain ⟨logging, hlogging, hmap, henabled, hlevel, hformat, houtput, hfile, hcolor, hmodules⟩ :=
    h.exists_logging
  refine ⟨⟨options, debounce, logging⟩, ?_, hmap, fun s => ?_⟩
  · rw [Reading.config?]
    refine Option.bind_eq_some_iff.mpr ⟨.named top, rfl, ?_⟩
    refine Option.bind_eq_some_iff.mpr ⟨options, hoptions, ?_⟩
    refine Option.bind_eq_some_iff.mpr ⟨debounce, hread, ?_⟩
    exact Option.bind_eq_some_iff.mpr ⟨logging, hlogging, rfl⟩
  · cases s with
    | symlinks => exact hsymlinks.symm
    | leafOrder => exact hleafOrder.symm
    | maxLinkDepth => exact hdepth.symm
    | debounce => exact hdebounce.symm
    | enabled => exact henabled.symm
    | level => exact hlevel.symm
    | format => exact hformat.symm
    | output => exact houtput.symm
    | file => exact hfile.symm
    | color => exact hcolor.symm
    | module name => exact (hmodules name).symm

end IsReadable

/-- A source that has tables where settings have theirs, and for each setting that it gives a value of its
type. -/
structure IsWellTyped (source : Json) : Prop where
  fits (s : Setting) : FitsSource s.path source
  decodes (s : Setting) {value : Json} (h : Layer.set? s.path source = some value) :
    (s.decode? value).isSome

theorem isTableAlong_defaultSource (s : Setting) : IsTableAlong s.path defaultSource := by
  have hsnapshot (name : String) : IsTableAlong ["snapshot", name] defaultSource :=
    Layer.isTableAlong_of_get?_eq_some (by decide) rfl ⟨⟨_, rfl, by decide⟩, fun _ _ => trivial⟩
  have hlogging (name : String) : IsTableAlong ["logging", name] defaultSource :=
    Layer.isTableAlong_of_get?_eq_some (by decide) rfl ⟨⟨_, rfl, by decide⟩, fun _ _ => trivial⟩
  cases s with
  | symlinks | leafOrder | maxLinkDepth => exact hsnapshot _
  | debounce => exact Layer.isTableAlong_of_get?_eq_none (by decide) rfl
  | module name =>
    exact Layer.isTableAlong_of_get?_eq_some (by decide) rfl
      (Layer.isTableAlong_of_get?_eq_none (by decide) rfl)
  | _ => exact hlogging _

/-- The values that are set before all sources are those of the default configuration. -/
theorem valueAt?_defaultSource (s : Setting) : valueAt? s.path defaultSource = none ∨
    ∃ value default, valueAt? s.path defaultSource = some value ∧ s.decode? value = some default ∧
      s.default? = some default := by
  cases s with
  | symlinks => exact Or.inr ⟨.string "follow", .follow, rfl, by cbv, rfl⟩
  | leafOrder => exact Or.inr ⟨.string "name", .name, rfl, by cbv, rfl⟩
  | level => exact Or.inr ⟨.string "info", "info", rfl, rfl, rfl⟩
  | _ => exact Or.inl rfl

theorem decodes_highest {sources : List Json} (h : ∀ source ∈ sources, IsWellTyped source)
    (s : Setting) {value : Json} (hvalue : highest? s.path sources = some value) :
    (s.decode? value).isSome := by
  obtain ⟨source, hsource, hset⟩ := List.exists_of_findSome?_eq_some hvalue
  exact (h source (List.mem_reverse.mp hsource)).decodes s hset

theorem isLaid_merge {sources : List Json} (h : ∀ source ∈ sources, IsWellTyped source)
    (s : Setting) : Layer.IsLaid s.path (highest? s.path sources) defaultSource (merge sources) :=
  isLaid_foldl_addSource (isTableAlong_defaultSource s) fun source hsource => (h source hsource).fits s

theorem isReadable_merge {sources : List Json} (h : ∀ source ∈ sources, IsWellTyped source) :
    IsReadable (merge sources) where
  isTable s := (isLaid_merge h s).isTable
  decodes s value hvalue := by
    rw [(isLaid_merge h s).valueAt?] at hvalue
    rcases Option.or_eq_some_iff.mp hvalue with hvalue | ⟨-, hvalue⟩
    · exact decodes_highest h s hvalue
    · rcases valueAt?_defaultSource s with hnone | ⟨found, default, hfound, hdecode, -⟩
      · cases hnone.symm.trans hvalue
      · obtain rfl := Option.some_inj.mp (hfound.symm.trans hvalue)
        exact Option.isSome_of_eq_some hdecode

/-- Sources of the right types make a configuration that has each setting from the last that gives it. -/
theorem exists_settles {sources : List Json} (h : ∀ source ∈ sources, IsWellTyped source) :
    ∃ config : Config, Reading.lenient.config? (merge sources) = some config ∧
      config.Settles (Setting.set? sources) := by
  obtain ⟨⟨top, htop, -⟩, -⟩ := (isLaid_merge h .level).isTable
  obtain ⟨config, hconfig, hmap, hof⟩ := (htop ▸ isReadable_merge h).exists_config
  refine ⟨config, htop ▸ hconfig, hmap, fun s => ?_⟩
  rw [hof, ← htop, readSetting, (isLaid_merge h s).valueAt?, Setting.set?]
  cases hhighest : highest? s.path sources with
  | some value =>
    rfl
  | none =>
    rcases valueAt?_defaultSource s with hnone | ⟨found, default, hfound, hdecode, hdefault⟩
    · rw [hnone]
      rfl
    · rw [hfound, hdefault]
      exact congrArg (·.or (some default)) hdecode

theorem ofSources_eq {sources : List Json} {config : Config}
    (h : Reading.lenient.config? (merge sources) = some config) :
    ofSources sources = if config.faults = [] then .ok config else .error (.invalid config.faults) := by
  rw [ofSources, ofSettings, h]
  dsimp only
  split
  · rename_i hfaults
    rw [if_pos hfaults]
  · rename_i hfaults
    rw [if_neg hfaults]

end Config
end MerkleDir
