import Mathlib
import MerkleDir.Proofs.Config.RenderedSettings

/-!
# A rendered configuration loaded back

All settings are kept but for the names of modules, which come back in lower case. So a configuration is
loaded as it was if the names of its modules are in lower case.
-/
namespace MerkleDir.Config

open Layer (FitsSource IsTableAlong valueAt?)

/-- A table of modules is a time if its first name is the one under which times are kept. -/
def HoldsTime (modules : List (String × String)) : Prop :=
  modules.head?.map Prod.fst = some Toml.timeKey

theorem modulesValue?_of_not_holdsTime {modules : List (String × String)} (h : ¬ HoldsTime modules) :
    modulesValue? modules = some (.object (moduleFields modules)) := by
  cases modules with
  | nil => rfl
  | cons m modules =>
    have hheld : Toml.held? (itemsOf (moduleFields (m :: modules))) = none :=
      if_neg fun hname => h (congrArg some hname)
    rw [modulesValue?, Toml.tableJson?, hheld]
    rfl

theorem exists_string_of_holdsTime {modules : List (String × String)} (h : HoldsTime modules)
    {value : Json} (hvalue : modulesValue? modules = some value) : ∃ text, value = .string text := by
  cases modules with
  | nil => cases h
  | cons m modules =>
    have hheld : Toml.held? (itemsOf (moduleFields (m :: modules))) =
      some (.value (.string m.2)) := if_pos (Option.some_inj.mp h)
    rw [modulesValue?, Toml.tableJson?, hheld] at hvalue
    obtain ⟨time, -, rfl⟩ := Option.map_eq_some_iff.mp hvalue
    exact ⟨time.text, rfl⟩

/-- No configuration is read where the modules are no table. -/
theorem config?_eq_none {settings value : Json} (htable : IsTableAlong ["logging", "modules"] settings)
    (hvalue : valueAt? ["logging", "modules"] settings = some value)
    (hnone : Reading.lenient.modules? value = none) : Reading.lenient.config? settings = none := by
  obtain ⟨⟨top, rfl, hnodup⟩, hinner⟩ := htable
  obtain ⟨inner, hlogging, hmodules⟩ := Option.bind_eq_some_iff.mp hvalue
  obtain ⟨⟨fs, rfl, hfs⟩, -⟩ := hinner inner hlogging
  rw [Layer.valueAt?_singleton] at hmodules
  have hsection : Reading.lenient.logging? (.object fs) = none := by
    refine Option.eq_none_iff_forall_ne_some.mpr fun logging hread => ?_
    simp only [Reading.logging?, Option.bind_eq_bind, Option.bind_eq_some_iff] at hread
    obtain ⟨record, hrecord, -, -, -, -, -, -, -, -, -, -, -, -, modules, hread, -⟩ := hread
    obtain rfl : Record.named fs = record := Option.some_inj.mp hrecord
    rw [Record.read_eq hfs, hmodules] at hread
    cases hnone.symm.trans hread
  refine Option.eq_none_iff_forall_ne_some.mpr fun config hread => ?_
  simp only [Reading.config?, Option.bind_eq_bind, Option.bind_eq_some_iff] at hread
  obtain ⟨record, hrecord, -, -, -, -, logging, hread, -⟩ := hread
  obtain rfl : Record.named top = record := Option.some_inj.mp hrecord
  rw [Record.read_eq hnodup, hlogging] at hread
  cases hsection.symm.trans hread

theorem isTableAlong_modules : IsTableAlong ["logging", "modules"] defaultSource :=
  Layer.isTableAlong_of_get?_eq_some (by decide) rfl ⟨⟨_, rfl, by decide⟩, fun _ _ => trivial⟩

theorem ofSources_string (config : Config) (file text : String) :
    ofSources [.object (config.settingsFields file (.string text))] = .error .mistyped := by
  have hfits : FitsSource ["logging", "modules"]
      (.object (config.settingsFields file (.string text))) :=
    fitsSource_settingsFields (hasTable_logging _ _ _) fun value hvalue => by
      obtain rfl := Option.some_inj.mp hvalue
      exact nofun
  have hset : Layer.set? ["logging", "modules"]
      (.object (config.settingsFields file (.string text))) = some (.string text) := by
    rw [set?_settingsFields (hasTable_logging _ _ _)]
    rfl
  have hlaid := Layer.isLaid_addSource isTableAlong_modules hfits
  have hvalue := hlaid.valueAt?
  rw [hset, Option.some_or] at hvalue
  have hnone := config?_eq_none hlaid.isTable hvalue rfl
  have hmerge (source : Json) : ofSources [source] = ofSettings (Layer.addSource defaultSource source) :=
    rfl
  rw [hmerge, ofSettings, hnone]

structure IsTomlFile (fs : FileSystem) (path : Path) (text : String) : Prop where
  fileContent_eq : fs.fileContent path = .ok (Utf8.encode text)
  extension_eq : extension path = FileFormat.toml.extension

namespace IsTomlFile

variable {fs : FileSystem} {path : Path} {text : String}

theorem isFile (h : IsTomlFile fs path text) : isFile fs path = true := by
  have hcontent := h.fileContent_eq
  rw [FileSystem.fileContent] at hcontent
  rw [Config.isFile]
  split at hcontent
  · rename_i hstat
    rw [hstat]
  · cases hcontent
  · cases hcontent
  · cases hcontent

theorem fileText_eq (h : IsTomlFile fs path text) : fileText fs path = .ok (text, path, .toml) := by
  have hformat : FileFormat.all.find? (·.extension == extension path) = some .toml := by
    rw [h.extension_eq]
    rfl
  rw [fileText, findFile, if_pos h.isFile, hformat]
  dsimp only
  rw [h.fileContent_eq]
  dsimp only
  rw [Utf8.decode?_encode]

theorem loadFile_eq (h : IsTomlFile fs path text) : loadFile fs path =
    match Toml.parse? text with
    | some value => ofSources [value]
    | none => .error (.malformed path) := by
  have hsource : fileSource fs path = parseText (text, path, .toml) := by
    rw [fileSource, h.fileText_eq]
    rfl
  rw [loadFile, hsource, parseText, FileFormat.parse?]
  cases Toml.parse? text <;> rfl

end IsTomlFile

theorem withModules_eq_self_iff {config : Config} {modules : List (String × String)} :
    config.withModules modules = config ↔ modules = config.logging.modules := by
  constructor
  · exact congrArg fun c : Config => c.logging.modules
  · rintro rfl
    rfl

/-- What comes of a valid configuration that is rendered to a file and loaded from it. -/
theorem exists_loadFile {config : Config} {file : String}
    (hnodup : (config.logging.modules.map Prod.fst).Nodup) (hvalid : config.faults = [])
    (h : config.IsRenderable file) :
    ∃ text, config.render = .ok text ∧ ∀ fs path, IsTomlFile fs path text →
      (¬ HoldsTime config.logging.modules →
        loadFile fs path = .ok (config.withModules (lowerModules config.logging.modules))) ∧
      (HoldsTime config.logging.modules → ∃ e, loadFile fs path = .error e) := by
  obtain ⟨text, hrender, htext⟩ := exists_render h
  refine ⟨text, hrender, fun fs path hfile => ⟨fun htime => ?_, fun htime => ?_⟩⟩
  · rw [hfile.loadFile_eq, parse?_eq hnodup htext, modulesValue?_of_not_holdsTime htime]
    exact ofSources_renderedSource h hvalid
  · rw [hfile.loadFile_eq, parse?_eq hnodup htext]
    cases hmodules : modulesValue? config.logging.modules with
    | none => exact ⟨_, rfl⟩
    | some value =>
      obtain ⟨time, rfl⟩ := exists_string_of_holdsTime htime hmodules
      exact ⟨_, ofSources_string config file time⟩

/-- In whatever order the modules of a valid configuration are rendered, it is loaded as it was exactly if
their names are in lower case and no time is read for them; otherwise the names come back in lower case, or
nothing is loaded. -/
theorem loadFile_rendered_eq_ok_iff {config : Config} {file : String}
    {order : List (String × String)} (hmap : IsMap config.logging.modules)
    (horder : order.Perm config.logging.modules) (hvalid : config.faults = [])
    (h : config.IsRenderable file) :
    ∃ text, (config.withModules order).render = .ok text ∧ ∀ fs path, IsTomlFile fs path text →
      (loadFile fs path = .ok config ↔ ¬ HoldsTime order ∧
        ∀ m ∈ config.logging.modules, lowerCase m.1 = m.1) ∧
      (¬ HoldsTime order → loadFile fs path = .ok (config.withModules (lowerModules order))) := by
  have hnodup : (order.map Prod.fst).Nodup := (horder.map Prod.fst).nodup_iff.mpr hmap.nodup
  obtain ⟨text, hrender, hload⟩ := @exists_loadFile (config.withModules order) file hnodup
    hvalid ⟨h.maxLinkDepth, h.debounce, h.file⟩
  refine ⟨text, hrender, fun fs path hfile => ⟨?_, (hload fs path hfile).1⟩⟩
  by_cases htime : HoldsTime order
  · obtain ⟨e, herror⟩ := (hload fs path hfile).2 htime
    rw [herror]
    exact iff_of_false nofun fun hlower => hlower.1 htime
  · have hloaded : loadFile fs path = .ok (config.withModules (lowerModules order)) :=
      (hload fs path hfile).1 htime
    rw [hloaded, Except.ok.injEq, withModules_eq_self_iff, lowerModules_eq_iff horder hmap]
    exact (and_iff_right htime).symm

def withNames (names : List String) : Config := Config.default.withModules (names.map (·, "debug"))

def fileName : String := "c.toml"

def fileSystemOf (content : Bytes) : FileSystem where
  times := .bits34
  root := .directory true [(Utf8.encode fileName, .file ⟨0, 0⟩ content)]
  isWellFormed := by
    have hname : Node.isEntryName (Utf8.encode fileName) = true := by decide +kernel
    refine Node.isWellFormed_directory.mpr ⟨List.nodup_singleton _, fun e he => ?_⟩
    rw [List.mem_singleton.mp he]
    exact ⟨hname, rfl⟩

theorem fileContent_fileSystemOf (content : Bytes) :
    (fileSystemOf content).fileContent (.ofText fileName) = .ok content := by
  have hlocate : (fileSystemOf content).locate (.ofText fileName) true =
    .ok [[99, 46, 116, 111, 109, 108]] := by cbv
  have hstat : (fileSystemOf content).stat (.ofText fileName) = .ok (.file ⟨0, 0⟩ content) :=
    FileSystem.stat_of_locate hlocate rfl
  rw [FileSystem.fileContent, hstat]

theorem isTomlFile_fileSystemOf (text : String) :
    IsTomlFile (fileSystemOf (Utf8.encode text)) (.ofText fileName) text :=
  ⟨fileContent_fileSystemOf _, by decide +kernel⟩

theorem isRenderable_withNames (names : List String) :
    (withNames names).IsRenderable "treesync.log" where
  maxLinkDepth := by
    show 32 < Decimal.signedBound
    decide
  debounce := by
    show 200 < Decimal.signedBound
    decide
  file := rfl

theorem faults_withNames (names : List String) : (withNames names).faults = [] := by
  show Config.default.faults = []
  decide

theorem not_holdsTime_cons {m : String × String} {modules : List (String × String)}
    (h : m.1 ≠ Toml.timeKey) : ¬ HoldsTime (m :: modules) :=
  fun htime => h (Option.some_inj.mp htime)

/-- Two modules, of which the later one is rendered first. -/
theorem loadFile_rendered_lowerCaseModules : ∃ text,
    ((withNames ["a", "b"]).withModules [("b", "debug"), ("a", "debug")]).render = .ok text ∧
      loadFile (fileSystemOf (Utf8.encode text)) (.ofText fileName) =
        .ok (withNames ["a", "b"]) := by
  have hmap : IsMap (withNames ["a", "b"]).logging.modules :=
    List.pairwise_pair.mpr (show "a" < "b" by decide)
  obtain ⟨text, hrender, hload⟩ := loadFile_rendered_eq_ok_iff hmap (.swap _ _ _)
    (faults_withNames _) (isRenderable_withNames _)
  refine ⟨text, hrender, (hload _ _ (isTomlFile_fileSystemOf text)).1.mpr ⟨?_, ?_⟩⟩
  · exact not_holdsTime_cons (by decide)
  · exact List.forall_mem_cons.mpr ⟨show lowerCase "a" = "a" by decide +kernel,
      List.forall_mem_singleton.mpr (show lowerCase "b" = "b" by decide +kernel)⟩

/-- A module comes back under another name. -/
theorem loadFile_rendered_upperCaseModule :
    ∃ text, (withNames ["A"]).render = .ok text ∧ (withNames ["A"]).faults = [] ∧
      loadFile (fileSystemOf (Utf8.encode text)) (.ofText fileName) = .ok (withNames ["a"]) ∧
      withNames ["a"] ≠ withNames ["A"] := by
  obtain ⟨text, hrender, hload⟩ := @exists_loadFile (withNames ["A"]) _ (List.nodup_singleton "A")
    (faults_withNames ["A"]) (isRenderable_withNames ["A"])
  have hloaded := (hload _ _ (isTomlFile_fileSystemOf text)).1 (not_holdsTime_cons (by decide))
  have hmodules : lowerModules [("A", "debug")] = [("a", "debug")] := by decide +kernel
  refine ⟨text, hrender, faults_withNames ["A"], ?_, by decide⟩
  rw [hloaded]
  exact congrArg (fun modules => Except.ok (Config.default.withModules modules)) hmodules

end MerkleDir.Config
