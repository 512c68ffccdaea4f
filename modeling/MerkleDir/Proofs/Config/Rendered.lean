import Mathlib
import MerkleDir.Proofs.Config.Layers
import MerkleDir.Proofs.Text.Utf8
import MerkleDir.Proofs.Toml.Lines
import MerkleDir.Toml.Document

namespace MerkleDir.Config

open Toml

/-- A configuration that TOML can hold: its integers fit, and its log file is text. -/
structure IsRenderable (config : Config) (file : String) : Prop where
  maxLinkDepth : config.snapshot.maxLinkDepth < Decimal.signedBound
  debounce : config.debounce < Decimal.signedBound
  file : config.logging.file = .ofText file

def snapshotStatements (options : SnapshotOptions) : List Statement :=
  [.table ["snapshot"],
    .assignment ["symlinks"] (.string options.symlinks.text),
    .assignment ["leaf_order"] (.string options.leafOrder.text),
    .assignment ["max_symlink_depth"] (.integer options.maxLinkDepth)]

def watchStatements (debounce : Nat) : List Statement :=
  [.table ["watch"], .assignment ["debounce_ms"] (.integer debounce)]

def loggingStatements (logging : LoggingConfig) (file : String) : List Statement :=
  [.table ["logging"],
    .assignment ["enabled"] (.bool logging.enabled),
    .assignment ["level"] (.string logging.level),
    .assignment ["format"] (.string logging.format),
    .assignment ["output"] (.string logging.output),
    .assignment ["file"] (.string file),
    .assignment ["color"] (.bool logging.color)]

def moduleStatements (modules : List (String × String)) : List Statement :=
  .table ["logging", "modules"] :: modules.map fun m => .assignment [m.1] (.string m.2)

def statements (config : Config) (file : String) : List Statement :=
  snapshotStatements config.snapshot ++ watchStatements config.debounce ++
    loggingStatements config.logging file ++ moduleStatements config.logging.modules

section Text

variable {first second : String} {sts later : List Statement}

theorem isText_append (h : IsText first.toList sts) (hlater : IsText second.toList later) :
    IsText (first ++ second).toList (sts ++ later) := by
  rw [String.toList_append]
  exact h.append hlater

theorem isText_lineFeed : IsText "\n".toList [] := .blank .nil

theorem isText_header {line : String} {path : KeyPath} (header : String)
    (hline : line = "[" ++ header ++ "\n")
    (hread : ∀ rest, Statement.read? ('[' :: header.toList ++ '\n' :: rest) =
      some (.table path, '\n' :: rest)) : IsText line.toList [.table path] := by
  have htext : line.toList = ('[' :: header.toList) ++ ['\n'] := by
    rw [hline, String.toList_append, String.toList_append]
    rfl
  rw [htext]
  exact .single ⟨⟨'[', header.toList, rfl, rfl⟩, hread⟩

end Text

theorem isText_setting {name value key : String} {term : Term}
    (hkey : ∀ rest, Toml.key? (name.toList ++ ' ' :: rest) = some (key, ' ' :: rest))
    (hvalue : IsTerm value.toList term) :
    IsText (setting name value).toList [.assignment [key] term] := by
  have htext : (setting name value).toList = settingLine name.toList value.toList ++ ['\n'] := by
    have hequals : " = ".toList = [' ', '=', ' '] := rfl
    have hfeed : "\n".toList = ['\n'] := rfl
    rw [setting, String.toList_append, String.toList_append, String.toList_append, hequals, hfeed,
      settingLine]
    simp
  rw [htext]
  exact .single (isLine_setting hkey hvalue)

theorem isText_bareSetting (name : String) {value : String} {term : Term}
    (hne : name.toList ≠ []) (hbare : name.toList.all isBareKeyChar = true)
    (hvalue : IsTerm value.toList term) :
    IsText (setting name value).toList [.assignment [name] term] := by
  refine isText_setting (fun rest => ?_) hvalue
  rw [key?_bare hne hbare rfl, String.ofList_toList]

theorem renderNat_eq {n : Nat} (hn : n < Decimal.signedBound) : renderNat n = .ok (toString n) :=
  if_pos hn

theorem exists_renderSnapshot {options : SnapshotOptions}
    (h : options.maxLinkDepth < Decimal.signedBound) :
    ∃ text, renderSnapshot options = .ok text ∧ IsText text.toList (snapshotStatements options) := by
  refine ⟨_, by rw [renderSnapshot, renderNat_eq h]; rfl, ?_⟩
  have hheader : IsText "[snapshot]\n".toList [.table ["snapshot"]] :=
    isText_header "snapshot]" rfl fun _ => rfl
  exact isText_append (isText_append (isText_append hheader
    (isText_bareSetting "symlinks" (List.cons_ne_nil _ _) rfl (isTerm_string _)))
    (isText_bareSetting "leaf_order" (List.cons_ne_nil _ _) rfl (isTerm_string _)))
    (isText_bareSetting "max_symlink_depth" (List.cons_ne_nil _ _) rfl (isTerm_nat h))

theorem isText_renderModules (modules : List (String × String)) :
    IsText (renderModules modules).toList (moduleStatements modules) := by
  have hheader : IsText "[logging.modules]\n".toList [.table ["logging", "modules"]] :=
    isText_header "logging.modules]" rfl fun _ => rfl
  refine isText_append hheader ?_
  induction modules with
  | nil => exact .nil
  | cons m modules ih =>
    rw [List.map_cons, List.map_cons, String.join_cons]
    exact isText_append (isText_setting (key?_key m.1) (isTerm_string m.2)) ih

theorem exists_renderLogging {logging : LoggingConfig} {file : String}
    (h : logging.file = .ofText file) : ∃ text, renderLogging logging = .ok text ∧
      IsText text.toList (loggingStatements logging file ++ moduleStatements logging.modules) := by
  have hfile : renderPath logging.file = .ok (Toml.string file) := by
    rw [h, renderPath, Path.text?, Path.ofText, Utf8.decode?_encode]
  refine ⟨_, by rw [renderLogging, hfile]; rfl, ?_⟩
  have hheader : IsText "[logging]\n".toList [.table ["logging"]] :=
    isText_header "logging]" rfl fun _ => rfl
  have hsettings := isText_append (isText_append (isText_append (isText_append (isText_append
    (isText_append hheader
    (isText_bareSetting "enabled" (List.cons_ne_nil _ _) rfl (isTerm_bool logging.enabled)))
    (isText_bareSetting "level" (List.cons_ne_nil _ _) rfl (isTerm_string logging.level)))
    (isText_bareSetting "format" (List.cons_ne_nil _ _) rfl (isTerm_string logging.format)))
    (isText_bareSetting "output" (List.cons_ne_nil _ _) rfl (isTerm_string logging.output)))
    (isText_bareSetting "file" (List.cons_ne_nil _ _) rfl (isTerm_string file)))
    (isText_bareSetting "color" (List.cons_ne_nil _ _) rfl (isTerm_bool logging.color))
  exact isText_append (isText_append hsettings isText_lineFeed) (isText_renderModules logging.modules)

theorem exists_render {config : Config} {file : String} (h : config.IsRenderable file) :
    ∃ text, config.render = .ok text ∧ IsText text.toList (config.statements file) := by
  obtain ⟨snapshot, hsnapshot, hfirst⟩ := exists_renderSnapshot h.maxLinkDepth
  obtain ⟨logging, hlogging, hlast⟩ := exists_renderLogging h.file
  refine ⟨_, by rw [render, hsnapshot, renderNat_eq h.debounce, hlogging]; rfl, ?_⟩
  have hheader : IsText "[watch]\n".toList [.table ["watch"]] :=
    isText_header "watch]" rfl fun _ => rfl
  have hsplit : "\n[watch]\n" = "\n" ++ "[watch]\n" := rfl
  have hwatch := isText_bareSetting "debounce_ms" (List.cons_ne_nil _ _) rfl (isTerm_nat h.debounce)
  have htext := isText_append (isText_append (isText_append
    (isText_append hfirst (isText_append isText_lineFeed hheader)) hwatch) isText_lineFeed) hlast
  simpa [statements, watchStatements, hsplit] using htext

def snapshotFields (options : SnapshotOptions) : List (String × Json) :=
  [("symlinks", .string options.symlinks.text), ("leaf_order", .string options.leafOrder.text),
    ("max_symlink_depth", .integer options.maxLinkDepth)]

def watchFields (debounce : Nat) : List (String × Json) := [("debounce_ms", .integer debounce)]

def loggingFields (logging : LoggingConfig) (file : String) : List (String × Json) :=
  [("enabled", .bool logging.enabled), ("level", .string logging.level),
    ("format", .string logging.format), ("output", .string logging.output), ("file", .string file),
    ("color", .bool logging.color)]

def moduleFields (modules : List (String × String)) : List (String × Json) :=
  modules.map fun m => (m.1, .string m.2)

def itemsOf (fields : List (String × Json)) : Entries := fields.map fun f => (f.1, .value f.2)

def loggingItems (logging : LoggingConfig) (file : String) (modules : Entries) : Entries :=
  itemsOf (loggingFields logging file) ++ [("modules", .table .header modules)]

/-- What has been read where the table of the modules has these entries. -/
def documentWith (config : Config) (file : String) (modules : Entries) : Document :=
  ⟨[("snapshot", .table .header (itemsOf (snapshotFields config.snapshot))),
    ("watch", .table .header (itemsOf (watchFields config.debounce))),
    ("logging", .table .header (loggingItems config.logging file modules))], ["logging", "modules"]⟩

theorem addAll?_settings (config : Config) (file : String) :
    Document.empty.addAll? (snapshotStatements config.snapshot ++ watchStatements config.debounce ++
      loggingStatements config.logging file ++ [.table ["logging", "modules"]]) =
      some (config.documentWith file []) := by
  cbv

theorem put_of_notMem {name : String} (item : Item) {entries : Entries}
    (h : name ∉ entries.map Prod.fst) : Entries.put name item entries = entries ++ [(name, item)] := by
  induction entries with
  | nil => rfl
  | cons entry entries ih =>
    rw [List.map_cons, List.mem_cons, not_or] at h
    rw [Entries.put, if_neg (Ne.symm h.1), ih h.2, List.cons_append]

theorem assign?_of_notMem {name : String} (item : Item) {entries : Entries}
    (h : name ∉ entries.map Prod.fst) :
    Entries.assign? item [name] true entries = some (entries ++ [(name, item)]) := by
  have hget : entries.get? name = none := Layer.lookup_eq_none_of_notMem h
  rw [Entries.assign?, hget, put_of_notMem item h]
  rfl

/-- A module is assigned in its table, which is that of the header in force. -/
theorem add?_documentWith (config : Config) (file : String) {modules : Entries} {m : String × String}
    (h : m.1 ∉ modules.map Prod.fst) :
    (config.documentWith file modules).add? (.assignment [m.1] (.string m.2)) =
      some (config.documentWith file (modules ++ [(m.1, .value (.string m.2))])) := by
  have hmodules : assignIn [m.1] (.value (.string m.2)) "modules"
      (loggingItems config.logging file modules) =
        some (loggingItems config.logging file (modules ++ [(m.1, .value (.string m.2))])) := by
    show Option.map _ (Entries.assign? (.value (.string m.2)) [m.1] true modules) = _
    rw [assign?_of_notMem _ h]
    rfl
  show Option.map _ (Option.map _ (assignIn [m.1] (.value (.string m.2)) "modules"
    (loggingItems config.logging file modules))) = _
  rw [hmodules]
  rfl

/-- By induction on the modules: each is put behind those that have been read. -/
theorem addAll?_modules (config : Config) (file : String) {modules : List (String × String)}
    {entries : Entries} (hnodup : (entries.map Prod.fst ++ modules.map Prod.fst).Nodup) :
    (config.documentWith file entries).addAll?
        (modules.map fun m => .assignment [m.1] (.string m.2)) =
      some (config.documentWith file (entries ++ itemsOf (moduleFields modules))) := by
  induction modules generalizing entries with
  | nil => exact congrArg (some <| config.documentWith file ·) (List.append_nil entries).symm
  | cons m modules ih =>
    have hfresh : m.1 ∉ entries.map Prod.fst := fun hm =>
      (List.nodup_append.mp hnodup).2.2 _ hm _ List.mem_cons_self rfl
    have hlater : ((entries ++ [(m.1, Item.value (.string m.2))]).map Prod.fst ++
        modules.map Prod.fst).Nodup := by simpa using hnodup
    have hrest := ih hlater
    rw [Document.addAll?] at hrest
    rw [List.map_cons, Document.addAll?, List.foldlM_cons, config.add?_documentWith file hfresh]
    simp [hrest, moduleFields, itemsOf]

theorem addAll?_statements {config : Config} (file : String)
    (hnodup : (config.logging.modules.map Prod.fst).Nodup) :
    Document.empty.addAll? (config.statements file) =
      some (config.documentWith file (itemsOf (moduleFields config.logging.modules))) := by
  have hsettings := config.addAll?_settings file
  have hmodules : (config.documentWith file []).addAll? _ = _ := config.addAll?_modules file hnodup
  rw [Document.addAll?] at hsettings hmodules ⊢
  rw [statements, moduleStatements, List.append_cons, List.foldlM_append, hsettings]
  exact hmodules

def settingsFields (config : Config) (file : String) (modules : Json) : List (String × Json) :=
  [("snapshot", .object (snapshotFields config.snapshot)),
    ("watch", .object (watchFields config.debounce)),
    ("logging", .object (loggingFields config.logging file ++ [("modules", modules)]))]

/-- A table of modules is a time if its first name is the one under which times are kept. -/
def modulesValue? (modules : List (String × String)) : Option Json :=
  tableJson? (itemsOf (moduleFields modules)) (some (moduleFields modules))

theorem fieldsJson?_append (fields : List (String × Json)) (later : Entries) :
    fieldsJson? (itemsOf fields ++ later) = (fieldsJson? later).map (fields ++ ·) := by
  induction fields with
  | nil => exact Option.map_id'.symm
  | cons field fields ih =>
    have hcons : itemsOf (field :: fields) ++ later =
      (field.1, .value field.2) :: (itemsOf fields ++ later) := rfl
    rw [hcons, fieldsJson?, ih]
    cases fieldsJson? later <;> rfl

theorem fieldsJson?_itemsOf (fields : List (String × Json)) :
    fieldsJson? (itemsOf fields) = some fields := by
  rw [← List.append_nil (itemsOf fields), fieldsJson?_append, fieldsJson?, Option.map_some,
    List.append_nil]

section Value

variable (config : Config) (file : String)

theorem json?_loggingItems :
    Item.json? (.table .header (loggingItems config.logging file
        (itemsOf (moduleFields config.logging.modules)))) =
      (modulesValue? config.logging.modules).map fun modules =>
        .object (loggingFields config.logging file ++ [("modules", modules)]) := by
  have hmodules : Item.json? (.table .header (itemsOf (moduleFields config.logging.modules))) =
      modulesValue? config.logging.modules := by
    rw [Item.json?, fieldsJson?_itemsOf, modulesValue?]
  have hheld (entries : Entries) : held? (loggingItems config.logging file entries) = none := rfl
  rw [Item.json?, tableJson?, hheld, loggingItems, fieldsJson?_append, fieldsJson?, hmodules]
  cases modulesValue? config.logging.modules <;> rfl

theorem fieldsJson?_documentWith :
    fieldsJson? (config.documentWith file (itemsOf (moduleFields config.logging.modules))).entries =
      (modulesValue? config.logging.modules).map (config.settingsFields file) := by
  have hsnapshot : Item.json? (.table .header (itemsOf (snapshotFields config.snapshot))) =
    some (.object (snapshotFields config.snapshot)) := rfl
  have hwatch : Item.json? (.table .header (itemsOf (watchFields config.debounce))) =
    some (.object (watchFields config.debounce)) := rfl
  rw [documentWith, fieldsJson?, fieldsJson?, fieldsJson?, hsnapshot, hwatch, json?_loggingItems]
  cases modulesValue? config.logging.modules <;> rfl

end Value

theorem parse?_eq {config : Config} {file text : String}
    (hnodup : (config.logging.modules.map Prod.fst).Nodup)
    (htext : IsText text.toList (config.statements file)) :
    parse? text =
      (modulesValue? config.logging.modules).map fun modules =>
        .object (config.settingsFields file modules) := by
  have hheld (entries : Entries) : held? (config.documentWith file entries).entries = none := rfl
  rw [parse?, htext.statements?_eq, Option.bind_some, addAll?_statements file hnodup,
    Option.bind_some, hheld]
  dsimp only
  rw [fieldsJson?_documentWith, Option.map_map]
  rfl

end MerkleDir.Config
