import Mathlib
import MerkleDir.Command.Program
import MerkleDir.Proofs.Config.Settings

/-!
# Which value of a setting counts

The command line over the environment, that over a file that is asked for, that over the global one, and
all over the defaults. The sources below the command line have to be valid without it, so a log format or
output that it overrides can still make a run fail.
-/
namespace MerkleDir

def Setting.flag? (invocation : Invocation) : (s : Setting) → Option s.Value
  | .symlinks => invocation.symlinks
  | .level => invocation.logLevel.or (if invocation.verbose then some "debug" else none)
  | .format => invocation.logFormat
  | .output => invocation.logOutput
  | .file => invocation.logFile
  | .leafOrder | .maxLinkDepth | .debounce | .enabled | .color | .module _ => none

namespace Config

variable {config : Config} {value : (s : Setting) → Option s.Value} {invocation : Invocation}

theorem Settles.override (h : config.Settles value) (invocation : Invocation) :
    (config.override invocation).Settles fun s => (s.flag? invocation).or (value s) where
  isMap := h.isMap
  of? s := by
    rw [Option.or_assoc, ← h.of? s]
    have hgetD {α : Type} (flag : Option α) (a : α) : some (flag.getD a) = flag.or (some a) :=
      Option.or_some.symm
    cases s with
    | symlinks => exact hgetD _ _
    | level =>
      show some (invocation.logLevel.getD _) = (Option.or _ _).or (some config.logging.level)
      rw [hgetD, Option.or_assoc]
      cases invocation.verbose <;> rfl
    | format => exact hgetD _ _
    | output => exact hgetD _ _
    | file => exact hgetD _ _
    | _ => rfl

/-- All that has to be valid but the format and the output is as it was. -/
theorem faults_eq_nil_iff_of_override (h : (config.override invocation).faults = []) :
    config.faults = [] ↔ config.logging.fault? = none := by
  have hfirst := List.append_eq_nil_iff.mp h
  have hbefore := List.append_eq_nil_iff.mp hfirst.1
  rw [faults, List.append_eq_nil_iff, List.append_eq_nil_iff]
  constructor
  · rintro ⟨-, hlogging⟩
    cases hfault : config.logging.fault? with
    | none => rfl
    | some e =>
      rw [hfault] at hlogging
      cases hlogging
  · intro hnone
    refine ⟨hbefore, ?_⟩
    rw [hnone]
    rfl

theorem value_load (fs : FileSystem) (env : Environment) (file : Option Path) :
    (load fs env file).value = (sources fs env file).bind ofSources := by
  rw [load]
  split <;> rfl

end Config

namespace Program

/-- Files, variables and a command line, where the files can be read and what files and variables give
has the types of the settings. -/
structure Combination where
  fs : FileSystem
  env : Environment
  invocation : Invocation
  sources : List Json
  isRead : Config.sources fs env invocation.config = .ok sources
  isWellTyped : ∀ source ∈ sources, Config.IsWellTyped source

namespace Combination

def configured (c : Combination) : Except Failure Config := configure c.fs c.env c.invocation

def below (c : Combination) (s : Setting) : Option s.Value := s.set? c.sources

def highest (c : Combination) (s : Setting) : Option s.Value :=
  (s.flag? c.invocation).or (c.below s)

/-- How a combination is handled: what is loaded and then what is in effect has to be valid. -/
structure IsHandled (c : Combination) (loaded effective : Config) : Prop where
  settles_below : loaded.Settles c.below
  settles_highest : effective.Settles c.highest
  eq_override : effective = loaded.override c.invocation
  configured_eq : c.configured =
    if loaded.faults ≠ [] then .error (.load (.invalid loaded.faults))
    else if effective.faults ≠ [] then .error (.options effective.faults)
    else .ok effective

theorem exists_isHandled (c : Combination) : ∃ loaded effective, c.IsHandled loaded effective := by
  obtain ⟨config, hconfig, hsettles⟩ := Config.exists_settles c.isWellTyped
  refine ⟨config, config.override c.invocation, hsettles, hsettles.override c.invocation, rfl,
    ?_⟩
  have hload : (Config.load c.fs c.env c.invocation.config).value = Config.ofSources c.sources := by
    rw [Config.value_load, c.isRead]
    rfl
  rw [Combination.configured, configure, hload, Config.ofSources_eq hconfig]
  by_cases hloaded : config.faults = []
  · rw [if_pos hloaded, if_neg (not_not_intro hloaded)]
    dsimp only
    split
    · rename_i hfaults
      rw [if_neg (not_not_intro hfaults)]
    · rename_i hfaults
      rw [if_pos hfaults]
  · rw [if_neg hloaded, if_pos hloaded]

namespace IsHandled

variable {c : Combination} {loaded effective config : Config}

theorem configured_eq_ok_iff (h : c.IsHandled loaded effective) : c.configured = .ok config ↔
    effective.faults = [] ∧ loaded.logging.fault? = none ∧ config = effective := by
  have hfaults (hvalid : effective.faults = []) :
      loaded.faults = [] ↔ loaded.logging.fault? = none :=
    Config.faults_eq_nil_iff_of_override (h.eq_override ▸ hvalid)
  rw [h.configured_eq]
  constructor
  · intro hok
    split_ifs at hok with hloaded hinvalid
    have hvalid := not_not.mp hinvalid
    exact ⟨hvalid, (hfaults hvalid).mp (not_not.mp hloaded), (Except.ok.inj hok).symm⟩
  · rintro ⟨hvalid, hfault, rfl⟩
    rw [if_neg (not_not_intro ((hfaults hvalid).mpr hfault)), if_neg (not_not_intro hvalid)]

end IsHandled

/-- Each setting has the value of the highest source that gives it. A valid configuration is refused
exactly if the log format or output below the command line is not valid; so the values that are overridden
count for nothing but for these. -/
theorem exists_highest (c : Combination) : ∃ loaded effective, c.IsHandled loaded effective ∧
    (∀ config, c.configured = .ok config ↔
      effective.faults = [] ∧ loaded.logging.fault? = none ∧ config = effective) ∧
    ∀ other : Combination, (∀ s, other.highest s = c.highest s) →
      ∃ otherLoaded, other.IsHandled otherLoaded effective ∧
        ((∀ config, c.configured = .ok config ↔ other.configured = .ok config) ↔
          (effective.faults = [] →
            (loaded.logging.fault? = none ↔ otherLoaded.logging.fault? = none))) := by
  obtain ⟨loaded, effective, h⟩ := c.exists_isHandled
  refine ⟨loaded, effective, h, fun config => h.configured_eq_ok_iff, fun other hsame => ?_⟩
  obtain ⟨otherLoaded, found, hother⟩ := other.exists_isHandled
  have hfound : found.Settles c.highest := funext hsame ▸ hother.settles_highest
  obtain rfl : found = effective := hfound.unique h.settles_highest
  refine ⟨otherLoaded, hother, ?_⟩
  simp only [h.configured_eq_ok_iff, hother.configured_eq_ok_iff]
  constructor
  · intro hboth hvalid
    have heq := hboth found
    simpa [hvalid] using heq
  · intro hfault config
    exact and_congr_right fun hvalid => and_congr_left' (hfault hvalid)

def logFormatSteps : List Config.Layer.Step := [.field "logging", .field "format"]

theorem set?_logFormat (text : String) (path : List String) :
    Config.Layer.set? path (.object [("logging.format", .string text)]) =
      Config.Layer.givenAfter? (.string text) logFormatSteps path := by
  have hsteps : Config.Layer.stepsOf (lowerCase "logging.format") = logFormatSteps := by
    decide +kernel
  rw [← hsteps]
  exact List.findSome?_singleton

theorem isWellTyped_empty : Config.IsWellTyped (.object []) := ⟨fun _ => ⟨nofun⟩, fun _ => nofun⟩

theorem isWellTyped_logFormat (text : String) :
    Config.IsWellTyped (.object [("logging.format", .string text)]) := by
  have hsteps : Config.Layer.stepsOf (lowerCase "logging.format") = logFormatSteps := by
    decide +kernel
  constructor
  · refine fun s => ⟨fun field hfield => ?_⟩
    obtain rfl := List.mem_singleton.mp hfield
    rw [hsteps]
    cases s with
    | symlinks | leafOrder | maxLinkDepth | debounce => exact fun h => absurd h (by decide)
    | format => exact fun _ _ _ h => by cases h
    | _ => exact fun _ h => absurd h (by decide)
  · intro s value hvalue
    rw [set?_logFormat] at hvalue
    cases s with
    | format =>
      obtain rfl : Json.string text = value := Option.some_inj.mp hvalue
      rfl
    | _ => cases hvalue

theorem source_logFormat {text : String} (htext : Config.Variables.value text = .string text) :
    Config.Variables.source [("TREESYNC__LOGGING__FORMAT", text)] =
      .object [("logging.format", .string text)] := by
  have hkey : Config.Variables.key? "TREESYNC__LOGGING__FORMAT" = some "logging.format" := by
    decide +kernel
  rw [Config.Variables.source, List.filterMap_cons, Config.Variables.field?, hkey, htext]
  rfl

/-- A variable gives the log format, and the command line another. -/
def overriding (text : String) (htext : Config.Variables.value text = .string text) :
    Combination where
  fs := .empty
  env := [("TREESYNC__LOGGING__FORMAT", text)]
  invocation := ⟨.config, none, false, none, some "json", none, none, none⟩
  sources := [.object [], .object [], .object [("logging.format", .string text)]]
  isRead := by
    have hglobal : Config.globalPath [("TREESYNC__LOGGING__FORMAT", text)] = Config.globalPath [] := rfl
    have habsent : Config.isPresent .empty (Config.globalPath []) = false := by cbv
    rw [Config.sources, source_logFormat htext, hglobal, habsent]
    rfl
  isWellTyped := by
    intro source hsource
    simp only [List.mem_cons, List.not_mem_nil, or_false] at hsource
    rcases hsource with rfl | rfl | rfl
    · exact isWellTyped_empty
    · exact isWellTyped_empty
    · exact isWellTyped_logFormat text

def withFormat (format : String) : Config :=
  { Config.default with logging := { LoggingConfig.default with format } }

theorem below_overriding {text : String} (htext : Config.Variables.value text = .string text)
    (s : Setting) : (overriding text htext).below s =
      (Config.Layer.givenAfter? (.string text) logFormatSteps s.path).bind s.decode? := by
  have hempty : Config.Layer.set? s.path (.object []) = none := rfl
  have hhighest : Config.Layer.highest? s.path (overriding text htext).sources =
      [.object [("logging.format", .string text)], .object [], .object []].findSome?
        (Config.Layer.set? s.path) := rfl
  rw [below, Setting.set?, hhighest, List.findSome?_cons, List.findSome?_cons, hempty,
    set?_logFormat]
  cases Config.Layer.givenAfter? (.string text) logFormatSteps s.path <;> rfl

theorem settles_withFormat {text : String} (htext : Config.Variables.value text = .string text) :
    (withFormat text).Settles (overriding text htext).below where
  isMap := .nil
  of? s := by
    rw [below_overriding]
    cases s <;> rfl

theorem isHandled_overriding {text : String}
    (htext : Config.Variables.value text = .string text) :
    (overriding text htext).IsHandled (withFormat text) (withFormat "json") := by
  obtain ⟨loaded, effective, h⟩ := (overriding text htext).exists_isHandled
  obtain rfl := h.settles_below.unique (settles_withFormat htext)
  obtain rfl : effective = withFormat "json" := h.eq_override
  exact h

def overridingText : Combination := overriding "text" (by cbv)

def overridingXml : Combination := overriding "xml" (by cbv)

theorem exists_highest_overridingText : ∃ effective, overridingText.configured = .ok effective ∧
    effective.Settles overridingText.highest := by
  obtain ⟨loaded, effective, h, hok, -⟩ := exists_highest overridingText
  obtain rfl := h.settles_below.unique (settles_withFormat _)
  obtain rfl : effective = withFormat "json" := h.eq_override
  exact ⟨_, (hok _).mpr ⟨by decide, rfl, rfl⟩, h.settles_highest⟩

/-- The command line overrides a format that has a meaning, or one that has none. Only the first run goes
on. -/
theorem configured_overriding : (∀ s, overridingXml.highest s = overridingText.highest s) ∧
    overridingText.configured = .ok (withFormat "json") ∧ (withFormat "json").faults = [] ∧
    overridingXml.configured = .error (.load (.invalid [.logging (.format "xml")])) := by
  have htext : overridingText.IsHandled _ _ := isHandled_overriding _
  have hxml : overridingXml.IsHandled _ _ := isHandled_overriding _
  refine ⟨fun s => ?_, ?_, by decide, ?_⟩
  · rw [highest, highest, overridingXml, overridingText, below_overriding, below_overriding]
    cases s <;> rfl
  · rw [htext.configured_eq]
    rfl
  · rw [hxml.configured_eq]
    rfl

end Combination
end Program
end MerkleDir
