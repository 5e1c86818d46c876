import AssetRefs.Job
import AssetRefs.Text.Identifier
import AssetRefs.Yaml.Value

/-! # Settings

The settings of a module come from defaults, from a file in its folder, from the environment and
from the command line, and a later source takes precedence. Keys that are not known are reported and
ignored.
-/

namespace AssetRefs

/-- How files are found and scanned. -/
structure Settings where
  /-- The name under which files are opened. -/
  spaceName : String := "pkger"
  includeTests : Bool := false
  /-- The name of the module in place of the one in its file. -/
  module : Option String := none
  /-- Patterns of files to leave out. -/
  exclude : List String := []
deriving DecidableEq, Repr

/-- Settings that may replace others. -/
structure Overrides where
  spaceName : Option String := none
  includeTests : Option Bool := none
  module : Option String := none
  exclude : Option (List String) := none
deriving DecidableEq, Repr

namespace Settings

/-- The name of the settings file. -/
def fileName : String := ".embedscan.yml"

/-- The part of the program in the log. -/
def origin : String := "embedscan.config"

/-- The settings with replacements. Patterns are added to those that are there. -/
def merge (settings : Settings) (overrides : Overrides) : Settings :=
  { spaceName := overrides.spaceName.getD settings.spaceName
    includeTests := overrides.includeTests.getD settings.includeTests
    module := overrides.module.or settings.module
    exclude := settings.exclude ++ overrides.exclude.getD [] }

/-! ## Settings from a mapping -/

/-- The known keys. -/
def knownKeys : List String := ["namespace", "include_tests", "module", "exclude"]

/-- The value of a key if there is one more entry. -/
def replaced (key : String) (found : Option Yaml.Value) (entry : Yaml.Value × Yaml.Value) :
    Option Yaml.Value :=
  match entry.1 with
  | .text name => if name = key then some entry.2 else found
  | _ => found

/-- The value of a key; the last entry counts. -/
def valueOf? (entries : List (Yaml.Value × Yaml.Value)) (key : String) : Option Yaml.Value :=
  entries.foldl (replaced key) none

/-- Puts a text into a strictly increasing list, unless it is there. -/
def insertKey (key : String) : List String → List String
  | [] => [key]
  | other :: rest =>
    if key < other then key :: other :: rest
    else if key = other then other :: rest
    else other :: insertKey key rest

/-- The unknown keys in order. There is no answer if one of them is not a text. -/
def unknownKeys? : List (Yaml.Value × Yaml.Value) → Option (List String)
  | [] => some []
  | (.text key, _) :: rest =>
    (unknownKeys? rest).map fun keys => if knownKeys.contains key then keys else insertKey key keys
  | _ => none

/-- The namespace in a mapping. -/
def spaceNameOf (value : Option Yaml.Value) : Except SettingsProblem String :=
  match value with
  | none => .ok "pkger"
  | some (.text name) =>
    if Text.isIdentifier name.toList then .ok name else .error .namespaceShape
  | some _ => .error .namespaceShape

/-- Whether to scan tests, by a mapping. -/
def includeTestsOf (value : Option Yaml.Value) : Except SettingsProblem Bool :=
  match value with
  | none => .ok false
  | some (.bool value) => .ok value
  | some _ => .error .includeTestsShape

/-- The module in a mapping. -/
def moduleOf (value : Option Yaml.Value) : Except SettingsProblem (Option String) :=
  match value with
  | none | some .null => .ok none
  | some (.text name) =>
    match Text.trim name.toList with
    | [] => .error .moduleShape
    | name => .ok (some (String.ofList name))
  | some _ => .error .moduleShape

/-- The texts of a list of texts. -/
def texts? : List Yaml.Value → Option (List String)
  | [] => some []
  | .text value :: rest => (texts? rest).map (value :: ·)
  | _ => none

/-- The patterns in a mapping; a single text is a list of one. -/
def excludeOf (value : Option Yaml.Value) : Except SettingsProblem (List String) :=
  match value with
  | none => .ok []
  | some value =>
    if value.isEmpty then .ok []
    else match value with
      | .text pattern => .ok [pattern]
      | .list items =>
        match texts? items with
        | some patterns => .ok patterns
        | none => .error .excludeShape
      | _ => .error .excludeShape

/-- Checks the known keys of a mapping one after the other. -/
def ofEntries (entries : List (Yaml.Value × Yaml.Value)) : Except SettingsProblem Settings := do
  let spaceName ← spaceNameOf (valueOf? entries "namespace")
  let includeTests ← includeTestsOf (valueOf? entries "include_tests")
  let module ← moduleOf (valueOf? entries "module")
  let exclude ← excludeOf (valueOf? entries "exclude")
  return { spaceName, includeTests, module, exclude }

/-- The settings of a mapping, with a warning about unknown keys. Messages show the path. -/
def ofMapping (path : String) (entries : List (Yaml.Value × Yaml.Value)) : Job Settings :=
  let problem (problem : SettingsProblem) : Failure := .settings ⟨path, problem⟩
  match unknownKeys? entries with
  | none => .fail (problem .unorderedKeys)
  | some keys =>
    let warning : Job Unit :=
      if keys.isEmpty then .done ()
      else .write ⟨.warning, origin,
        path ++ ": ignoring unknown keys: " ++ String.intercalate ", " keys⟩
    warning.andThen fun _ => .ofExcept problem (ofEntries entries)

/-! ## Settings from files -/

/-- The entries of the mapping in a settings file. -/
def entriesIn (content : ByteArray) (loader : Yaml.Loader := Yaml.load) :
    Except SettingsProblem (List (Yaml.Value × Yaml.Value)) :=
  match Text.Utf8.decode? content.toList with
  | none => .error .notText
  | some text =>
    match loader (Text.unifyNewlines text) with
    | .error .malformed => .error .invalidYaml
    | .error .outOfRange => .error .outOfRange
    | .ok .null => .ok []
    | .ok (.mapping entries) => .ok entries
    | .ok _ => .error .notMapping

/-- The settings in the file of a folder; without a file, the defaults. -/
def inFolder (disk : Disk) (folder : Route) (loader : Yaml.Loader := Yaml.load) : Job Settings :=
  let path := (folder.join (Route.ofString fileName)).render
  match disk.read path with
  | .error .denied => .fail (.settings ⟨path, .unreadable⟩)
  | .error _ => .done {}
  | .ok content =>
    (Job.ofExcept (fun problem => .settings ⟨path, problem⟩) (entriesIn content loader)).andThen
      fun entries => (ofMapping path entries).andThen fun settings =>
        (Job.write ⟨.debug, origin, "loaded " ++ path⟩).andThen fun _ => .done settings

/-- The settings of a folder, if there is one, with the namespace of the environment, unless that is
empty. -/
def load (disk : Disk) (environment : Option String) (folder : Option Route)
    (loader : Yaml.Loader := Yaml.load) : Job Settings :=
  let settings : Job Settings := match folder with
    | some folder => inFolder disk folder loader
    | none => .done {}
  settings.andThen fun settings =>
    match environment with
    | some name => .done (if name = "" then settings else { settings with spaceName := name })
    | none => .done settings

end Settings

end AssetRefs
