import AssetRefs.Settings
import AssetRefs.Proofs.PackageScans
import AssetRefs.Proofs.Utf8Reading

/-! # Settings files

A settings file is usable if it may be read, is UTF-8 and holds a mapping whose keys are texts and
whose values have the shapes that the settings need (`inFolder_outcome_eq_ok_iff`). Otherwise the
first of these that does not hold is the problem with it (`inFolder_outcome_eq_error_iff`). What a
text means as a YAML document is left to a loader.
-/

namespace AssetRefs.Settings

/-! ## Keys -/

section

variable {entries : List (Yaml.Value × Yaml.Value)} {key : String} {value : Option Yaml.Value}

/-- What a mapping has for a key: nothing, or the value of the last entry with the key. -/
inductive Holds (entries : List (Yaml.Value × Yaml.Value)) (key : String) :
    Option Yaml.Value → Prop where
  | unset (absent : ∀ entry ∈ entries, entry.1 ≠ .text key) : Holds entries key none
  | set {before after : List (Yaml.Value × Yaml.Value)} {value : Yaml.Value}
      (split : entries = before ++ (.text key, value) :: after)
      (last : ∀ entry ∈ after, entry.1 ≠ .text key) : Holds entries key (some value)

theorem replaced_of_ne {entry : Yaml.Value × Yaml.Value} (other : entry.1 ≠ .text key)
    (found : Option Yaml.Value) : replaced key found entry = found := by
  unfold replaced
  split
  · next name same =>
    rw [if_neg]
    rintro rfl
    exact other same
  · rfl

/-- Entries with other keys do not matter. -/
theorem foldl_replaced_of_absent (absent : ∀ entry ∈ entries, entry.1 ≠ .text key)
    (found : Option Yaml.Value) : entries.foldl (replaced key) found = found := by
  induction entries with
  | nil => rfl
  | cons entry rest ih =>
    obtain ⟨first, others⟩ := List.forall_mem_cons.mp absent
    rw [List.foldl_cons, replaced_of_ne first, ih others]

theorem valueOf?_of_holds (holds : Holds entries key value) : valueOf? entries key = value := by
  cases holds with
  | unset absent => exact foldl_replaced_of_absent absent none
  | set split last =>
    rw [valueOf?, split, List.foldl_append, List.foldl_cons, foldl_replaced_of_absent last]
    exact if_pos rfl

theorem exists_holds (entries : List (Yaml.Value × Yaml.Value)) (key : String) :
    ∃ value, Holds entries key value := by
  induction entries with
  | nil => exact ⟨none, .unset (List.forall_mem_nil _)⟩
  | cons entry rest ih =>
    obtain ⟨_, absent | @⟨before, after, value, split, last⟩⟩ := ih
    · by_cases here : entry.1 = .text key
      · have split : entry :: rest = [] ++ (.text key, entry.2) :: rest := by rw [← here]; rfl
        exact ⟨some entry.2, .set split absent⟩
      · exact ⟨none, .unset (List.forall_mem_cons.mpr ⟨here, absent⟩)⟩
    · have later : entry :: rest = (entry :: before) ++ (.text key, value) :: after := by
        rw [split]
        rfl
      exact ⟨some value, .set later last⟩

theorem holds_iff : Holds entries key value ↔ valueOf? entries key = value := by
  refine ⟨valueOf?_of_holds, ?_⟩
  rintro rfl
  obtain ⟨value, holds⟩ := exists_holds entries key
  rwa [valueOf?_of_holds holds]

/-- All keys are texts. -/
def HasTextKeys (entries : List (Yaml.Value × Yaml.Value)) : Prop :=
  ∀ entry ∈ entries, ∃ key, entry.1 = .text key

theorem unknownKeys?_eq_none_iff : unknownKeys? entries = none ↔ ¬ HasTextKeys entries := by
  unfold HasTextKeys
  induction entries with
  | nil => simp [unknownKeys?]
  | cons entry rest ih =>
    obtain ⟨key, value⟩ := entry
    rw [List.forall_mem_cons, not_and_or, ← ih]
    cases key with
    | text name => simp [unknownKeys?]
    | _ => simp [unknownKeys?]

end

/-! ## Values -/

/-- The namespace is an identifier. -/
inductive SpaceNameIs : Option Yaml.Value → String → Prop where
  | default : SpaceNameIs none "pkger"
  | given {name : String} (identifier : Text.isIdentifier name.toList = true) :
      SpaceNameIs (some (.text name)) name

/-- Whether to scan tests is a truth value. -/
inductive IncludeTestsIs : Option Yaml.Value → Bool → Prop where
  | default : IncludeTestsIs none false
  | given (value : Bool) : IncludeTestsIs (some (.bool value)) value

/-- The module is a text that is not blank, or there is none. -/
inductive ModuleIs : Option Yaml.Value → Option String → Prop where
  | default : ModuleIs none none
  | null : ModuleIs (some .null) none
  | given {name : String} (visible : Text.trim name.toList ≠ []) :
      ModuleIs (some (.text name)) (some (String.ofList (Text.trim name.toList)))

/-- The patterns are a list of texts or a single text; anything that counts as nothing is none. -/
inductive ExcludeIs : Option Yaml.Value → List String → Prop where
  | default : ExcludeIs none []
  | nothing {value : Yaml.Value} (empty : value.isEmpty = true) : ExcludeIs (some value) []
  | single {pattern : String} (nonempty : pattern ≠ "") :
      ExcludeIs (some (.text pattern)) [pattern]
  | list (patterns : List String) : ExcludeIs (some (.list (patterns.map .text))) patterns

/-- A check accepts the values that have a meaning, and has one problem with all others. -/
structure Checks {α : Type} (check : Option Yaml.Value → Except SettingsProblem α)
    (problem : SettingsProblem) (means : Option Yaml.Value → α → Prop) : Prop where
  of_means : ∀ value result, means value result → check value = .ok result
  decided : ∀ value, (∃ result, means value result) ∨ check value = .error problem

section

variable {α : Type} {check : Option Yaml.Value → Except SettingsProblem α}
  {problem : SettingsProblem} {means : Option Yaml.Value → α → Prop} {value : Option Yaml.Value}
  (checks : Checks check problem means)

include checks

theorem Checks.eq_ok_iff {result : α} : check value = .ok result ↔ means value result := by
  refine ⟨fun checked => ?_, checks.of_means value result⟩
  rcases checks.decided value with ⟨other, meant⟩ | refused
  · obtain rfl := Except.ok.inj (checked.symm.trans (checks.of_means value other meant))
    exact meant
  · cases checked.symm.trans refused

theorem Checks.eq_error_iff {other : SettingsProblem} :
    check value = .error other ↔ other = problem ∧ ∀ result, ¬ means value result := by
  rcases checks.decided value with ⟨result, meant⟩ | refused
  · rw [checks.of_means value result meant]
    exact iff_of_false nofun fun nothing => nothing.2 result meant
  · simp [refused, ← checks.eq_ok_iff, eq_comm]

end

theorem checks_spaceNameOf : Checks spaceNameOf .namespaceShape SpaceNameIs where
  of_means value name := by
    rintro (_ | identifier)
    · rfl
    · exact if_pos identifier
  decided value := by
    obtain _ | value := value
    · exact .inl ⟨_, .default⟩
    · cases value with
      | text name =>
        by_cases identifier : Text.isIdentifier name.toList = true
        · exact .inl ⟨_, .given identifier⟩
        · exact .inr (if_neg identifier)
      | _ => exact .inr rfl

theorem checks_includeTestsOf : Checks includeTestsOf .includeTestsShape IncludeTestsIs where
  of_means value result := by
    rintro (_ | _)
    · rfl
    · rfl
  decided value := by
    obtain _ | value := value
    · exact .inl ⟨_, .default⟩
    · cases value with
      | bool value => exact .inl ⟨_, .given value⟩
      | _ => exact .inr rfl

theorem checks_moduleOf : Checks moduleOf .moduleShape ModuleIs where
  of_means value result := by
    rintro (_ | _ | visible)
    · rfl
    · rfl
    · simp only [moduleOf]
  decided value := by
    obtain _ | value := value
    · exact .inl ⟨_, .default⟩
    · cases value with
      | null => exact .inl ⟨_, .null⟩
      | text name =>
        by_cases blank : Text.trim name.toList = []
        · exact .inr (by simp [moduleOf, blank])
        · exact .inl ⟨_, .given blank⟩
      | _ => exact .inr rfl

theorem texts?_map_text (texts : List String) : texts? (texts.map .text) = some texts := by
  induction texts with
  | nil => rfl
  | cons text rest ih => simp [texts?, ih]

theorem exists_texts_or_texts?_eq_none (items : List Yaml.Value) :
    (∃ texts : List String, items = texts.map .text) ∨ texts? items = none := by
  induction items with
  | nil => exact .inl ⟨[], rfl⟩
  | cons item rest ih =>
    cases item with
    | text value =>
      rcases ih with ⟨texts, rfl⟩ | none
      · exact .inl ⟨value :: texts, rfl⟩
      · exact .inr (by simp [texts?, none])
    | _ => exact .inr rfl

theorem checks_excludeOf : Checks excludeOf .excludeShape ExcludeIs where
  of_means value result := by
    rintro (_ | empty | nonempty | _)
    · rfl
    · exact if_pos empty
    · simp [excludeOf, Yaml.Value.isEmpty, nonempty]
    · simp only [excludeOf, texts?_map_text]
      split_ifs with empty
      · rw [List.map_eq_nil_iff.mp (List.isEmpty_iff.mp empty)]
      · rfl
  decided value := by
    obtain _ | value := value
    · exact .inl ⟨_, .default⟩
    · by_cases empty : value.isEmpty = true
      · exact .inl ⟨_, .nothing empty⟩
      · cases value with
        | text pattern => exact .inl ⟨_, .single (by simpa [Yaml.Value.isEmpty] using empty)⟩
        | list items =>
          rcases exists_texts_or_texts?_eq_none items with ⟨patterns, rfl⟩ | none
          · exact .inl ⟨_, .list patterns⟩
          · exact .inr (by simp [excludeOf, empty, none])
        | _ => exact .inr (if_neg empty)

/-! ## Mappings -/

section

variable {α : Type} (entries : List (Yaml.Value × Yaml.Value)) (key : String)
  (means : Option Yaml.Value → α → Prop)

/-- A mapping has a value with the given meaning for a key. -/
def Sets (result : α) : Prop := ∃ value, Holds entries key value ∧ means value result

/-- A mapping has a value without a meaning for a key. -/
def Misses : Prop := ∃ value, Holds entries key value ∧ ∀ result, ¬ means value result

variable {entries key means} {check : Option Yaml.Value → Except SettingsProblem α}
  {problem : SettingsProblem}

theorem Checks.valueOf?_eq_ok_iff (checks : Checks check problem means) {result : α} :
    check (valueOf? entries key) = .ok result ↔ Sets entries key means result := by
  simp only [Sets, holds_iff, exists_eq_left', checks.eq_ok_iff]

theorem Checks.valueOf?_eq_error_iff (checks : Checks check problem means)
    {other : SettingsProblem} :
    check (valueOf? entries key) = .error other ↔
      other = problem ∧ Misses entries key means := by
  simp only [Misses, holds_iff, exists_eq_left', checks.eq_error_iff]

end

/-- The settings that a mapping describes. -/
structure Describes (entries : List (Yaml.Value × Yaml.Value)) (settings : Settings) : Prop where
  spaceName : Sets entries "namespace" SpaceNameIs settings.spaceName
  includeTests : Sets entries "include_tests" IncludeTestsIs settings.includeTests
  module : Sets entries "module" ModuleIs settings.module
  exclude : Sets entries "exclude" ExcludeIs settings.exclude

/-- The problem with the first key of a mapping that has a value without a meaning. -/
inductive Misfits (entries : List (Yaml.Value × Yaml.Value)) : SettingsProblem → Prop where
  | spaceName (misses : Misses entries "namespace" SpaceNameIs) : Misfits entries .namespaceShape
  | includeTests {spaceName : String} (first : Sets entries "namespace" SpaceNameIs spaceName)
      (misses : Misses entries "include_tests" IncludeTestsIs) :
      Misfits entries .includeTestsShape
  | module {spaceName : String} {includeTests : Bool}
      (first : Sets entries "namespace" SpaceNameIs spaceName)
      (second : Sets entries "include_tests" IncludeTestsIs includeTests)
      (misses : Misses entries "module" ModuleIs) : Misfits entries .moduleShape
  | exclude {spaceName : String} {includeTests : Bool} {module : Option String}
      (first : Sets entries "namespace" SpaceNameIs spaceName)
      (second : Sets entries "include_tests" IncludeTestsIs includeTests)
      (third : Sets entries "module" ModuleIs module)
      (misses : Misses entries "exclude" ExcludeIs) : Misfits entries .excludeShape

section

variable {entries : List (Yaml.Value × Yaml.Value)} {settings : Settings}
  {problem : SettingsProblem}

theorem ofEntries_eq_ok_iff : ofEntries entries = .ok settings ↔ Describes entries settings := by
  simp only [ofEntries, Except.bind_eq_ok_iff, checks_spaceNameOf.valueOf?_eq_ok_iff,
    checks_includeTestsOf.valueOf?_eq_ok_iff, checks_moduleOf.valueOf?_eq_ok_iff,
    checks_excludeOf.valueOf?_eq_ok_iff]
  constructor
  · rintro ⟨_, first, _, second, _, third, _, fourth, ⟨⟩⟩
    exact ⟨first, second, third, fourth⟩
  · rintro ⟨first, second, third, fourth⟩
    exact ⟨_, first, _, second, _, third, _, fourth, rfl⟩

theorem ofEntries_eq_error_iff : ofEntries entries = .error problem ↔ Misfits entries problem := by
  simp only [ofEntries, Except.bind_eq_error_iff, checks_spaceNameOf.valueOf?_eq_ok_iff,
    checks_includeTestsOf.valueOf?_eq_ok_iff, checks_moduleOf.valueOf?_eq_ok_iff,
    checks_spaceNameOf.valueOf?_eq_error_iff, checks_includeTestsOf.valueOf?_eq_error_iff,
    checks_moduleOf.valueOf?_eq_error_iff, checks_excludeOf.valueOf?_eq_error_iff]
  constructor
  · rintro (⟨rfl, misses⟩ | ⟨_, first, ⟨rfl, misses⟩ | ⟨_, second, ⟨rfl, misses⟩ |
      ⟨_, third, ⟨rfl, misses⟩ | ⟨_, _, ⟨⟩⟩⟩⟩⟩)
    · exact .spaceName misses
    · exact .includeTests first misses
    · exact .module first second misses
    · exact .exclude first second third misses
  · rintro (misses | ⟨first, misses⟩ | ⟨first, second, misses⟩ | ⟨first, second, third, misses⟩)
    · exact .inl ⟨rfl, misses⟩
    · exact .inr ⟨_, first, .inl ⟨rfl, misses⟩⟩
    · exact .inr ⟨_, first, .inr ⟨_, second, .inl ⟨rfl, misses⟩⟩⟩
    · exact .inr ⟨_, first, .inr ⟨_, second, .inr ⟨_, third, .inl ⟨rfl, misses⟩⟩⟩⟩

end

/-! ## Files -/

/-- The bytes are UTF-8 that loads as a mapping with the given entries, or as nothing. -/
def HasEntries (loader : Yaml.Loader) (content : ByteArray)
    (entries : List (Yaml.Value × Yaml.Value)) : Prop :=
  ∃ text : String, content = text.toUTF8 ∧
    (loader (Text.unifyNewlines text.toList) = .ok (.mapping entries) ∨
      loader (Text.unifyNewlines text.toList) = .ok .null ∧ entries = [])

/-- The settings that the content of a settings file describes. -/
def Tells (loader : Yaml.Loader) (content : ByteArray) (settings : Settings) : Prop :=
  ∃ entries, HasEntries loader content entries ∧ HasTextKeys entries ∧ Describes entries settings

/-- Why the content of a settings file has no entries: it is not UTF-8, the loader refuses it, or it
is no mapping. -/
inductive Unloaded (loader : Yaml.Loader) (content : ByteArray) : SettingsProblem → Prop where
  | notText (garbled : ∀ text : String, content ≠ text.toUTF8) : Unloaded loader content .notText
  | invalidYaml {text : String} (encoded : content = text.toUTF8)
      (refused : loader (Text.unifyNewlines text.toList) = .error .malformed) :
      Unloaded loader content .invalidYaml
  | outOfRange {text : String} (encoded : content = text.toUTF8)
      (refused : loader (Text.unifyNewlines text.toList) = .error .outOfRange) :
      Unloaded loader content .outOfRange
  | notMapping {text : String} {value : Yaml.Value} (encoded : content = text.toUTF8)
      (loaded : loader (Text.unifyNewlines text.toList) = .ok value) (something : value ≠ .null)
      (unlike : ∀ entries, value ≠ .mapping entries) : Unloaded loader content .notMapping

/-- What is wrong with the content of a settings file: it has no entries, a key that is no text, or
a value of a wrong shape. -/
inductive Flawed (loader : Yaml.Loader) (content : ByteArray) : SettingsProblem → Prop where
  | unloaded {problem : SettingsProblem} (unloaded : Unloaded loader content problem) :
      Flawed loader content problem
  | unorderedKeys {entries : List (Yaml.Value × Yaml.Value)}
      (has : HasEntries loader content entries) (keys : ¬ HasTextKeys entries) :
      Flawed loader content .unorderedKeys
  | misfit {entries : List (Yaml.Value × Yaml.Value)} {problem : SettingsProblem}
      (has : HasEntries loader content entries) (keys : HasTextKeys entries)
      (misfits : Misfits entries problem) : Flawed loader content problem

section

variable {loader : Yaml.Loader} {content : ByteArray}

theorem entriesIn_eq_ok_iff {entries : List (Yaml.Value × Yaml.Value)} :
    entriesIn content loader = .ok entries ↔ HasEntries loader content entries := by
  constructor
  · intro read
    unfold entriesIn at read
    split at read
    · cases read
    · next text decoded =>
      have encoded := Text.Utf8.decode?_eq_some_iff.mp decoded
      refine ⟨String.ofList text, encoded, ?_⟩
      rw [String.toList_ofList]
      split at read
      · cases read
      · cases read
      · next loaded =>
        cases read
        exact .inr ⟨loaded, rfl⟩
      · next loaded =>
        cases read
        exact .inl loaded
      · cases read
  · rintro ⟨text, rfl, loaded | ⟨loaded, rfl⟩⟩
    · simp only [entriesIn, Text.Utf8.decode?_toUTF8, loaded]
    · simp only [entriesIn, Text.Utf8.decode?_toUTF8, loaded]

theorem entriesIn_eq_error_iff {problem : SettingsProblem} :
    entriesIn content loader = .error problem ↔ Unloaded loader content problem := by
  constructor
  · intro failed
    unfold entriesIn at failed
    split at failed
    · next refused =>
      cases failed
      exact .notText (Text.Utf8.decode?_eq_none_iff.mp refused)
    · next text decoded =>
      have encoded := Text.Utf8.decode?_eq_some_iff.mp decoded
      rw [← String.toList_ofList (l := text)] at failed
      split at failed
      · next refused =>
        cases failed
        exact .invalidYaml encoded refused
      · next refused =>
        cases failed
        exact .outOfRange encoded refused
      · cases failed
      · cases failed
      · next value something unlike loaded =>
        cases failed
        exact .notMapping encoded loaded something unlike
  · intro unloaded
    cases unloaded with
    | notText garbled => simp only [entriesIn, Text.Utf8.decode?_eq_none_iff.mpr garbled]
    | invalidYaml encoded refused =>
      simp only [entriesIn, encoded, Text.Utf8.decode?_toUTF8, refused]
    | outOfRange encoded refused =>
      simp only [entriesIn, encoded, Text.Utf8.decode?_toUTF8, refused]
    | notMapping encoded loaded something unlike =>
      simp only [entriesIn, encoded, Text.Utf8.decode?_toUTF8, loaded]

section

variable {path : String} {entries : List (Yaml.Value × Yaml.Value)} {settings : Settings}

theorem ofMapping_outcome_of_keys (keys : HasTextKeys entries) :
    (ofMapping path entries).outcome =
      (Job.ofExcept (fun problem => .settings ⟨path, problem⟩) (ofEntries entries)).outcome := by
  unfold ofMapping
  cases unknown : unknownKeys? entries with
  | none => exact absurd keys (unknownKeys?_eq_none_iff.mp unknown)
  | some keys =>
    have warned : (if keys.isEmpty then .done () else .write ⟨.warning, origin, path ++
        ": ignoring unknown keys: " ++ String.intercalate ", " keys⟩ : Job Unit).outcome =
        .ok () := by
      split_ifs
      · rfl
      · rfl
    exact Job.andThen_outcome_of_ok warned _

theorem ofMapping_outcome_of_not_keys (keys : ¬ HasTextKeys entries) :
    (ofMapping path entries).outcome = .error (.settings ⟨path, .unorderedKeys⟩) := by
  unfold ofMapping
  rw [unknownKeys?_eq_none_iff.mpr keys]
  rfl

theorem ofMapping_outcome_eq_ok_iff : (ofMapping path entries).outcome = .ok settings ↔
    HasTextKeys entries ∧ Describes entries settings := by
  by_cases keys : HasTextKeys entries
  · rw [ofMapping_outcome_of_keys keys, Job.ofExcept_outcome_eq_ok_iff, ofEntries_eq_ok_iff,
      and_iff_right keys]
  · rw [ofMapping_outcome_of_not_keys keys]
    exact iff_of_false nofun fun described => keys described.1

theorem ofMapping_outcome_eq_error_iff {failure : Failure} :
    (ofMapping path entries).outcome = .error failure ↔ ∃ problem,
      (problem = .unorderedKeys ∧ ¬ HasTextKeys entries ∨
        HasTextKeys entries ∧ Misfits entries problem) ∧ failure = .settings ⟨path, problem⟩ := by
  by_cases keys : HasTextKeys entries
  · simp only [ofMapping_outcome_of_keys keys, Job.ofExcept_outcome_eq_error_iff,
      ofEntries_eq_error_iff, keys, not_true_eq_false, and_false, false_or, true_and]
  · simp only [ofMapping_outcome_of_not_keys keys, keys, not_false_eq_true, and_true, false_and,
      or_false, exists_eq_left, Except.error.injEq, eq_comm]

end

end

/-- The path of the settings file in a folder. -/
def pathIn (folder : Route) : String := (folder.join (Route.ofString fileName)).render

/-- The settings in a folder: those that its settings file describes, or the defaults if there is no
such file. -/
inductive Loads (disk : Disk) (loader : Yaml.Loader) (folder : Route) : Settings → Prop where
  | absent {error : FileError} (failed : disk.read (pathIn folder) = .error error)
      (allowed : error ≠ .denied) : Loads disk loader folder {}
  | file {content : ByteArray} {settings : Settings}
      (read : disk.read (pathIn folder) = .ok content) (told : Tells loader content settings) :
      Loads disk loader folder settings

/-- What is wrong with the settings file in a folder: it may not be read, or its content has a
flaw. -/
inductive Refuses (disk : Disk) (loader : Yaml.Loader) (folder : Route) :
    SettingsError → Prop where
  | denied (failed : disk.read (pathIn folder) = .error .denied) :
      Refuses disk loader folder ⟨pathIn folder, .unreadable⟩
  | flawed {content : ByteArray} {problem : SettingsProblem}
      (read : disk.read (pathIn folder) = .ok content) (flawed : Flawed loader content problem) :
      Refuses disk loader folder ⟨pathIn folder, problem⟩

section

variable {disk : Disk} {loader : Yaml.Loader} {folder : Route}

theorem inFolder_outcome_of_denied (failed : disk.read (pathIn folder) = .error .denied) :
    (inFolder disk folder loader).outcome =
      .error (.settings ⟨pathIn folder, .unreadable⟩) := by
  unfold pathIn at failed
  simp only [inFolder, failed]
  rfl

theorem inFolder_outcome_of_error {error : FileError}
    (failed : disk.read (pathIn folder) = .error error) (allowed : error ≠ .denied) :
    (inFolder disk folder loader).outcome = .ok {} := by
  unfold pathIn at failed
  cases error with
  | denied => exact absurd rfl allowed
  | _ => simp only [inFolder, failed, Job.done]

theorem inFolder_outcome_of_ok {content : ByteArray}
    (read : disk.read (pathIn folder) = .ok content) :
    (inFolder disk folder loader).outcome =
      ((Job.ofExcept (fun problem => .settings ⟨pathIn folder, problem⟩)
        (entriesIn content loader)).andThen (ofMapping (pathIn folder))).outcome := by
  unfold pathIn at read
  simp only [inFolder, read]
  refine Job.andThen_outcome_congr fun entries => ?_
  rw [Job.andThen_outcome, pathIn]
  cases (ofMapping (folder.join (Route.ofString fileName)).render entries).outcome with
  | error => rfl
  | ok => rfl

theorem inFolder_outcome_eq_ok_iff {settings : Settings} :
    (inFolder disk folder loader).outcome = .ok settings ↔ Loads disk loader folder settings := by
  constructor
  · intro loaded
    cases read : disk.read (pathIn folder) with
    | error error =>
      by_cases denied : error = .denied
      · subst denied
        cases loaded.symm.trans (inFolder_outcome_of_denied read)
      · cases loaded.symm.trans (inFolder_outcome_of_error read denied)
        exact .absent read denied
    | ok content =>
      simp only [inFolder_outcome_of_ok read, Job.andThen_outcome_eq_ok_iff,
        Job.ofExcept_outcome_eq_ok_iff, entriesIn_eq_ok_iff, ofMapping_outcome_eq_ok_iff] at loaded
      exact .file read loaded
  · rintro (⟨failed, allowed⟩ | ⟨read, told⟩)
    · exact inFolder_outcome_of_error failed allowed
    · simp only [inFolder_outcome_of_ok read, Job.andThen_outcome_eq_ok_iff,
        Job.ofExcept_outcome_eq_ok_iff, entriesIn_eq_ok_iff, ofMapping_outcome_eq_ok_iff]
      exact told

theorem inFolder_outcome_eq_error_iff {failure : Failure} :
    (inFolder disk folder loader).outcome = .error failure ↔
      ∃ error, Refuses disk loader folder error ∧ failure = .settings error := by
  constructor
  · intro failed
    cases read : disk.read (pathIn folder) with
    | error error =>
      by_cases denied : error = .denied
      · subst denied
        cases failed.symm.trans (inFolder_outcome_of_denied read)
        exact ⟨_, .denied read, rfl⟩
      · cases failed.symm.trans (inFolder_outcome_of_error read denied)
    | ok content =>
      simp only [inFolder_outcome_of_ok read, Job.andThen_outcome_eq_error_iff,
        Job.ofExcept_outcome_eq_error_iff, Job.ofExcept_outcome_eq_ok_iff, entriesIn_eq_error_iff,
        entriesIn_eq_ok_iff, ofMapping_outcome_eq_error_iff] at failed
      obtain ⟨problem, unloaded, rfl⟩ |
        ⟨entries, has, problem, ⟨rfl, keys⟩ | ⟨keys, misfits⟩, rfl⟩ := failed
      · exact ⟨_, .flawed read (.unloaded unloaded), rfl⟩
      · exact ⟨_, .flawed read (.unorderedKeys has keys), rfl⟩
      · exact ⟨_, .flawed read (.misfit has keys misfits), rfl⟩
  · rintro ⟨_, failed | ⟨read, flawed⟩, rfl⟩
    · exact inFolder_outcome_of_denied failed
    · simp only [inFolder_outcome_of_ok read, Job.andThen_outcome_eq_error_iff,
        Job.ofExcept_outcome_eq_error_iff, Job.ofExcept_outcome_eq_ok_iff, entriesIn_eq_error_iff,
        entriesIn_eq_ok_iff, ofMapping_outcome_eq_error_iff]
      cases flawed with
      | unloaded unloaded => exact .inl ⟨_, unloaded, rfl⟩
      | unorderedKeys has keys => exact .inr ⟨_, has, _, .inl ⟨rfl, keys⟩, rfl⟩
      | misfit has keys misfits => exact .inr ⟨_, has, _, .inr ⟨keys, misfits⟩, rfl⟩

end

end AssetRefs.Settings
