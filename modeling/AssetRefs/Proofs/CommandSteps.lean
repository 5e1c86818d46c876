import AssetRefs.Command.Run
import AssetRefs.Proofs.ModuleFiles
import AssetRefs.Proofs.PackageMerges
import AssetRefs.Proofs.SettingsFiles

/-! # The steps of a command

A command reads its settings, looks for a module unless it is given an import path, finds its files
and scans them one after the other. The first of these steps that fails is what the command stops
at. What a step comes to is said here by what is in the file tree: whether there is a settings file
or a module file, whether it may be read, and whether it has in it what is needed. See `Stops` and
`Completes`.
-/

namespace AssetRefs

namespace Command

/-! ## The steps of a command -/

/-- Where the search for the module starts. -/
def start (disk : Disk) : Command → Location
  | .scan options => (Route.ofString options.file).parent.locate disk.here
  | .list options => disk.locate options.directory

/-- The settings that the command line replaces. -/
def overrides : Command → Overrides
  | .scan options => { spaceName := options.spaceName }
  | .list options =>
    { spaceName := options.spaceName
      includeTests := if options.includeTests then some true else none
      exclude := if options.exclude.isEmpty then none else some options.exclude }

/-- Whether unresolved call sites are an error. -/
def strict : Command → Bool
  | .scan options => options.strict
  | .list options => options.strict

/-- Reads the settings. -/
def settings (world : World) (command : Command) : Job Settings :=
  settingsFor world (GoModule.root? world.disk (command.start world.disk)) command.overrides

/-- How a folder is scanned. -/
def packageOptions (settings : Settings) (options : ListCommand) : PackageOptions :=
  { recursive := options.recursive, includeTests := settings.includeTests,
    exclude := settings.exclude, package := options.package, spaceName := settings.spaceName,
    module := settings.module }

/-- The module that import paths are derived from, unless the import path is given. -/
def module (disk : Disk) (settings : Settings) (command : Command) :
    Except ModuleError (Option (Location × String)) :=
  match command with
  | .scan options =>
    if options.package.isSome then .ok none
    else match GoModule.root? disk (command.start disk) with
      | none => .error (.absentFor (disk.locate options.file).render)
      | some root =>
        (PackageScan.moduleName disk settings.module root).map fun name => some (root, name)
  | .list options =>
    PackageScan.moduleFor disk (packageOptions settings options) (command.start disk)

/-- Finds the files. -/
def files (world : World) (settings : Settings) (command : Command) : Job (List Route) :=
  match command with
  | .scan options => .done [Route.ofString options.file]
  | .list options =>
    (discover world.disk world.listing (packageOptions settings options).toDiscoveryOptions
      (command.start world.disk)).andThen fun paths =>
        .done (paths.map (Discovery.routeTo (command.start world.disk)))

/-- The import path for a file. -/
def package (disk : Disk) (module : Option (Location × String)) (file : Route) :
    Command → Except ModuleError String
  | .scan options =>
    match module with
    | none => .ok (options.package.getD "")
    | some (root, name) =>
      let folder := (file.locate disk.here).tail
      GoModule.importPath (Location.render folder) folder root name
  | .list options => PackageScan.packageOf disk module (options.package.getD "") file

/-- What a command knows when it starts to scan. -/
structure Plan where
  settings : Settings
  module : Option (Location × String)
  files : List Route

/-- The steps before the first scan. -/
def plan (world : World) (command : Command) : Job Plan :=
  (command.settings world).andThen fun settings =>
    (Job.ofExcept .module (command.module world.disk settings)).andThen fun module =>
      (command.files world settings).andThen fun files => .done ⟨settings, module, files⟩

/-- Scans one of the files. -/
def scanAt (world : World) (command : Command) (plan : Plan) (file : Route) : Job ScanResult :=
  (Job.ofExcept .module (command.package world.disk plan.module file)).andThen fun package =>
    scanFile world.disk { file := file.render, package, spaceName := plan.settings.spaceName }
      world.reader

/-- Scans all files. -/
def scanAll (world : World) (command : Command) : Job (List ScanResult) :=
  (command.plan world).andThen fun plan => Job.collect (command.scanAt world plan) plan.files

/-! ## The commands in terms of their steps -/

/-- The import path for a single file is given, or derived from its module. -/
theorem module_bind_package_scan (disk : Disk) (settings : Settings) (options : ScanCommand) :
    (module disk settings (.scan options)).bind (fun module =>
        package disk module (Route.ofString options.file) (.scan options)) =
      options.package.elim (packageFor disk
        (GoModule.root? disk ((Command.scan options).start disk)) settings
        ((Route.ofString options.file).locate disk.here)) .ok := by
  cases given : options.package with
  | some path => simp [module, package, given, Except.bind]
  | none =>
    simp only [module, given, packageFor, Option.elim_none, Option.isSome_none,
      Bool.false_eq_true, ↓reduceIte]
    cases GoModule.root? disk ((Command.scan options).start disk) with
    | none => rfl
    | some root =>
      dsimp only
      cases PackageScan.moduleName disk settings.module root with
      | error => rfl
      | ok name =>
        simp only [Except.map, Except.bind, package]

theorem scanOne_outcome (world : World) (options : ScanCommand) :
    (scanOne world options).outcome.map (fun result => [result]) =
      (scanAll world (.scan options)).outcome := by
  have start : scanOne world options = (settings world (.scan options)).andThen fun settings =>
      (Job.ofExcept .module (options.package.elim (packageFor world.disk
        (GoModule.root? world.disk ((Command.scan options).start world.disk)) settings
        ((Route.ofString options.file).locate world.disk.here)) .ok)).andThen fun package =>
          scanFile world.disk { file := (Route.ofString options.file).render, package,
                                spaceName := settings.spaceName } world.reader := by
    cases given : options.package with
    | none => simp only [scanOne, settings, Command.start, overrides, given, Option.elim_none]
    | some => simp only [scanOne, settings, Command.start, overrides, given, Option.elim_some]
  simp only [start, scanAll, plan, Job.andThen_outcome, ← module_bind_package_scan,
    Job.ofExcept_bind_outcome]
  cases (settings world (.scan options)).outcome with
  | error => rfl
  | ok settings =>
    simp only [Except.bind]
    cases (Job.ofExcept .module (module world.disk settings (.scan options))).outcome with
    | error => rfl
    | ok module =>
      simp only [files, Job.done, Job.collect_singleton_outcome, scanAt, Job.andThen_outcome,
        Except.bind]

theorem scanFolder_outcome (world : World) (options : ListCommand) :
    (scanFolder world options).outcome.map PackageResult.files =
      (scanAll world (.list options)).outcome := by
  have start : scanFolder world options = (settings world (.list options)).andThen fun settings =>
      scanPackage world.disk world.listing (packageOptions settings options)
        ((Command.list options).start world.disk) world.reader := rfl
  simp only [start, scanAll, plan, Job.andThen_outcome, scanPackage_outcome]
  cases (settings world (.list options)).outcome with
  | error => rfl
  | ok settings =>
    simp only [Except.bind, module, files, Job.andThen_outcome]
    cases (Job.ofExcept .module (PackageScan.moduleFor world.disk (packageOptions settings options)
        ((Command.list options).start world.disk))).outcome with
    | error => rfl
    | ok module =>
      dsimp only
      cases (discover world.disk world.listing (packageOptions settings options).toDiscoveryOptions
          ((Command.list options).start world.disk)).outcome with
      | error => rfl
      | ok paths =>
        have same : (fun path => scanAt world (.list options) ⟨settings, module, paths.map
            (Discovery.routeTo ((Command.list options).start world.disk))⟩
            (Discovery.routeTo ((Command.list options).start world.disk) path)) =
            PackageScan.scanOne world.reader world.disk (packageOptions settings options) module
              ((Command.list options).start world.disk) := rfl
        simp only [Job.done, Job.collect_map, same]
        cases (Job.collect (PackageScan.scanOne world.reader world.disk
            (packageOptions settings options) module
            ((Command.list options).start world.disk)) paths).outcome with
        | error => rfl
        | ok => rfl

/-! ## Settings -/

/-- Settings as a command uses them: with the namespace of the environment, unless that is empty,
and with what the command line replaces. -/
def adjusted (world : World) (command : Command) (settings : Settings) : Settings :=
  Settings.merge
    { settings with spaceName :=
        if world.environment.getD "" = "" then settings.spaceName
        else world.environment.getD "" }
    command.overrides

/-- The settings of a command: those in the folder of the nearest module, or the defaults if there
is no module. -/
inductive Configured (world : World) (command : Command) : Settings → Prop where
  | alone (unmarked : GoModule.Unmarked world.disk (command.start world.disk)) :
      Configured world command (command.adjusted world {})
  | inModule {root : Location} {settings : Settings}
      (nearest : GoModule.Nearest world.disk (command.start world.disk) root)
      (loads : Settings.Loads world.disk world.loader (Route.ofString root.render) settings) :
      Configured world command (command.adjusted world settings)

/-- The settings file in the folder of the nearest module may not be read or has a flaw. -/
def Misconfigured (world : World) (command : Command) (error : SettingsError) : Prop :=
  ∃ root, GoModule.Nearest world.disk (command.start world.disk) root ∧
    Settings.Refuses world.disk world.loader (Route.ofString root.render) error

section

variable {world : World} {command : Command}

theorem adjusted_eq (settings : Settings) : command.adjusted world settings =
    (world.environment.elim settings fun name =>
      if name = "" then settings else { settings with spaceName := name }).merge
        command.overrides := by
  unfold adjusted
  cases world.environment with
  | none => rfl
  | some name => by_cases empty : name = "" <;> simp [empty]

theorem load_outcome (folder : Option Route) :
    ((Settings.load world.disk world.environment folder world.loader).andThen fun settings =>
        .done (settings.merge command.overrides)).outcome =
      (folder.elim (Job.done {}) fun folder =>
        Settings.inFolder world.disk folder world.loader).outcome.map (command.adjusted world) := by
  rw [funext adjusted_eq]
  simp only [Settings.load, Job.andThen_outcome]
  cases folder with
  | none => cases world.environment <;> rfl
  | some folder =>
    simp only [Option.elim_some]
    cases (Settings.inFolder world.disk folder world.loader).outcome with
    | error => rfl
    | ok => cases world.environment <;> rfl

theorem settings_outcome : (command.settings world).outcome =
    ((GoModule.root? world.disk (command.start world.disk)).elim (Job.done {}) fun root =>
      Settings.inFolder world.disk (Route.ofString root.render) world.loader).outcome.map
        (command.adjusted world) := by
  rw [settings, settingsFor, load_outcome, Option.elim_map]
  rfl

theorem settings_outcome_eq_ok_iff {settings : Settings} :
    (command.settings world).outcome = .ok settings ↔ Configured world command settings := by
  rw [settings_outcome, Except.map_eq_ok_iff]
  constructor
  · rintro ⟨inner, given, rfl⟩
    cases found : GoModule.root? world.disk (command.start world.disk) with
    | none =>
      rw [found] at given
      cases given
      exact .alone (GoModule.root?_eq_none_iff.mp found)
    | some root =>
      rw [found, Option.elim_some] at given
      exact .inModule (GoModule.root?_eq_some_iff.mp found)
        (Settings.inFolder_outcome_eq_ok_iff.mp given)
  · rintro (unmarked | ⟨nearest, loads⟩)
    · rw [GoModule.root?_eq_none_iff.mpr unmarked]
      exact ⟨{}, rfl, rfl⟩
    · rw [GoModule.root?_eq_some_iff.mpr nearest, Option.elim_some]
      exact ⟨_, Settings.inFolder_outcome_eq_ok_iff.mpr loads, rfl⟩

theorem settings_outcome_eq_error_iff {failure : Failure} :
    (command.settings world).outcome = .error failure ↔
      ∃ error, Misconfigured world command error ∧ failure = .settings error := by
  rw [settings_outcome, Except.map_eq_error_iff]
  constructor
  · intro failed
    cases found : GoModule.root? world.disk (command.start world.disk) with
    | none => simp [found, Job.done] at failed
    | some root =>
      rw [found, Option.elim_some] at failed
      obtain ⟨error, refuses, rfl⟩ := Settings.inFolder_outcome_eq_error_iff.mp failed
      exact ⟨error, ⟨root, GoModule.root?_eq_some_iff.mp found, refuses⟩, rfl⟩
  · rintro ⟨error, ⟨root, nearest, refuses⟩, rfl⟩
    rw [GoModule.root?_eq_some_iff.mpr nearest, Option.elim_some]
    exact Settings.inFolder_outcome_eq_error_iff.mpr ⟨error, refuses, rfl⟩

end

/-! ## Modules -/

/-- Whether import paths are derived from a module. -/
def needsModule : Command → Bool
  | .scan options => options.package.isNone
  | .list options => options.package.isNone || options.recursive

/-- The error if there is no module. -/
def absence (disk : Disk) : Command → ModuleError
  | .scan options => .absentFor (disk.locate options.file).render
  | .list options => .absent (disk.locate options.directory).render

/-- The module that import paths are derived from, if they are: the nearest one, under the name in
the settings or in its file. -/
inductive HasModule (disk : Disk) (command : Command) (settings : Settings) :
    Option (Location × String) → Prop where
  | given (unneeded : command.needsModule = false) : HasModule disk command settings none
  | derived {root : Location} {name : String} (needed : command.needsModule = true)
      (nearest : GoModule.Nearest disk (command.start disk) root)
      (named : PackageScan.IsNamed disk root settings.module name) :
      HasModule disk command settings (some (root, name))

/-- Why there is no module although one is needed: there is no module file, or its name is needed
and it has a flaw. -/
inductive LacksModule (disk : Disk) (command : Command) (settings : Settings) :
    ModuleError → Prop where
  | absent (needed : command.needsModule = true)
      (unmarked : GoModule.Unmarked disk (command.start disk)) :
      LacksModule disk command settings (command.absence disk)
  | flawed {root : Location} {error : ModuleError} (needed : command.needsModule = true)
      (nearest : GoModule.Nearest disk (command.start disk) root)
      (unset : settings.module.getD "" = "")
      (flawed : GoModule.Flawed disk (Location.render (GoModule.fileName :: root)) error) :
      LacksModule disk command settings error

section

variable {world : World} {command : Command} {settings : Settings}

/-- Outside all modules, no name of a module is set. -/
theorem Configured.module_eq_none (configured : Configured world command settings)
    (unmarked : GoModule.root? world.disk (command.start world.disk) = none) :
    settings.module = none := by
  cases configured with
  | alone => cases command <;> rfl
  | inModule nearest => cases unmarked.symm.trans (GoModule.root?_eq_some_iff.mpr nearest)

theorem module_eq (configured : Configured world command settings) :
    command.module world.disk settings =
      if command.needsModule then
        (GoModule.root? world.disk (command.start world.disk)).elim
          (.error (command.absence world.disk)) fun root =>
            (PackageScan.moduleName world.disk settings.module root).map fun name =>
              some (root, name)
      else .ok none := by
  cases command with
  | scan options =>
    cases given : options.package with
    | some => simp [module, needsModule, given]
    | none =>
      simp only [module, needsModule, given, Option.isSome_none, Bool.false_eq_true, ↓reduceIte,
        Option.isNone_none]
      cases GoModule.root? world.disk ((Command.scan options).start world.disk) with
      | none => rfl
      | some => rfl
  | list options =>
    simp only [module, needsModule, PackageScan.moduleFor, packageOptions]
    refine if_congr Iff.rfl ?_ rfl
    · unfold PackageScan.moduleOf
      cases found : GoModule.root? world.disk ((Command.list options).start world.disk) with
      | none =>
        rw [configured.module_eq_none found]
        rfl
      | some root =>
        simp only [Option.elim_some]
        cases PackageScan.moduleName world.disk settings.module root with
        | error => rfl
        | ok => rfl

theorem module_eq_ok_iff (configured : Configured world command settings)
    {module : Option (Location × String)} :
    command.module world.disk settings = .ok module ↔
      HasModule world.disk command settings module := by
  rw [module_eq configured]
  constructor
  · intro resolved
    split_ifs at resolved with needed
    · cases found : GoModule.root? world.disk (command.start world.disk) with
      | none => simp [found] at resolved
      | some root =>
        rw [found, Option.elim_some] at resolved
        obtain ⟨name, named, rfl⟩ := Except.map_eq_ok_iff.mp resolved
        exact .derived needed (GoModule.root?_eq_some_iff.mp found)
          (PackageScan.moduleName_eq_ok_iff.mp named)
    · cases resolved
      exact .given (Bool.eq_false_iff.mpr needed)
  · rintro (unneeded | ⟨needed, nearest, named⟩)
    · simp [unneeded]
    · rw [if_pos needed, GoModule.root?_eq_some_iff.mpr nearest, Option.elim_some,
        PackageScan.moduleName_eq_ok_iff.mpr named]
      rfl

theorem module_eq_error_iff (configured : Configured world command settings)
    {error : ModuleError} :
    command.module world.disk settings = .error error ↔
      LacksModule world.disk command settings error := by
  rw [module_eq configured]
  constructor
  · intro failed
    split_ifs at failed with needed
    cases found : GoModule.root? world.disk (command.start world.disk) with
    | none =>
      rw [found] at failed
      cases failed
      exact .absent needed (GoModule.root?_eq_none_iff.mp found)
    | some root =>
      rw [found, Option.elim_some, Except.map_eq_error_iff] at failed
      obtain ⟨unset, flawed⟩ := PackageScan.moduleName_eq_error_iff.mp failed
      exact .flawed needed (GoModule.root?_eq_some_iff.mp found) unset flawed
  · rintro (⟨needed, unmarked⟩ | ⟨needed, nearest, unset, flawed⟩)
    · rw [if_pos needed, GoModule.root?_eq_none_iff.mpr unmarked]
      rfl
    · rw [if_pos needed, GoModule.root?_eq_some_iff.mpr nearest, Option.elim_some,
        PackageScan.moduleName_eq_error_iff.mpr ⟨unset, flawed⟩]
      rfl

end

/-! ## Files -/

/-- The files of a command: the one that it names, or those that discovery finds. -/
def Finds (world : World) (command : Command) (settings : Settings) (files : List Route) : Prop :=
  match command with
  | .scan options => files = [Route.ofString options.file]
  | .list options => ∃ paths, (discover world.disk world.listing
      (packageOptions settings options).toDiscoveryOptions (command.start world.disk)).outcome =
        .ok paths ∧ files = paths.map (Discovery.routeTo (command.start world.disk))

/-- A candidate for a file comes to a pattern without components. -/
def MeetsEmptyPattern (world : World) (command : Command) (settings : Settings) : Prop :=
  match command with
  | .scan _ => False
  | .list options => ∃ path ∈ Discovery.candidates world.disk world.listing options.recursive
      (command.start world.disk),
        Discovery.MeetsEmptyPattern (packageOptions settings options).toDiscoveryOptions path

section

variable {world : World} {command : Command} {settings : Settings}

theorem files_outcome_eq_ok_iff {files : List Route} :
    (command.files world settings).outcome = .ok files ↔ command.Finds world settings files := by
  cases command with
  | scan options => rw [Command.files, Job.done_outcome_eq_ok_iff, Finds, eq_comm]
  | list options =>
    simp only [Command.files, Finds, Job.andThen_outcome_eq_ok_iff, Job.done_outcome_eq_ok_iff]
    exact exists_congr fun paths => and_congr_right fun _ => eq_comm

theorem files_outcome_eq_error_iff {failure : Failure} :
    (command.files world settings).outcome = .error failure ↔
      failure = .emptyPattern ∧ command.MeetsEmptyPattern world settings := by
  cases command with
  | scan options => simp [Command.files, MeetsEmptyPattern, Job.done_outcome_ne_error]
  | list options =>
    simp only [Command.files, MeetsEmptyPattern, Job.andThen_outcome_eq_error_iff,
      Job.done_outcome_ne_error, and_false, exists_false, or_false, discover_outcome_eq_error_iff,
      Discovery.not_decided_iff, packageOptions]

end

/-! ## Import paths -/

/-- The import path given for a command. -/
def givenPackage : Command → Option String
  | .scan options => options.package
  | .list options => options.package

/-- The folder of a file. -/
def folderOf (disk : Disk) (file : Route) : Command → Location
  | .scan _ => (file.locate disk.here).tail
  | .list _ => file.parent.locate disk.here

/-- How errors show the folder of a file. -/
def shownFolder (disk : Disk) (file : Route) : Command → String
  | .scan _ => Location.render (file.locate disk.here).tail
  | .list _ => file.parent.render

/-- The import path for a file: that of its folder in the module, or the one given. -/
def HasPackage (disk : Disk) (command : Command) (module : Option (Location × String))
    (file : Route) (package : String) : Prop :=
  match module with
  | none => command.givenPackage = some package
  | some (root, name) => GoModule.HasImportPath (command.folderOf disk file) root name package

theorem package_eq (disk : Disk) (command : Command) (module : Option (Location × String))
    (file : Route) : command.package disk module file =
      module.elim (.ok (command.givenPackage.getD "")) fun module => GoModule.importPath
        (command.shownFolder disk file) (command.folderOf disk file) module.1 module.2 := by
  cases command <;> cases module <;> rfl

theorem exists_givenPackage {command : Command} (unneeded : command.needsModule = false) :
    ∃ package, command.givenPackage = some package := by
  rw [← Option.isSome_iff_exists, ← Option.isNone_eq_false_iff]
  cases command with
  | scan options => exact unneeded
  | list options => exact (Bool.or_eq_false_iff.mp unneeded).1

section

variable {disk : Disk} {command : Command} {settings : Settings}
  {module : Option (Location × String)} (has : HasModule disk command settings module)
  {file : Route}

include has

theorem package_eq_ok_iff {package : String} :
    command.package disk module file = .ok package ↔
      command.HasPackage disk module file package := by
  rw [package_eq]
  cases has with
  | given unneeded =>
    obtain ⟨path, given⟩ := exists_givenPackage unneeded
    simp [HasPackage, given]
  | derived =>
    simp only [Option.elim_some, HasPackage, GoModule.importPath_eq_ok_iff_hasImportPath]

theorem package_eq_error_iff {error : ModuleError} :
    command.package disk module file = .error error ↔ ∃ root name, module = some (root, name) ∧
      error = .outside (command.shownFolder disk file) name ∧
      ∀ package, ¬ command.HasPackage disk module file package := by
  rw [package_eq]
  cases has with
  | given => simp
  | @derived root name =>
    simp only [Option.elim_some, HasPackage, GoModule.importPath_eq_error_iff]
    constructor
    · rintro ⟨same, unplaced⟩
      exact ⟨root, name, rfl, same, unplaced⟩
    · rintro ⟨_, _, ⟨⟩, same, unplaced⟩
      exact ⟨same, unplaced⟩

end

/-! ## What a command stops at -/

/-- What a command knows when it starts to scan. -/
structure IsPlan (world : World) (command : Command) (plan : Plan) : Prop where
  configured : Configured world command plan.settings
  module : HasModule world.disk command plan.settings plan.module
  files : command.Finds world plan.settings plan.files

/-- A file has an import path, and it can be read and parsed. -/
def IsReady (world : World) (command : Command) (plan : Plan) (file : Route) : Prop :=
  (∃ package, command.HasPackage world.disk plan.module file package) ∧
    ∀ error, ¬ world.disk.Refuses world.reader file.render error

/-- The first thing that is wrong for a command. -/
inductive Stops (world : World) (command : Command) : Failure → Prop where
  /-- The settings file may not be read or has a flaw. -/
  | settings {error : SettingsError} (misconfigured : Misconfigured world command error) :
      Stops world command (.settings error)
  /-- A module is needed, and there is none or its file cannot be used. -/
  | module {settings : Settings} {error : ModuleError}
      (configured : Configured world command settings)
      (lacks : LacksModule world.disk command settings error) : Stops world command (.module error)
  | pattern {settings : Settings} {module : Option (Location × String)}
      (configured : Configured world command settings)
      (has : HasModule world.disk command settings module)
      (meets : command.MeetsEmptyPattern world settings) : Stops world command .emptyPattern
  /-- The folder of a file has no import path in the module. -/
  | outside {plan : Plan} {front rest : List Route} {file : Route} {root : Location}
      {name : String} (planned : IsPlan world command plan)
      (split : plan.files = front ++ file :: rest)
      (earlier : ∀ earlier ∈ front, command.IsReady world plan earlier)
      (derived : plan.module = some (root, name))
      (unplaced : ∀ package, ¬ command.HasPackage world.disk plan.module file package) :
      Stops world command (.module (.outside (command.shownFolder world.disk file) name))
  /-- A file cannot be read or parsed. -/
  | source {plan : Plan} {front rest : List Route} {file : Route} {package : String}
      {error : SourceError} (planned : IsPlan world command plan)
      (split : plan.files = front ++ file :: rest)
      (earlier : ∀ earlier ∈ front, command.IsReady world plan earlier)
      (placed : command.HasPackage world.disk plan.module file package)
      (refused : world.disk.Refuses world.reader file.render error) :
      Stops world command (.load (.source error))

/-- The command scans all of its files, each under its import path, with the given results. -/
def Completes (world : World) (command : Command) (results : List ScanResult) : Prop :=
  ∃ plan, IsPlan world command plan ∧ List.Forall₂ (fun file result => ∃ package,
    command.HasPackage world.disk plan.module file package ∧
      (scanFile world.disk { file := file.render, package, spaceName := plan.settings.spaceName }
        world.reader).outcome = .ok result) plan.files results

section

variable {world : World} {command : Command} {plan : Plan}

theorem plan_outcome_eq_ok_iff :
    (command.plan world).outcome = .ok plan ↔ IsPlan world command plan := by
  simp only [Command.plan, Job.andThen_outcome_eq_ok_iff, Job.ofExcept_outcome_eq_ok_iff,
    Job.done_outcome_eq_ok_iff, settings_outcome_eq_ok_iff, files_outcome_eq_ok_iff]
  constructor
  · rintro ⟨settings, configured, module, resolved, files, found, rfl⟩
    exact ⟨configured, (module_eq_ok_iff configured).mp resolved, found⟩
  · rintro ⟨configured, has, found⟩
    exact ⟨_, configured, _, (module_eq_ok_iff configured).mpr has, _, found, rfl⟩

theorem plan_outcome_eq_error_iff {failure : Failure} :
    (command.plan world).outcome = .error failure ↔
      (∃ error, Misconfigured world command error ∧ failure = .settings error) ∨
      ∃ settings, Configured world command settings ∧
        ((∃ error, LacksModule world.disk command settings error ∧ failure = .module error) ∨
        ∃ module, HasModule world.disk command settings module ∧
          failure = .emptyPattern ∧ command.MeetsEmptyPattern world settings) := by
  simp only [Command.plan, Job.andThen_outcome_eq_error_iff, Job.ofExcept_outcome_eq_error_iff,
    Job.ofExcept_outcome_eq_ok_iff, Job.done_outcome_ne_error, and_false, exists_false, or_false,
    settings_outcome_eq_error_iff, settings_outcome_eq_ok_iff, files_outcome_eq_error_iff]
  refine or_congr_right (exists_congr fun settings => and_congr_right fun configured => ?_)
  simp only [module_eq_error_iff configured, module_eq_ok_iff configured]

section

variable (intact : world.reader.KeepsIntact) (planned : IsPlan world command plan) {file : Route}

theorem scanAt_outcome_eq_ok_iff (planned : IsPlan world command plan) {result : ScanResult} :
    (command.scanAt world plan file).outcome = .ok result ↔ ∃ package,
      command.HasPackage world.disk plan.module file package ∧
        (scanFile world.disk { file := file.render, package, spaceName := plan.settings.spaceName }
          world.reader).outcome = .ok result := by
  simp only [scanAt, Job.andThen_outcome_eq_ok_iff, Job.ofExcept_outcome_eq_ok_iff,
    package_eq_ok_iff planned.module]

include intact planned

theorem scanAt_outcome_eq_error_iff {failure : Failure} :
    (command.scanAt world plan file).outcome = .error failure ↔
      (∃ root name, plan.module = some (root, name) ∧
        (∀ package, ¬ command.HasPackage world.disk plan.module file package) ∧
        failure = .module (.outside (command.shownFolder world.disk file) name)) ∨
      ∃ package error, command.HasPackage world.disk plan.module file package ∧
        world.disk.Refuses world.reader file.render error ∧ failure = .load (.source error) := by
  simp only [scanAt, Job.andThen_outcome_eq_error_iff, Job.ofExcept_outcome_eq_error_iff,
    Job.ofExcept_outcome_eq_ok_iff, package_eq_ok_iff planned.module,
    package_eq_error_iff planned.module, (intact.steady _ _).outcome_eq_error_iff]
  refine or_congr ⟨?_, ?_⟩ (by simp only [exists_and_left])
  · rintro ⟨_, ⟨root, name, derived, rfl, unplaced⟩, rfl⟩
    exact ⟨root, name, derived, unplaced, rfl⟩
  · rintro ⟨root, name, derived, unplaced, rfl⟩
    exact ⟨_, ⟨root, name, derived, rfl, unplaced⟩, rfl⟩

/-- The files that are scanned to a result are those that are ready. -/
theorem isReady_iff : command.IsReady world plan file ↔
    ∃ result, (command.scanAt world plan file).outcome = .ok result := by
  simp only [IsReady, scanAt_outcome_eq_ok_iff planned]
  rw [exists_comm]
  simp only [exists_and_left, (intact.steady _ _).exists_outcome_eq_ok_iff, exists_and_right]

end

theorem completes_iff {results : List ScanResult} :
    Completes world command results ↔ (scanAll world command).outcome = .ok results := by
  simp only [Completes, scanAll, Job.andThen_outcome_eq_ok_iff, Job.collect_outcome_eq_ok_iff,
    plan_outcome_eq_ok_iff]
  refine exists_congr fun plan => and_congr_right fun planned => ?_
  simp only [scanAt_outcome_eq_ok_iff planned]

/-- What is wrong for a command is what its scans fail with. -/
theorem stops_iff (intact : world.reader.KeepsIntact) {failure : Failure} :
    Stops world command failure ↔ (scanAll world command).outcome = .error failure := by
  simp only [scanAll, Job.andThen_outcome_eq_error_iff, plan_outcome_eq_error_iff,
    plan_outcome_eq_ok_iff, Job.collect_outcome_eq_error_iff]
  constructor
  · intro stops
    cases stops with
    | settings misconfigured => exact .inl (.inl ⟨_, misconfigured, rfl⟩)
    | module configured lacks => exact .inl (.inr ⟨_, configured, .inl ⟨_, lacks, rfl⟩⟩)
    | pattern configured has meets =>
      exact .inl (.inr ⟨_, configured, .inr ⟨_, has, rfl, meets⟩⟩)
    | outside planned split earlier derived unplaced =>
      exact .inr ⟨_, planned, _, _, _, split, (scanAt_outcome_eq_error_iff intact planned).mpr
        (.inl ⟨_, _, derived, unplaced, rfl⟩),
        fun file member => (isReady_iff intact planned).mp (earlier file member)⟩
    | source planned split earlier placed refused =>
      exact .inr ⟨_, planned, _, _, _, split, (scanAt_outcome_eq_error_iff intact planned).mpr
        (.inr ⟨_, _, placed, refused, rfl⟩),
        fun file member => (isReady_iff intact planned).mp (earlier file member)⟩
  · rintro ((⟨error, misconfigured, rfl⟩ | ⟨settings, configured, ⟨error, lacks, rfl⟩ |
      ⟨module, has, rfl, meets⟩⟩) | ⟨plan, planned, front, file, rest, split, failed, earlier⟩)
    · exact .settings misconfigured
    · exact .module configured lacks
    · exact .pattern configured has meets
    · have ready : ∀ earlier ∈ front, command.IsReady world plan earlier :=
        fun file member => (isReady_iff intact planned).mpr (earlier file member)
      obtain ⟨root, name, derived, unplaced, rfl⟩ | ⟨package, error, placed, refused, rfl⟩ :=
        (scanAt_outcome_eq_error_iff intact planned).mp failed
      · exact .outside planned split ready derived unplaced
      · exact .source planned split ready placed refused

end

end Command

end AssetRefs
