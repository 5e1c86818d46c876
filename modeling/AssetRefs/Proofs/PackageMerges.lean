import AssetRefs.Proofs.ModuleFiles
import AssetRefs.Proofs.PathOrder
import AssetRefs.Proofs.SteadyScans

/-! # Package scans as merges

A package scan is a run over the files that discovery finds, in the order of their paths. It stops
at the first file that has no import path or cannot be loaded; otherwise each file contributes what
it has when it is scanned alone, and the results are merged. The order in which a listing names the
files does not matter: see `package_scans_merge_files`.
-/

namespace AssetRefs

/-! ## Sequences of jobs -/

namespace Job

variable {α β : Type}

/-- The failure of a job, if it fails. -/
def failure? (job : Job α) : Option Failure :=
  match job.outcome with
  | .ok _ => none
  | .error failure => some failure

theorem failure?_of_ok {job : Job α} {value : α} (gives : job.outcome = .ok value) :
    job.failure? = none := by
  simp [failure?, gives]

theorem failure?_of_error {job : Job α} {failure : Failure} (fails : job.outcome = .error failure) :
    job.failure? = some failure := by
  simp [failure?, fails]

theorem failure?_eq_some_iff {job : Job α} {failure : Failure} :
    job.failure? = some failure ↔ job.outcome = .error failure := by
  cases ending : job.outcome with
  | ok => simp [failure?_of_ok ending]
  | error => simp [failure?_of_error ending]

theorem failure?_eq_none_iff {job : Job α} :
    job.failure? = none ↔ ∃ value, job.outcome = .ok value := by
  cases ending : job.outcome with
  | ok => simp [failure?_of_ok ending]
  | error => simp [failure?_of_error ending]

theorem failure?_andThen_done {first : Job α} {next : α → β} :
    (first.andThen fun value => done (next value)).failure? = first.failure? := by
  cases ending : first.outcome with
  | ok =>
    rw [failure?_of_ok ending]
    exact failure?_of_ok (andThen_outcome_of_ok ending _)
  | error =>
    rw [failure?_of_error ending]
    exact failure?_of_error (andThen_outcome_of_error ending _)

/-- A run over a list fails as the first job that does. -/
theorem collect_failure? (job : α → Job β) (items : List α) :
    (collect job items).failure? = items.findSome? fun item => (job item).failure? := by
  induction items with
  | nil => rfl
  | cons item rest ih =>
    rw [collect, List.findSome?_cons, ← ih]
    cases ending : (job item).outcome with
    | error =>
      rw [failure?_of_error ending]
      exact failure?_of_error (andThen_outcome_of_error ending _)
    | ok value =>
      rw [failure?_of_ok ending, failure?, andThen_outcome_of_ok ending]
      exact failure?_andThen_done

theorem collect_outcome_eq_error_iff {job : α → Job β} {items : List α} {failure : Failure} :
    (collect job items).outcome = .error failure ↔
      ∃ front item rest, items = front ++ item :: rest ∧ (job item).outcome = .error failure ∧
        ∀ earlier ∈ front, ∃ value, (job earlier).outcome = .ok value := by
  rw [← failure?_eq_some_iff, collect_failure?, List.findSome?_eq_some_iff]
  simp only [failure?_eq_some_iff, failure?_eq_none_iff]

end Job

/-- If an item of a list has a property, there is a first one that has it. -/
theorem exists_first {α : Type} {holds : α → Prop} {items : List α}
    (some : ∃ item ∈ items, holds item) : ∃ front item rest, items = front ++ item :: rest ∧
      holds item ∧ ∀ earlier ∈ front, ¬ holds earlier := by
  classical
  obtain ⟨item, found⟩ := Option.isSome_iff_exists.mp
    (List.find?_isSome.mpr (by simpa using some) :
      (items.find? fun item => decide (holds item)).isSome)
  obtain ⟨here, front, rest, split, earlier⟩ := List.find?_eq_some_iff_append.mp found
  exact ⟨front, item, rest, split, by simpa using here, by simpa using earlier⟩

/-! ## Listings -/

theorem Discovery.perm_candidates {first second : String}
    (reordered : (Text.lines first.toList).Perm (Text.lines second.toList)) (disk : Disk)
    (recursive : Bool) (root : Location) :
    (candidates disk (some first) recursive root).Perm
      (candidates disk (some second) recursive root) :=
  ((reordered.map Text.trim).filterMap _).map slashed

/-- Discovery does not depend on the order of a listing. -/
theorem discover_outcome_of_perm {first second : String}
    (reordered : (Text.lines first.toList).Perm (Text.lines second.toList)) (disk : Disk)
    (options : DiscoveryOptions) (root : Location) :
    (discover disk (some first) options root).outcome =
      (discover disk (some second) options root).outcome := by
  have same := Discovery.perm_candidates reordered disk options.recursive root
  by_cases decided : ∀ path ∈ Discovery.candidates disk (some first) options.recursive root,
      Discovery.Decided options path
  · rw [discover_outcome_of_decided _ _ _ decided,
      discover_outcome_of_decided _ _ _ fun path member => decided path (same.mem_iff.mpr member),
      mergeSort_eq_of_perm (same.filter _)]
  · push Not at decided
    obtain ⟨path, member, undecided⟩ := decided
    rw [discover_outcome_of_not_decided member undecided,
      discover_outcome_of_not_decided (same.mem_iff.mp member) undecided]

/-! ## Packages -/

theorem PackageResult.errors_eq_nil_iff {result : PackageResult} :
    result.errors = [] ↔ result.ok := by
  simp [errors, ok, ScanResult.ok, List.flatMap_eq_nil_iff]

namespace PackageScan

/-- The module that import paths are derived from, unless the import path is given for the one
folder. -/
def moduleFor (disk : Disk) (options : PackageOptions) (folder : Location) :
    Except ModuleError (Option (Location × String)) :=
  if options.package.isNone || options.recursive then (moduleOf disk options.module folder).map some
  else .ok none

/-- How a file found below a folder is scanned. -/
def contextFor (options : PackageOptions) (folder : Location) (path package : String) :
    ScanContext :=
  { file := (Discovery.routeTo folder path).render, package, spaceName := options.spaceName }

/-- The import path of the folder of a file found, in the module, or the one given for the one
folder. -/
def HasPackage (disk : Disk) (options : PackageOptions) (module : Option (Location × String))
    (folder : Location) (path package : String) : Prop :=
  match module with
  | none => options.package = some package
  | some (root, name) =>
    GoModule.HasImportPath ((Discovery.routeTo folder path).parent.locate disk.here) root name
      package

/-- What is wrong with a file found below a folder: its own folder has no import path in the module,
or the file cannot be read or parsed. -/
inductive FailsAt (disk : Disk) (reader : SourceReader) (options : PackageOptions)
    (module : Option (Location × String)) (folder : Location) (path : String) :
    Failure → Prop where
  | outside {root : Location} {name : String} (derived : module = some (root, name))
      (unplaced : ∀ package, ¬ HasPackage disk options module folder path package) :
      FailsAt disk reader options module folder path
        (.module (.outside (Discovery.routeTo folder path).parent.render name))
  | source {package : String} {error : SourceError}
      (placed : HasPackage disk options module folder path package)
      (refused : disk.Refuses reader (Discovery.routeTo folder path).render error) :
      FailsAt disk reader options module folder path (.load (.source error))

section

variable {disk : Disk} {options : PackageOptions} {module : Option (Location × String)}
  {folder : Location} {path package : String}
  (placed : HasPackage disk options module folder path package) (reader : SourceReader)

include placed

theorem HasPackage.failsAt_iff {failure : Failure} :
    FailsAt disk reader options module folder path failure ↔ ∃ error,
      disk.Refuses reader (Discovery.routeTo folder path).render error ∧
        failure = .load (.source error) := by
  constructor
  · rintro (⟨_, unplaced⟩ | ⟨_, refused⟩)
    · exact absurd placed (unplaced package)
    · exact ⟨_, refused, rfl⟩
  · rintro ⟨error, refused, rfl⟩
    exact .source placed refused

theorem HasPackage.forall_not_failsAt_iff :
    (∀ failure, ¬ FailsAt disk reader options module folder path failure) ↔
      ∀ error, ¬ disk.Refuses reader (Discovery.routeTo folder path).render error := by
  simp only [placed.failsAt_iff, not_exists, not_and]
  exact ⟨fun sound error refused => sound _ error refused rfl,
    fun loads failure error refused _ => loads error refused⟩

end

/-- The result has the results of the files, each scanned alone under the import path of its folder,
and the paths that occur in them. -/
structure Merges (disk : Disk) (reader : SourceReader) (options : PackageOptions)
    (module : Option (Location × String)) (folder : Location) (files : List String)
    (result : PackageResult) : Prop where
  root : result.root = folder.render
  scanned : List.Forall₂ (fun path file => ∃ package,
    HasPackage disk options module folder path package ∧
      (scanFile disk (contextFor options folder path package) reader).outcome = .ok file)
    files result.files
  increasing : AssetPath.Increasing result.paths
  mem_paths : ∀ path, path ∈ result.paths ↔ ∃ file ∈ result.files, path ∈ file.paths

end PackageScan

section

variable {disk : Disk} {reader : SourceReader} {listing : Option String} {options : PackageOptions}
  {folder : Location} {module : Option (Location × String)} {files : List String}

variable (disk listing options folder reader) in
/-- A package scan is the resolution of a module, the discovery of files and a run over them. -/
theorem scanPackage_outcome : (scanPackage disk listing options folder reader).outcome =
    ((Job.ofExcept .module (PackageScan.moduleFor disk options folder)).andThen fun module =>
      (discover disk listing options.toDiscoveryOptions folder).andThen fun files =>
        (Job.collect (PackageScan.scanOne reader disk options module folder) files).andThen
          fun results => .done ⟨folder.render,
            AssetPath.sorted (results.flatMap ScanResult.paths), results⟩).outcome := by
  have start : (if options.package.isNone || options.recursive then
      (Job.ofExcept .module (PackageScan.moduleOf disk options.module folder)).andThen
        fun module => .done (some module)
      else .done none : Job (Option (Location × String))) =
      Job.ofExcept .module (PackageScan.moduleFor disk options folder) := by
    unfold PackageScan.moduleFor
    split_ifs
    · cases PackageScan.moduleOf disk options.module folder with
      | error => rfl
      | ok => rfl
    · rfl
  rw [scanPackage, start]
  exact Job.andThen_outcome_congr fun module => Job.andThen_outcome_congr fun files =>
    Job.write_andThen_outcome _ _

/-- A package scan does not depend on the order of a listing. -/
theorem scanPackage_outcome_of_perm {first second : String}
    (reordered : (Text.lines first.toList).Perm (Text.lines second.toList)) (disk : Disk)
    (options : PackageOptions) (folder : Location) (reader : SourceReader) :
    (scanPackage disk (some first) options folder reader).outcome =
      (scanPackage disk (some second) options folder reader).outcome := by
  refine Job.andThen_outcome_congr fun module => ?_
  have same := discover_outcome_of_perm reordered disk options.toDiscoveryOptions folder
  cases ending : (discover disk (some second) options.toDiscoveryOptions folder).outcome with
  | error =>
    rw [Job.andThen_outcome_of_error ending, Job.andThen_outcome_of_error (same.trans ending)]
  | ok files =>
    rw [Job.andThen_outcome_of_ok ending, Job.andThen_outcome_of_ok (same.trans ending)]

section

variable (resolved : PackageScan.moduleFor disk options folder = .ok module)

include resolved

theorem scanPackage_outcome_of_module :
    (scanPackage disk listing options folder reader).outcome =
      ((discover disk listing options.toDiscoveryOptions folder).andThen fun files =>
        (Job.collect (PackageScan.scanOne reader disk options module folder) files).andThen
          fun results => .done ⟨folder.render,
            AssetPath.sorted (results.flatMap ScanResult.paths), results⟩).outcome := by
  rw [scanPackage_outcome, Job.andThen_outcome_of_ok (Job.ofExcept_outcome_eq_ok_iff.mpr resolved)]

namespace PackageScan

/-- No module is needed if an import path is given for the one folder. -/
theorem module_eq_none_iff :
    module = none ↔ options.package.isSome ∧ options.recursive = false := by
  unfold moduleFor at resolved
  split_ifs at resolved with derives
  · have needed : ¬(options.package.isSome ∧ options.recursive = false) := by
      rcases Bool.or_eq_true_iff.mp derives with unset | deep
      · simp [Option.isNone_iff_eq_none.mp unset]
      · simp [deep]
    simp only [needed, iff_false]
    rintro rfl
    obtain ⟨_, _, ⟨⟩⟩ := Except.map_eq_ok_iff.mp resolved
  · have given : options.package.isSome ∧ options.recursive = false := by
      simpa [Option.isSome_iff_ne_none] using derives
    simpa [given] using (Except.ok.inj resolved).symm

/-- The module that import paths are derived from is the nearest one. -/
theorem isRoot_of_moduleFor {root : Location} {name : String}
    (derived : module = some (root, name)) :
    IsRoot disk options.module folder root ∧ IsNamed disk root options.module name := by
  subst derived
  unfold moduleFor at resolved
  split_ifs at resolved
  · obtain ⟨_, named, ⟨⟩⟩ := Except.map_eq_ok_iff.mp resolved
    exact moduleOf_eq_ok_iff.mp named
  · cases resolved

theorem packageOf_eq_ok_iff {path package : String} :
    packageOf disk module (options.package.getD "") (Discovery.routeTo folder path) =
        .ok package ↔ HasPackage disk options module folder path package := by
  cases module with
  | none =>
    have set := ((module_eq_none_iff resolved).mp rfl).1
    obtain ⟨given, set⟩ := Option.isSome_iff_exists.mp set
    simp [packageOf, HasPackage, set]
  | some module => simp only [packageOf, HasPackage, GoModule.importPath_eq_ok_iff_hasImportPath]

theorem packageOf_eq_error_iff {path : String} {error : ModuleError} :
    packageOf disk module (options.package.getD "") (Discovery.routeTo folder path) =
        .error error ↔ ∃ root name, module = some (root, name) ∧
      error = .outside (Discovery.routeTo folder path).parent.render name ∧
      ∀ package, ¬ HasPackage disk options module folder path package := by
  cases module with
  | none => simp [packageOf]
  | some module =>
    obtain ⟨root, name⟩ := module
    simp only [packageOf, HasPackage, GoModule.importPath_eq_error_iff]
    constructor
    · rintro ⟨same, unplaced⟩
      exact ⟨root, name, rfl, same, unplaced⟩
    · rintro ⟨_, _, ⟨⟩, same, unplaced⟩
      exact ⟨same, unplaced⟩

theorem scanOne_outcome_eq_ok_iff_hasPackage {path : String} {result : ScanResult} :
    (scanOne reader disk options module folder path).outcome = .ok result ↔
      ∃ package, HasPackage disk options module folder path package ∧
        (scanFile disk (contextFor options folder path package) reader).outcome = .ok result := by
  simp only [scanOne_outcome_eq_ok_iff, packageOf_eq_ok_iff resolved, contextFor]

theorem scanOne_outcome_eq_error_iff {path : String}
    (steady : ∀ package, HasPackage disk options module folder path package →
      IsSteady disk (contextFor options folder path package) reader)
    (failure : Failure) :
    (scanOne reader disk options module folder path).outcome = .error failure ↔
      FailsAt disk reader options module folder path failure := by
  simp only [scanOne, Job.andThen_outcome_eq_error_iff, Job.ofExcept_outcome_eq_error_iff,
    Job.ofExcept_outcome_eq_ok_iff, packageOf_eq_ok_iff resolved, packageOf_eq_error_iff resolved]
  constructor
  · rintro (⟨_, ⟨root, name, derived, rfl, unplaced⟩, rfl⟩ | ⟨package, placed, fails⟩)
    · exact .outside derived unplaced
    · obtain ⟨error, refused, rfl⟩ := (steady package placed).outcome_eq_error_iff.mp fails
      exact .source placed refused
  · rintro (⟨derived, unplaced⟩ | ⟨placed, refused⟩)
    · exact .inl ⟨_, ⟨_, _, derived, rfl, unplaced⟩, rfl⟩
    · exact .inr ⟨_, placed, (steady _ placed).outcome_eq_error_iff.mpr ⟨_, refused, rfl⟩⟩

end PackageScan

end

theorem merges_of_scanPackage {result : PackageResult}
    (scanned : (scanPackage disk listing options folder reader).outcome = .ok result) :
    ∃ module files, PackageScan.moduleFor disk options folder = .ok module ∧
      (discover disk listing options.toDiscoveryOptions folder).outcome = .ok files ∧
      PackageScan.Merges disk reader options module folder files result := by
  simp only [scanPackage_outcome, Job.andThen_outcome_eq_ok_iff, Job.ofExcept_outcome_eq_ok_iff,
    Job.done_outcome_eq_ok_iff, Job.collect_outcome_eq_ok_iff] at scanned
  obtain ⟨module, resolved, files, found, results, collected, rfl⟩ := scanned
  refine ⟨module, files, resolved, found, rfl, ?_, AssetPath.increasing_sorted _, fun path => ?_⟩
  · exact collected.imp fun _ _ => (PackageScan.scanOne_outcome_eq_ok_iff_hasPackage resolved).mp
  · rw [AssetPath.mem_sorted, List.mem_flatMap]

/-- A package scan fails as the first file that does. -/
theorem scanPackage_outcome_eq_error_iff
    (resolved : PackageScan.moduleFor disk options folder = .ok module)
    (found : (discover disk listing options.toDiscoveryOptions folder).outcome = .ok files)
    (steady : ∀ path ∈ files, ∀ package,
      PackageScan.HasPackage disk options module folder path package →
      IsSteady disk (PackageScan.contextFor options folder path package) reader)
    (failure : Failure) :
    (scanPackage disk listing options folder reader).outcome = .error failure ↔
      ∃ front path rest, files = front ++ path :: rest ∧
        PackageScan.FailsAt disk reader options module folder path failure ∧
        ∀ earlier ∈ front, ∀ other,
          ¬ PackageScan.FailsAt disk reader options module folder earlier other := by
  have fails {path : String} (member : path ∈ files) :=
    PackageScan.scanOne_outcome_eq_error_iff resolved (steady path member)
  simp only [scanPackage_outcome_of_module resolved, Job.andThen_outcome_of_ok found,
    Job.andThen_outcome_eq_error_iff, Job.done_outcome_ne_error, and_false, exists_false, or_false,
    Job.collect_outcome_eq_error_iff]
  refine exists_congr fun front => exists_congr fun path => exists_congr fun rest =>
    and_congr_right fun split => and_congr (fails (by simp [split]) failure) ?_
  refine forall₂_congr fun earlier member => ?_
  have listed : earlier ∈ files := by simp [split, member]
  rw [← Job.failure?_eq_none_iff, Option.eq_none_iff_forall_ne_some]
  exact forall_congr' fun other => by rw [ne_eq, Job.failure?_eq_some_iff, fails listed]

end

/-- Let there be a module, if it is needed, and let the scan of a file fail only if the file cannot
be read or parsed. No module is needed if an import path is given for the one folder; otherwise it
is the nearest one, under the name given or the one in its file. Then a package scan fails at the
first of the files found, in the order of their paths, whose folder has no import path or that
cannot be read or parsed. So if all folders have import paths, it fails with the error about the
first file that cannot be read or parsed. If there is nothing wrong with any file, it has the
results of the files scanned alone, in that order, with their paths merged. A listing in another
order leads to the same outcome. -/
theorem package_scans_merge_files (disk : Disk) (reader : SourceReader) (listing : Option String)
    (options : PackageOptions) (folder : Location) (module : Option (Location × String))
    (files : List String) (resolved : PackageScan.moduleFor disk options folder = .ok module)
    (found : (discover disk listing options.toDiscoveryOptions folder).outcome = .ok files)
    (steady : ∀ path ∈ files, ∀ package,
      PackageScan.HasPackage disk options module folder path package →
      IsSteady disk (PackageScan.contextFor options folder path package) reader) :
    files.Pairwise (· ≤ ·) ∧
      (module = none ↔ options.package.isSome ∧ options.recursive = false) ∧
      (∀ root name, module = some (root, name) →
        PackageScan.IsRoot disk options.module folder root ∧
          PackageScan.IsNamed disk root options.module name) ∧
      (∀ failure, (scanPackage disk listing options folder reader).outcome = .error failure ↔
        ∃ front path rest, files = front ++ path :: rest ∧
          PackageScan.FailsAt disk reader options module folder path failure ∧
          ∀ earlier ∈ front, ∀ other,
            ¬ PackageScan.FailsAt disk reader options module folder earlier other) ∧
      ((∀ path ∈ files, ∃ package,
          PackageScan.HasPackage disk options module folder path package) →
        ((∃ error, (scanPackage disk listing options folder reader).outcome =
            .error (.load (.source error))) ↔
          ∃ path ∈ files, ∃ error,
            disk.Refuses reader (Discovery.routeTo folder path).render error) ∧
        ∀ error, (scanPackage disk listing options folder reader).outcome =
            .error (.load (.source error)) ↔
          ∃ front path rest, files = front ++ path :: rest ∧
            disk.Refuses reader (Discovery.routeTo folder path).render error ∧
            ∀ earlier ∈ front, ∀ other,
              ¬ disk.Refuses reader (Discovery.routeTo folder earlier).render other) ∧
      ((∀ path ∈ files, ∀ failure,
          ¬ PackageScan.FailsAt disk reader options module folder path failure) →
        ∃ result, (scanPackage disk listing options folder reader).outcome = .ok result ∧
          PackageScan.Merges disk reader options module folder files result ∧
          result.errors = (result.files.map ScanResult.errors).flatten ∧
          (result.errors = [] ↔ result.ok)) ∧
      ∀ first second, listing = some first →
        (Text.lines first.toList).Perm (Text.lines second.toList) →
        (scanPackage disk (some second) options folder reader).outcome =
          (scanPackage disk listing options folder reader).outcome := by
  have stops := scanPackage_outcome_eq_error_iff resolved found steady
  have sorted : files.Pairwise (· ≤ ·) := by
    obtain ⟨kept, _, rfl⟩ := discover_outcome_eq_ok_iff.mp found
    exact List.pairwise_mergeSort' (· ≤ ·) kept
  refine ⟨sorted, PackageScan.module_eq_none_iff resolved,
    fun _ _ => PackageScan.isRoot_of_moduleFor resolved, stops, fun placed => ?_,
    fun sound => ?_, ?_⟩
  · -- A file with an import path fails just if it is refused.
    have first (error : SourceError) :
        (scanPackage disk listing options folder reader).outcome = .error (.load (.source error)) ↔
          ∃ front path rest, files = front ++ path :: rest ∧
            disk.Refuses reader (Discovery.routeTo folder path).render error ∧
            ∀ earlier ∈ front, ∀ other,
              ¬ disk.Refuses reader (Discovery.routeTo folder earlier).render other := by
      refine (stops _).trans (exists_congr fun front => exists_congr fun path =>
        exists_congr fun rest => and_congr_right fun split => and_congr ?_ ?_)
      · obtain ⟨_, here⟩ := placed path (by simp [split])
        simp [here.failsAt_iff]
      · refine forall₂_congr fun earlier member => ?_
        obtain ⟨_, here⟩ := placed earlier (by simp [split, member])
        exact here.forall_not_failsAt_iff reader
    refine ⟨⟨?_, fun refused => ?_⟩, first⟩
    · rintro ⟨error, fails⟩
      obtain ⟨front, path, rest, rfl, refused, _⟩ := (first error).mp fails
      exact ⟨path, by simp, error, refused⟩
    · obtain ⟨front, path, rest, split, ⟨error, refused⟩, earlier⟩ := exists_first refused
      exact ⟨error, (first error).mpr ⟨front, path, rest, split, refused,
        fun path member => not_exists.mp (earlier path member)⟩⟩
  · cases ending : (scanPackage disk listing options folder reader).outcome with
    | error failure =>
      obtain ⟨front, path, rest, rfl, fails, _⟩ := (stops failure).mp ending
      exact absurd fails (sound path (by simp) failure)
    | ok result =>
      obtain ⟨same, others, resolvedAgain, foundAgain, merges⟩ := merges_of_scanPackage ending
      obtain rfl := Except.ok.inj (resolved.symm.trans resolvedAgain)
      obtain rfl := Except.ok.inj (found.symm.trans foundAgain)
      exact ⟨result, rfl, merges, List.flatMap_def, PackageResult.errors_eq_nil_iff⟩
  · rintro first second rfl reordered
    exact (scanPackage_outcome_of_perm reordered disk options folder reader).symm

/-- A folder with a Go file and two files that are none. -/
def brokenFolder : Disk where
  root := .folder [("a.go", .file "package a\n\nvar f = pkger.Open(\"/x\")\n".toUTF8),
    ("b.go", .file "package b )".toUTF8), ("c.go", .file "?".toUTF8)]

/-- The second file is the one that the scan stops at, although the listing has the third one
first. -/
theorem package_scans_merge_files_broken :
    ∃ error, (scanPackage brokenFolder (some "c.go\na.go\nb.go\n") { package := some "app" }
        []).outcome = .error (.load (.source error)) ∧ error.path = "/b.go" ∧
      (scanPackage brokenFolder (some "b.go\nc.go\na.go\n") { package := some "app" }
        []).outcome = .error (.load (.source error)) := by
  have found : (discover brokenFolder (some "c.go\na.go\nb.go\n") {} []).outcome =
      .ok ["a.go", "b.go", "c.go"] := by
    refine discover_outcome_eq_ok_iff.mpr ⟨["c.go", "a.go", "b.go"], by decide +kernel, ?_⟩
    exact (mergeSort_eq_of_perm (by decide)).trans (List.mergeSort_of_pairwise (by decide))
  have steady (path package : String) : IsSteady brokenFolder
      (PackageScan.contextFor { package := some "app" } [] path package) {} :=
    (SourceReader.keepsIntact_of_parse? _).steady _ _
  obtain ⟨_, _, _, stops, _, _, reordered⟩ := package_scans_merge_files brokenFolder {}
    (some "c.go\na.go\nb.go\n") { package := some "app" } [] none ["a.go", "b.go", "c.go"] rfl found
    fun path _ package _ => steady path package
  have given (path : String) : PackageScan.HasPackage brokenFolder { package := some "app" } none []
      path "app" := rfl
  have sound : ∀ failure, ¬ PackageScan.FailsAt brokenFolder {} { package := some "app" } none []
      "a.go" failure := by
    rw [(given "a.go").forall_not_failsAt_iff]
    refine (steady "a.go" "app").exists_outcome_eq_ok_iff.mp
      ⟨⟨"/a.go", "app", [⟨"app", "/x"⟩], []⟩, ?_⟩
    decide +kernel
  have broken : (scanFile brokenFolder (PackageScan.contextFor { package := some "app" } [] "b.go"
      "app")).outcome =
        .error (.load (.source { path := "/b.go", message := "syntax error" })) := by
    decide +kernel
  have fails := (stops _).mpr ⟨["a.go"], "b.go", ["c.go"], rfl,
    .source (given "b.go") (scanFile_outcome_eq_source_iff.mp broken), by simpa using sound⟩
  exact ⟨_, fails, rfl, (reordered _ _ rfl (by decide +kernel)).trans fails⟩

/-- A module with a Go file in a folder whose name starts with two dots. -/
def dottedModule : Disk where
  root := .folder [("go.mod", .file "module app\n".toUTF8),
    ("..data", .folder [("a.go", .file "package a\n\nvar f = pkger.Open(\"/x\")\n".toUTF8)])]

/-- A folder whose name starts with two dots has no import path, so there is no scan of it, although
its module and its file are as they should be. -/
theorem dotted_folders_are_not_scanned :
    PackageScan.moduleFor dottedModule {} ["..data"] = .ok (some ([], "app")) ∧
    (discover dottedModule none {} ["..data"]).outcome = .ok ["a.go"] ∧
    (∀ error, ¬ dottedModule.Refuses {} "/..data/a.go" error) ∧
    (scanPackage dottedModule none {} ["..data"]).outcome =
      .error (.module (.outside "/..data" "app")) ∧
    ¬ ∀ (disk : Disk) (listing : Option String) (options : PackageOptions) (folder : Location)
      (module : Option (Location × String)) (files : List String),
      PackageScan.moduleFor disk options folder = .ok module →
      (discover disk listing options.toDiscoveryOptions folder).outcome = .ok files →
      (∀ path ∈ files, ∀ error, ¬ disk.Refuses {} (Discovery.routeTo folder path).render error) →
      ∃ result, (scanPackage disk listing options folder).outcome = .ok result := by
  have resolved : PackageScan.moduleFor dottedModule {} ["..data"] = .ok (some ([], "app")) := by
    decide +kernel
  have candidates : Discovery.candidates dottedModule none false ["..data"] = ["a.go"] := by
    simp [Discovery.candidates, Discovery.walked, Disk.at?, FileTree.at?, FileTree.below?,
      dottedModule, FileTree.filesBelow, FileTree.filesAmong, Discovery.slashed]
  have found : (discover dottedModule none {} ["..data"]).outcome = .ok ["a.go"] := by
    refine discover_outcome_eq_ok_iff.mpr ⟨["a.go"], ?_, List.mergeSort_of_pairwise (by decide)⟩
    rw [candidates]
    decide +kernel
  have loads : ∀ error, ¬ dottedModule.Refuses {} "/..data/a.go" error := by
    have steady : IsSteady dottedModule { file := "/..data/a.go", package := "app" } {} :=
      (SourceReader.keepsIntact_of_parse? _).steady _ _
    refine steady.exists_outcome_eq_ok_iff.mp
      ⟨⟨"/..data/a.go", "app", [⟨"app", "/x"⟩], []⟩, ?_⟩
    decide +kernel
  have stops : (scanPackage dottedModule none {} ["..data"]).outcome =
      .error (.module (.outside "/..data" "app")) := by
    rw [scanPackage_outcome_of_module resolved, Job.andThen_outcome_of_ok found]
    decide +kernel
  refine ⟨resolved, found, loads, stops, fun scans => ?_⟩
  have file : (Discovery.routeTo ["..data"] "a.go").render = "/..data/a.go" := by decide +kernel
  obtain ⟨result, scanned⟩ := scans _ _ _ _ _ _ resolved found (by simpa [file] using loads)
  cases stops.symm.trans scanned

end AssetRefs
