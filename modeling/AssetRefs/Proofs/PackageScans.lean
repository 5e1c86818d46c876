import AssetRefs.PackageScan
import Mathlib.Data.List.Forall2

/-! # What a package scan is made of

A job that ends with a value is a sequence of jobs that do. So a package scan that returns has found
a module and files, and has a result for each of the files, in their order; a result names the file
and the import path that it was asked for.
-/

namespace AssetRefs

namespace Except

variable {ε α β : Type} {given : Except ε α} {error : ε} {value : β}

theorem map_eq_ok_iff {f : α → β} :
    given.map f = .ok value ↔ ∃ inner, given = .ok inner ∧ f inner = value := by
  cases given with
  | error => simp [Except.map]
  | ok => simp [Except.map]

theorem map_eq_error_iff {f : α → β} : given.map f = .error error ↔ given = .error error := by
  cases given with
  | error => simp [Except.map]
  | ok => simp [Except.map]

theorem bind_eq_ok_iff {next : α → Except ε β} :
    given >>= next = .ok value ↔ ∃ middle, given = .ok middle ∧ next middle = .ok value := by
  cases given with
  | error => simp [bind, Except.bind]
  | ok => simp [bind, Except.bind]

theorem bind_eq_error_iff {next : α → Except ε β} :
    given >>= next = .error error ↔
      given = .error error ∨ ∃ middle, given = .ok middle ∧ next middle = .error error := by
  cases given with
  | error => simp [bind, Except.bind]
  | ok => simp [bind, Except.bind]

end Except

namespace Job

variable {α β : Type}

theorem andThen_outcome (first : Job α) (next : α → Job β) :
    (first.andThen next).outcome = first.outcome.bind fun value => (next value).outcome := by
  unfold andThen
  cases first.outcome with
  | error => rfl
  | ok => rfl

theorem andThen_outcome_eq_ok_iff {first : Job α} {next : α → Job β} {value : β} :
    (first.andThen next).outcome = .ok value ↔
      ∃ middle, first.outcome = .ok middle ∧ (next middle).outcome = .ok value := by
  unfold andThen
  cases first.outcome with
  | error => simp
  | ok middle => simp

theorem andThen_outcome_eq_error_iff {first : Job α} {next : α → Job β} {failure : Failure} :
    (first.andThen next).outcome = .error failure ↔ first.outcome = .error failure ∨
      ∃ middle, first.outcome = .ok middle ∧ (next middle).outcome = .error failure := by
  unfold andThen
  cases first.outcome with
  | error => simp
  | ok middle => simp

theorem andThen_outcome_of_ok {first : Job α} {value : α} (gives : first.outcome = .ok value)
    (next : α → Job β) : (first.andThen next).outcome = (next value).outcome := by
  simp [andThen, gives]

theorem andThen_outcome_of_error {first : Job α} {failure : Failure}
    (fails : first.outcome = .error failure) (next : α → Job β) :
    (first.andThen next).outcome = .error failure := by
  simp [andThen, fails]

theorem andThen_outcome_congr {first : Job α} {next other : α → Job β}
    (same : ∀ value, (next value).outcome = (other value).outcome) :
    (first.andThen next).outcome = (first.andThen other).outcome := by
  unfold andThen
  cases first.outcome with
  | error => rfl
  | ok value => exact same value

theorem ofExcept_outcome_eq_ok_iff {ε : Type} {failure : ε → Failure} {given : Except ε α}
    {value : α} : (ofExcept failure given).outcome = .ok value ↔ given = .ok value := by
  cases given with
  | error => simp [ofExcept, fail]
  | ok => simp [ofExcept, done]

theorem ofExcept_outcome_eq_error_iff {ε : Type} {failure : ε → Failure} {given : Except ε α}
    {reason : Failure} : (ofExcept failure given).outcome = .error reason ↔
      ∃ error, given = .error error ∧ reason = failure error := by
  cases given with
  | error => simp [ofExcept, fail, eq_comm]
  | ok => simp [ofExcept, done]

theorem ofExcept_bind_outcome {ε : Type} (failure : ε → Failure) (given : Except ε α)
    (next : α → Except ε β) : (ofExcept failure (given.bind next)).outcome =
      (ofExcept failure given).outcome.bind fun value =>
        (ofExcept failure (next value)).outcome := by
  cases given with
  | error => rfl
  | ok => rfl

theorem done_outcome_ne_error {value : α} {failure : Failure} :
    (done value).outcome ≠ .error failure := by
  simp [done]

theorem done_outcome_eq_ok_iff {given value : α} :
    (done given).outcome = .ok value ↔ given = value := by
  simp [done]

theorem write_andThen_outcome (entry : LogEntry) (next : Unit → Job α) :
    ((write entry).andThen next).outcome = (next ()).outcome := rfl

theorem collect_singleton_outcome (job : α → Job β) (item : α) :
    (collect job [item]).outcome = (job item).outcome.map fun value => [value] := by
  simp only [collect, andThen_outcome, done]
  cases (job item).outcome with
  | error => rfl
  | ok => rfl

theorem collect_map {γ : Type} (job : β → Job γ) (f : α → β) (items : List α) :
    collect job (items.map f) = collect (fun item => job (f item)) items := by
  induction items with
  | nil => rfl
  | cons item rest ih => rw [List.map_cons, collect, collect, ih]

theorem collect_outcome_eq_ok_iff {job : α → Job β} {items : List α} {values : List β} :
    (collect job items).outcome = .ok values ↔
      List.Forall₂ (fun item value => (job item).outcome = .ok value) items values := by
  induction items generalizing values with
  | nil => rw [collect, done_outcome_eq_ok_iff, List.forall₂_nil_left_iff, eq_comm]
  | cons item rest ih =>
    simp only [collect, andThen_outcome_eq_ok_iff, done_outcome_eq_ok_iff, ih,
      List.forall₂_cons_left_iff]
    constructor
    · rintro ⟨value, first, others, collected, rfl⟩
      exact ⟨value, others, first, collected, rfl⟩
    · rintro ⟨value, others, first, collected, rfl⟩
      exact ⟨value, first, others, collected, rfl⟩

theorem exists_of_mem_collected {job : α → Job β} {items : List α} {values : List β}
    (collected : List.Forall₂ (fun item value => (job item).outcome = .ok value) items values)
    {value : β} (member : value ∈ values) : ∃ item ∈ items, (job item).outcome = .ok value := by
  induction collected with
  | nil => cases member
  | cons first _ ih =>
    rcases List.mem_cons.mp member with rfl | later
    · exact ⟨_, List.mem_cons_self, first⟩
    · obtain ⟨item, inside, gives⟩ := ih later
      exact ⟨item, List.mem_cons_of_mem _ inside, gives⟩

end Job

/-! ## Files -/

theorem scanTree_names {context : ScanContext} {tree : SyntaxTree} {result : ScanResult}
    (scanned : scanTree context tree = .ok result) :
    result.file = context.file ∧ result.package = context.package := by
  simp only [scanTree, Session.run, Bool.false_eq_true, ↓reduceIte] at scanned
  split at scanned
  · cases scanned
  · cases scanned
    exact ⟨rfl, rfl⟩

theorem scanJob_outcome_eq_ok_iff {context : ScanContext} {tree : SyntaxTree}
    {result : ScanResult} :
    (scanJob context tree).outcome = .ok result ↔ scanTree context tree = .ok result := by
  unfold scanJob scanTree
  rcases ({} : Session).run context tree with ⟨session, error | result⟩
  · simp
  · simp

theorem scanFile_outcome_eq_ok_iff {disk : Disk} {context : ScanContext} {reader : SourceReader}
    {result : ScanResult} :
    (scanFile disk context reader).outcome = .ok result ↔
      ∃ source tree, disk.read context.file = .ok source ∧
        parseSource source context.file reader = .ok tree ∧ scanTree context tree = .ok result := by
  unfold scanFile
  cases disk.read context.file with
  | error => simp [Job.fail]
  | ok source =>
    simp only [Job.write_andThen_outcome, Job.andThen_outcome_eq_ok_iff,
      Job.ofExcept_outcome_eq_ok_iff, scanJob_outcome_eq_ok_iff, Except.ok.injEq, exists_and_left,
      exists_eq_left']

/-! ## Discovery -/

namespace Discovery

variable {disk : Disk} {root : Location} {options : DiscoveryOptions}

theorem isWanted_of_keep {path : String} (kept : (keep disk root options path).outcome = .ok true) :
    isWanted options (Route.components path) := by
  by_contra unwanted
  simp [keep, unwanted, Job.done_outcome_eq_ok_iff] at kept

theorem isWanted_of_mem_keepAll {paths files : List String}
    (kept : (keepAll disk root options paths).outcome = .ok files) {path : String}
    (member : path ∈ files) : isWanted options (Route.components path) := by
  induction paths generalizing files with
  | nil =>
    cases Job.done_outcome_eq_ok_iff.mp kept
    cases member
  | cons first rest ih =>
    simp only [keepAll, Job.andThen_outcome_eq_ok_iff, Job.done_outcome_eq_ok_iff] at kept
    obtain ⟨wanted, keeps, more, others, rfl⟩ := kept
    split_ifs at member with keptFirst
    · rcases List.mem_cons.mp member with rfl | later
      · exact isWanted_of_keep (keptFirst ▸ keeps)
      · exact ih others later
    · exact ih others member

end Discovery

/-- The paths that discovery decides on. -/
def Discovery.candidates (disk : Disk) (listing : Option String) (recursive : Bool)
    (root : Location) : List String :=
  ((listing.map listed).getD (walked disk recursive root)).map slashed

theorem discover_outcome_eq_ok_iff {disk : Disk} {listing : Option String}
    {options : DiscoveryOptions} {root : Location} {files : List String} :
    (discover disk listing options root).outcome = .ok files ↔
      ∃ kept, (Discovery.keepAll disk root options
        (Discovery.candidates disk listing options.recursive root)).outcome = .ok kept ∧
        kept.mergeSort (fun a b => a ≤ b) = files := by
  have same : discover disk listing options root =
      (Discovery.keepAll disk root options (Discovery.candidates disk listing options.recursive
        root)).andThen fun kept => .done (kept.mergeSort fun a b => a ≤ b) := by
    cases listing with
    | none => rfl
    | some text => rfl
  simp only [same, Job.andThen_outcome_eq_ok_iff, Job.done_outcome_eq_ok_iff]

theorem isWanted_of_mem_discover {disk : Disk} {listing : Option String}
    {options : DiscoveryOptions} {root : Location} {files : List String}
    (found : (discover disk listing options root).outcome = .ok files) {path : String}
    (member : path ∈ files) : Discovery.isWanted options (Route.components path) := by
  obtain ⟨kept, keeps, rfl⟩ := discover_outcome_eq_ok_iff.mp found
  exact Discovery.isWanted_of_mem_keepAll keeps (List.mem_mergeSort.mp member)

/-! ## Packages -/

namespace PackageScan

theorem scanOne_outcome_eq_ok_iff {reader : SourceReader} {disk : Disk} {options : PackageOptions}
    {module : Option (Location × String)} {folder : Location} {path : String}
    {result : ScanResult} :
    (scanOne reader disk options module folder path).outcome = .ok result ↔
      ∃ package, packageOf disk module (options.package.getD "") (Discovery.routeTo folder path) =
        .ok package ∧
        (scanFile disk { file := (Discovery.routeTo folder path).render, package,
                         spaceName := options.spaceName } reader).outcome = .ok result := by
  simp only [scanOne, Job.andThen_outcome_eq_ok_iff, Job.ofExcept_outcome_eq_ok_iff]

end PackageScan

/-- A recursive package scan derives import paths, from one module. -/
theorem scanPackage_outcome_eq_ok_iff {disk : Disk} {listing : Option String}
    {options : PackageOptions} (recursive : options.recursive = true) {folder : Location}
    {reader : SourceReader} {result : PackageResult} :
    (scanPackage disk listing options folder reader).outcome = .ok result ↔
      ∃ module files results, PackageScan.moduleOf disk options.module folder = .ok module ∧
        (discover disk listing options.toDiscoveryOptions folder).outcome = .ok files ∧
        List.Forall₂ (fun path result =>
          (PackageScan.scanOne reader disk options (some module) folder path).outcome = .ok result)
          files results ∧
        result = ⟨folder.render, AssetPath.sorted (results.flatMap ScanResult.paths), results⟩ := by
  simp only [scanPackage, recursive, Bool.or_true, ↓reduceIte, Job.andThen_outcome_eq_ok_iff,
    Job.ofExcept_outcome_eq_ok_iff, Job.done_outcome_eq_ok_iff, Job.write_andThen_outcome,
    Job.collect_outcome_eq_ok_iff]
  constructor
  · rintro ⟨_, ⟨module, derived, rfl⟩, files, found, results, scanned, rfl⟩
    exact ⟨module, files, results, derived, found, scanned, rfl⟩
  · rintro ⟨module, files, results, derived, found, scanned, rfl⟩
    exact ⟨_, ⟨module, derived, rfl⟩, files, found, results, scanned, rfl⟩

end AssetRefs
