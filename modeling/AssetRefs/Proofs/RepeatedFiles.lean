import AssetRefs.Proofs.SessionState
import AssetRefs.Proofs.Subfolders

/-! # Repeated files

Discovery decides on each candidate for itself and only sorts the ones it keeps, so it finds a path
as often as the path is a candidate. A walk comes to every file once. A listing may name a file on
several lines, and then the file is scanned for each of them and its errors are counted for each
scan: see `files_are_scanned_as_often_as_listed`.
-/

namespace AssetRefs

theorem pairwise_lt_iff_nodup {paths : List String} (sorted : paths.Pairwise (· ≤ ·)) :
    paths.Pairwise (· < ·) ↔ paths.Nodup := by
  constructor
  · exact fun increasing => increasing.imp ne_of_lt
  · exact fun distinct => sorted.imp₂ (fun _ _ less apart => lt_of_le_of_ne less apart) distinct

/-! ## Lines and paths -/

namespace Discovery

/-- The path that a line of a listing names, if the line is not blank. -/
def pathOnLine (line : List Char) : String := slashed (String.ofList (Text.trim line))

theorem pathOnLine_eq_empty_iff {line : List Char} :
    pathOnLine line = "" ↔ Text.trim line = [] := by
  rw [pathOnLine, slashed, ← String.toList_eq_nil_iff]
  simp

/-- The candidates of a listing are the paths on its lines. -/
theorem candidates_eq_filter (disk : Disk) (text : String) (recursive : Bool) (root : Location) :
    candidates disk (some text) recursive root =
      ((Text.lines text.toList).map pathOnLine).filter (· ≠ "") := by
  have read : candidates disk (some text) recursive root = (listed text).map slashed := rfl
  rw [read, listed]
  induction Text.lines text.toList with
  | nil => rfl
  | cons line rest ih =>
    by_cases blank : Text.trim line = []
    · simpa [blank, pathOnLine_eq_empty_iff.mpr blank] using ih
    · have named : pathOnLine line ≠ "" := mt pathOnLine_eq_empty_iff.mp blank
      rw [List.map_cons, List.map_cons, List.filter_cons_of_pos (by simpa using named), ← ih]
      simp [blank, pathOnLine]

section

variable {disk : Disk} {listing : Option String} {options : DiscoveryOptions} {root : Location}
  {path : String} {files : List String}

theorem ne_empty_of_kept (keeps : kept disk root options path) : path ≠ "" := by
  rintro rfl
  have wanted := (kept_iff.mp keeps).1
  have components : Route.components "" = [""] := rfl
  simp [components, isWanted, endsIn] at wanted

/-- A path that is kept is a candidate as often as a line of the listing names it. -/
theorem count_candidates_of_kept (keeps : kept disk root options path) (text : String) :
    (candidates disk (some text) options.recursive root).count path =
      ((Text.lines text.toList).map pathOnLine).count path := by
  have named := ne_empty_of_kept keeps
  rw [candidates_eq_filter, List.count_filter (by simpa using named)]

theorem decided_of_discover (found : (discover disk listing options root).outcome = .ok files) :
    ∀ path ∈ candidates disk listing options.recursive root, Decided options path := by
  intro path member
  by_contra undecided
  rw [discover_outcome_of_not_decided member undecided] at found
  cases found

variable (found : (discover disk listing options root).outcome = .ok files)

include found

theorem perm_of_discover :
    files.Perm
      ((candidates disk listing options.recursive root).filter (kept disk root options)) := by
  rw [discover_outcome_of_decided _ _ _ (decided_of_discover found)] at found
  cases found
  exact List.mergeSort_perm ..

theorem sorted_of_discover : files.Pairwise (· ≤ ·) := by
  rw [discover_outcome_of_decided _ _ _ (decided_of_discover found)] at found
  cases found
  exact List.pairwise_mergeSort' (· ≤ ·) _

/-- A path is found as often as it is a candidate, if it is kept. -/
theorem count_of_discover (path : String) :
    files.count path = if kept disk root options path
      then (candidates disk listing options.recursive root).count path else 0 := by
  rw [(perm_of_discover found).count_eq]
  split_ifs with keeps
  · exact List.count_filter keeps
  · exact List.count_eq_zero.mpr fun member => keeps (List.mem_filter.mp member).2

theorem kept_of_discover (member : path ∈ files) : kept disk root options path :=
  (List.mem_filter.mp ((perm_of_discover found).mem_iff.mp member)).2

theorem increasing_iff_of_discover : files.Pairwise (· < ·) ↔
    ∀ path ∈ files, (candidates disk listing options.recursive root).count path = 1 := by
  rw [pairwise_lt_iff_nodup (sorted_of_discover found), List.nodup_iff_count_eq_one]
  refine forall₂_congr fun path member => ?_
  rw [count_of_discover found, if_pos (kept_of_discover found member)]

end

/-- A walk comes to every file once. -/
theorem increasing_of_walk {disk : Disk} {options : DiscoveryOptions} {root : Location}
    {files : List String} (walk : (discover disk none options root).outcome = .ok files)
    (proper : disk.root.Proper)
    (unslashed : ∀ tree, disk.at? root = some tree →
      ∀ path, tree.HasPath path → '\\' ∉ path.toList) :
    files.Pairwise (· < ·) := by
  rw [pairwise_lt_iff_nodup (sorted_of_discover walk), (perm_of_discover walk).nodup_iff]
  apply List.Nodup.filter
  cases placed : disk.at? root with
  | none => simp [candidates, walked, placed]
  | some tree => exact nodup_candidates_walk proper placed (unslashed tree placed) _

/-! ## Relative paths -/

/-- A relative path as it is written for its components. -/
structure IsRelative (path : String) : Prop where
  root : (Route.ofString path).root = ""
  written : (Route.ofString path).render = path

theorem wellFormed_routeTo (folder : Location) (path : String) :
    (routeTo folder path).WellFormed := by
  have base := Route.ofString_wellFormed folder.render
  have route := Route.ofString_wellFormed path
  unfold routeTo Route.join
  split_ifs
  · refine ⟨base.root, fun part member => ?_⟩
    rcases List.mem_append.mp member with above | below
    · exact base.parts part above
    · exact route.parts part below
  · exact route

theorem routeTo_eq_of_render_eq {folder : Location} {path other : String}
    (same : (routeTo folder path).render = (routeTo folder other).render) :
    routeTo folder path = routeTo folder other := by
  rw [← Route.ofString_render (wellFormed_routeTo folder path), same,
    Route.ofString_render (wellFormed_routeTo folder other)]

/-- Different relative paths lead to different places. -/
theorem IsRelative.eq_of_routeTo_eq {folder : Location} {path other : String}
    (relative : IsRelative path) (relativeOther : IsRelative other)
    (same : routeTo folder path = routeTo folder other) : path = other := by
  unfold routeTo Route.join at same
  rw [if_pos relative.root, if_pos relativeOther.root, Route.mk.injEq] at same
  have route : Route.ofString path = Route.ofString other := by
    have parts := List.append_cancel_left same.2
    rw [Route.mk.injEq]
    exact ⟨relative.root.trans relativeOther.root.symm, parts⟩
  rw [← relative.written, route, relativeOther.written]

end Discovery

/-! ## Errors of a package -/

theorem within_of_parseSource {source : ByteArray} {path : String} {reader : SourceReader}
    {tree : SyntaxTree} (parsed : parseSource source path reader = .ok tree) :
    tree.bindings.Within tree.root := by
  unfold parseSource at parsed
  split at parsed
  · unfold loadTree at parsed
    split_ifs at parsed
    split at parsed
    · next lowered =>
      cases parsed
      exact within_of_lowerFile lowered
    · cases parsed
    · cases parsed
  · cases parsed

theorem nodup_errors_of_scanTree {context : ScanContext} {tree : SyntaxTree} {result : ScanResult}
    (completed : scanTree context tree = .ok result) : result.errors.Nodup := by
  have initial : ({} : Session).LogKept := fun key => by simp
  have kept := (Session.invariant_logKept context).run tree ⟨initial, List.nodup_nil⟩
  have logged : (({} : Session).run context tree).1.errors = result.errors := by
    simp only [scanTree, Session.run, Bool.false_eq_true, ↓reduceIte] at completed ⊢
    split at completed
    · cases completed
    · cases completed
      rfl
  rw [← logged]
  exact kept.2.of_map

/-- The errors of a scanned file are about the file, and no two of them are the same. -/
theorem errors_of_scanFile {disk : Disk} {context : ScanContext} {reader : SourceReader}
    {result : ScanResult} (scanned : (scanFile disk context reader).outcome = .ok result) :
    result.errors.Nodup ∧ ∀ error ∈ result.errors, error.file = result.file := by
  obtain ⟨source, tree, _, parsed, completed⟩ := scanFile_outcome_eq_ok_iff.mp scanned
  constructor
  · exact nodup_errors_of_scanTree completed
  · intro error member
    obtain ⟨node, walked, logged⟩ := (mem_errors_iff completed).mp member
    obtain ⟨_, _, _, _, same⟩ := provenance_of_mem_errors (within_of_parseSource parsed)
      (Node.mem_walk_iff.mp walked) logged
    cases same
    exact (scanTree_names completed).1.symm

theorem count_flatMap_errors {files : List ScanResult} {error : ScanError} (each : ∀ file ∈ files,
      file.errors.count error = if file.file = error.file then 1 else 0) :
    (files.flatMap ScanResult.errors).count error =
      (files.map ScanResult.file).count error.file := by
  induction files with
  | nil => rfl
  | cons file rest ih =>
    obtain ⟨here, others⟩ := List.forall_mem_cons.mp each
    rw [List.flatMap_cons, List.count_append, here, ih others, List.map_cons, List.count_cons]
    simp [Nat.add_comm]

/-- If results for one file are the same, an error is counted once for each result for its file. -/
theorem PackageResult.count_errors {result : PackageResult}
    (distinct : ∀ file ∈ result.files, file.errors.Nodup)
    (about : ∀ file ∈ result.files, ∀ error ∈ file.errors, error.file = file.file)
    (same : ∀ file ∈ result.files, ∀ other ∈ result.files, file.file = other.file → file = other)
    {error : ScanError} (member : error ∈ result.errors) :
    result.errors.count error = (result.files.map ScanResult.file).count error.file := by
  obtain ⟨first, listed, inside⟩ := List.mem_flatMap.mp member
  have each : ∀ file ∈ result.files,
      file.errors.count error = if file.file = error.file then 1 else 0 := by
    intro file listed'
    split_ifs with here
    · have there := about first listed error inside
      rw [same file listed' first listed (here.trans there)]
      exact List.count_eq_one_of_mem (distinct first listed) inside
    · exact List.count_eq_zero.mpr fun inside' => here (about file listed' error inside').symm
  exact count_flatMap_errors each

section

variable {disk : Disk} {reader : SourceReader} {options : PackageOptions} {folder : Location}
  {module : Option (Location × String)} {files : List String} {result : PackageResult}

namespace PackageScan.Merges

variable (merges : Merges disk reader options module folder files result)
  (resolved : moduleFor disk options folder = .ok module)

include merges resolved

theorem scannedOne : List.Forall₂
    (fun path file => (scanOne reader disk options module folder path).outcome = .ok file)
    files result.files :=
  merges.scanned.imp fun _ _ => (scanOne_outcome_eq_ok_iff_hasPackage resolved).mpr

theorem map_file : result.files.map ScanResult.file =
    files.map fun path => (Discovery.routeTo folder path).render := by
  have each : List.Forall₂ (· = ·) (files.map fun path => (Discovery.routeTo folder path).render)
      (result.files.map ScanResult.file) := by
    rw [List.forall₂_map_left_iff, List.forall₂_map_right_iff]
    exact (merges.scannedOne resolved).imp fun _ _ scanned => (file_of_scanOne scanned).symm
  rw [List.forall₂_eq_eq_eq] at each
  exact each.symm

/-- The file decides on the result. -/
theorem eq_of_file_eq {file other : ScanResult} (member : file ∈ result.files)
    (memberOther : other ∈ result.files) (same : file.file = other.file) : file = other := by
  obtain ⟨path, _, scanned⟩ := Job.exists_of_mem_collected (merges.scannedOne resolved) member
  obtain ⟨otherPath, _, scannedOther⟩ :=
    Job.exists_of_mem_collected (merges.scannedOne resolved) memberOther
  rw [file_of_scanOne scanned, file_of_scanOne scannedOther] at same
  rw [scanOne_congr (Discovery.routeTo_eq_of_render_eq same), scannedOther] at scanned
  exact (Except.ok.inj scanned).symm

theorem count_errors {error : ScanError} (member : error ∈ result.errors) :
    result.errors.count error = (result.files.map ScanResult.file).count error.file := by
  have own {file : ScanResult} (listed : file ∈ result.files) :
      file.errors.Nodup ∧ ∀ error ∈ file.errors, error.file = file.file := by
    obtain ⟨path, _, scanned⟩ := Job.exists_of_mem_collected (merges.scannedOne resolved) listed
    obtain ⟨package, _, scanned⟩ := scanOne_outcome_eq_ok_iff.mp scanned
    exact errors_of_scanFile scanned
  exact result.count_errors (fun file listed => (own listed).1) (fun file listed => (own listed).2)
    (fun file listed other => merges.eq_of_file_eq resolved listed) member

/-- For relative paths, no file has two results if no path was found twice. -/
theorem nodup_map_file_iff (relative : ∀ path ∈ files, Discovery.IsRelative path) :
    (result.files.map ScanResult.file).Nodup ↔ files.Nodup := by
  rw [merges.map_file resolved]
  refine ⟨List.Nodup.of_map _, List.Nodup.map_on fun path member other memberOther same => ?_⟩
  exact (relative path member).eq_of_routeTo_eq (relative other memberOther)
    (Discovery.routeTo_eq_of_render_eq same)

end PackageScan.Merges

end

/-- Discovery finds paths in increasing order, and each path that it keeps as often as the path
is a candidate: for a listing, as often as a line of it names the path. So no path is found twice
if and only if no line repeats one that is kept, and never with a walk in a proper tree without
backslashes. A package scan has one result for each path found. For relative paths, that is one
result for each file just if no path is found twice. An error is counted once for each result for
its file. -/
theorem files_are_scanned_as_often_as_listed (disk : Disk) (listing : Option String)
    (options : PackageOptions) (folder : Location) {files : List String}
    (found : (discover disk listing options.toDiscoveryOptions folder).outcome = .ok files) :
    let candidates := Discovery.candidates disk listing options.recursive folder
    files.Pairwise (· ≤ ·) ∧
    (∀ path, files.count path =
      if Discovery.kept disk folder options.toDiscoveryOptions path then candidates.count path
      else 0) ∧
    (∀ text, listing = some text → ∀ path ∈ files,
      candidates.count path = ((Text.lines text.toList).map Discovery.pathOnLine).count path) ∧
    (files.Pairwise (· < ·) ↔ ∀ path ∈ files, candidates.count path = 1) ∧
    (listing = none → disk.root.Proper →
      (∀ tree, disk.at? folder = some tree → ∀ path, tree.HasPath path → '\\' ∉ path.toList) →
      files.Pairwise (· < ·)) ∧
    ∀ reader result, (scanPackage disk listing options folder reader).outcome = .ok result →
      result.files.map ScanResult.file =
        files.map (fun path => (Discovery.routeTo folder path).render) ∧
      ((∀ path ∈ files, Discovery.IsRelative path) →
        ((result.files.map ScanResult.file).Nodup ↔ files.Pairwise (· < ·))) ∧
      ∀ error ∈ result.errors,
        result.errors.count error = (result.files.map ScanResult.file).count error.file := by
  intro candidates
  have increasing := Discovery.increasing_iff_of_discover found
  refine ⟨Discovery.sorted_of_discover found, Discovery.count_of_discover found, ?_, increasing,
    ?_, ?_⟩
  · rintro text rfl path member
    exact Discovery.count_candidates_of_kept (Discovery.kept_of_discover found member) text
  · rintro rfl proper unslashed
    exact Discovery.increasing_of_walk found proper unslashed
  · intro reader result scanned
    obtain ⟨module, others, resolved, foundAgain, merges⟩ := merges_of_scanPackage scanned
    obtain rfl := Except.ok.inj (found.symm.trans foundAgain)
    refine ⟨merges.map_file resolved, fun relative => ?_, fun error => merges.count_errors resolved⟩
    rw [merges.nodup_map_file_iff resolved relative,
      pairwise_lt_iff_nodup (Discovery.sorted_of_discover found)]

/-- A folder with a file that has an error, and a file in a folder below. -/
def unmergedFolder : Disk where
  root := .folder [("a.go", .file "package a\n\nvar f = pkger.Walk(\"/x\")\n".toUTF8),
    ("sub", .folder [("b.go", .file "package b".toUTF8)])]

/-- Two lines name the same path in different ways. -/
theorem files_are_scanned_as_often_as_listed_slashed :
    ∃ files, (discover unmergedFolder (some "sub\\b.go\na.go\n sub/b.go\n") { recursive := true }
        []).outcome = .ok files ∧
      files.count "sub/b.go" = 2 ∧ files.count "a.go" = 1 ∧ ¬ files.Pairwise (· < ·) := by
  have found : (discover unmergedFolder (some "sub\\b.go\na.go\n sub/b.go\n") { recursive := true }
      []).outcome = .ok ["a.go", "sub/b.go", "sub/b.go"] := by
    refine discover_outcome_eq_ok_iff.mpr ⟨["sub/b.go", "a.go", "sub/b.go"], by decide +kernel, ?_⟩
    exact (mergeSort_eq_of_perm (by decide)).trans (List.mergeSort_of_pairwise (by decide))
  obtain ⟨_, counts, _, increasing, _⟩ := files_are_scanned_as_often_as_listed unmergedFolder
    (some "sub\\b.go\na.go\n sub/b.go\n") { recursive := true } [] found
  refine ⟨_, found, (counts _).trans (by decide +kernel), (counts _).trans (by decide +kernel), ?_⟩
  intro apart
  exact absurd (increasing.mp apart "sub/b.go" (by simp)) (by decide +kernel)

/-- A listing names an unmerged file more than once. -/
theorem unmerged_files_are_scanned_repeatedly :
    (discover unmergedFolder (some "a.go\na.go\n") {} []).outcome = .ok ["a.go", "a.go"] ∧
    (∃ result,
      (scanPackage unmergedFolder (some "a.go\na.go\n") { package := some "app" } []).outcome =
        .ok result ∧ result.files.map ScanResult.file = ["/a.go", "/a.go"] ∧
      result.errors = List.replicate 2 ⟨Problem.walkArity.message, "/a.go", 3, 9⟩) ∧
    ¬ ∀ (disk : Disk) (listing : Option String) (options : DiscoveryOptions) (root : Location)
      (files : List String), (discover disk listing options root).outcome = .ok files →
        files.Pairwise (· < ·) := by
  have found : (discover unmergedFolder (some "a.go\na.go\n") {} []).outcome =
      .ok ["a.go", "a.go"] := by
    refine discover_outcome_eq_ok_iff.mpr ⟨["a.go", "a.go"], by decide +kernel, ?_⟩
    exact List.mergeSort_of_pairwise (by decide)
  refine ⟨found, ?_, ?_⟩
  · let file : ScanResult := ⟨"/a.go", "app", [], [⟨Problem.walkArity.message, "/a.go", 3, 9⟩]⟩
    refine ⟨⟨"/", [], [file, file]⟩, ?_, rfl, rfl⟩
    rw [scanPackage_outcome_of_module rfl, Job.andThen_outcome_of_ok found]
    decide +kernel
  · intro increasing
    exact lt_irrefl _ (List.rel_of_pairwise_cons (increasing _ _ _ _ _ found) (by simp))

end AssetRefs
