import AssetRefs.Proofs.ImportPaths
import AssetRefs.Proofs.PackageMerges

/-! # Scans of subfolders

The scan of a folder of a module starts in another place than the scan of the whole module: paths
are relative to the folder, and the module is looked for from there. It has the same results all the
same, for the files below the folder: see `subfolder_scans_restrict`.
-/

namespace AssetRefs

/-- Whether a path leads to a place below a folder. -/
def Disk.isBelow (disk : Disk) (folder : Location) (path : String) : Bool :=
  folder.isSuffixOf (disk.locate path)

namespace Discovery

/-! ## Relative paths -/

/-- The path of a file from further up, where `front` leads to the folder that `path` starts
from. -/
def beneath (front : List String) (path : String) : String :=
  String.intercalate "/" (front ++ [path])

theorem beneath_intercalate (front : List String) {names : List String} (nonempty : names ≠ []) :
    beneath front (String.intercalate "/" names) = String.intercalate "/" (front ++ names) := by
  unfold beneath
  by_cases top : front = []
  · simp [top]
  · rw [String.intercalate_append_of_ne_nil top nonempty,
      String.intercalate_append_of_ne_nil top (by simp), String.intercalate_singleton]

theorem beneath_eq_append (front : List String) :
    ∃ way, ∀ path, (beneath front path).toList = way ++ path.toList := by
  unfold beneath
  by_cases top : front = []
  · exact ⟨[], fun path => by simp [top]⟩
  · refine ⟨(String.intercalate "/" front ++ "/").toList, fun path => ?_⟩
    rw [String.intercalate_append_of_ne_nil top (by simp), String.intercalate_singleton,
      String.toList_append]

theorem beneath_lt (front : List String) {first second : String} (less : first < second) :
    beneath front first < beneath front second := by
  obtain ⟨way, spelled⟩ := beneath_eq_append front
  rw [String.lt_iff_toList_lt, spelled, spelled]
  exact List.append_left_lt (String.lt_iff_toList_lt.mp less)

/-- A file below a folder that is not left out is wanted from further up as it is from there. -/
theorem isWanted_append {options : DiscoveryOptions} (recursive : options.recursive)
    {front names : List String} (unskipped : ∀ name ∈ front, isSkipped name = false)
    (nonempty : names ≠ []) : isWanted options (front ++ names) = isWanted options names := by
  have skips : front.any isSkipped = false := List.any_eq_false.mpr fun name member => by
    simp [unskipped name member]
  obtain ⟨inner, last, rfl⟩ := (List.eq_nil_or_concat' names).resolve_left nonempty
  simp [isWanted, recursive, skips, ← List.append_assoc]

/-! ## The files below a folder -/

section

variable {disk : Disk} {root below : Location} {tree : FileTree}
  {entries : List (String × FileTree)} {options : DiscoveryOptions}
  (proper : disk.root.Proper) (placed : disk.at? root = some tree)
  (inside : disk.at? (below ++ root) = some (.folder entries))

include placed in
theorem at?_reverse_append (inside : disk.at? (below ++ root) = some (.folder entries))
    (names : List String) :
    tree.at? (below.reverse ++ names) = (FileTree.folder entries).at? names := by
  rw [Disk.at?_append, placed, Option.bind_some] at inside
  rw [FileTree.at?_append, inside, Option.bind_some]

include placed inside in
theorem hasPath_beneath {path : String} (leads : (FileTree.folder entries).HasPath path) :
    tree.HasPath (beneath below.reverse path) := by
  obtain ⟨names, content, nonempty, found, rfl⟩ := leads
  exact ⟨below.reverse ++ names, content, by simp [nonempty],
    (at?_reverse_append placed inside names).trans found, beneath_intercalate _ nonempty⟩

include proper placed

theorem locate_routeTo {names : List String} {content : FileContent} (nonempty : names ≠ [])
    (leads : tree.at? names = some (.file content)) :
    disk.locate (routeTo root (String.intercalate "/" names)).render = names.reverse ++ root := by
  have named := ((proper.at? placed).2.at? leads).1
  have resolved := Disk.resolved_of_at? proper placed
  have reached : Location.Resolved (names.reverse ++ root) := by
    intro name member
    rcases List.mem_append.mp member with inner | outer
    · exact named name (List.mem_reverse.mp inner)
    · exact resolved name outer
  have down : ".." ∉ (names.reverse ++ root).reverse :=
    fun up => (reached ".." (List.mem_reverse.mp up)).2 rfl
  rw [Disk.locate, render_routeTo resolved nonempty named, reached.ofString_render,
    Route.locate_of_not_mem (by simp) down, List.reverse_reverse]

include inside

/-- The routes to a file from a folder and from further up are the same. -/
theorem routeTo_beneath {path : String} (leads : (FileTree.folder entries).HasPath path) :
    routeTo root (beneath below.reverse path) = routeTo (below ++ root) path := by
  obtain ⟨names, content, nonempty, found, rfl⟩ := leads
  have whole := (at?_reverse_append placed inside names).trans found
  have named := ((proper.at? placed).2.at? whole).1
  rw [beneath_intercalate _ nonempty, routeTo_intercalate (Disk.resolved_of_at? proper placed)
      (by simp [nonempty]) named, routeTo_intercalate (Disk.resolved_of_at? proper inside) nonempty
      fun name member => named name (List.mem_append_right _ member)]
  simp

/-- Of the files that discovery looks for in a folder, those below another folder are the ones that
it looks for there. -/
theorem selects_isBelow_iff (recursive : options.recursive) (all : options.exclude = [])
    (unskipped : ∀ name ∈ below, isSkipped name = false) {path : String} :
    Selects options tree path ∧ disk.isBelow (below ++ root) (routeTo root path).render ↔
      ∃ inner, Selects options (.folder entries) inner ∧ beneath below.reverse inner = path := by
  have shown : ∀ name ∈ below.reverse, isSkipped name = false :=
    fun name member => unskipped name (List.mem_reverse.mp member)
  constructor
  · rintro ⟨⟨names, content, nonempty, leads, rfl, wanted, _, small⟩, under⟩
    rw [Disk.isBelow, locate_routeTo proper placed nonempty leads,
      List.isSuffixOf_iff_suffix] at under
    obtain ⟨inner, same⟩ := under
    have parts : names = below.reverse ++ inner.reverse := by
      rw [← List.append_assoc, List.append_cancel_right_eq] at same
      rw [← List.reverse_append, same, List.reverse_reverse]
    rw [parts, at?_reverse_append placed inside] at leads
    have within : inner.reverse ≠ [] := by
      intro none
      simp [none, FileTree.at?] at leads
    rw [parts, isWanted_append recursive shown within] at wanted
    refine ⟨String.intercalate "/" inner.reverse, ?_, ?_⟩
    · exact ⟨inner.reverse, content, within, leads, rfl, wanted, by rw [all]; rfl, small⟩
    · rw [beneath_intercalate _ within, parts]
  · rintro ⟨_, ⟨names, content, nonempty, leads, rfl, wanted, _, small⟩, rfl⟩
    have whole := (at?_reverse_append placed inside names).trans leads
    rw [beneath_intercalate _ nonempty]
    refine ⟨⟨below.reverse ++ names, content, by simp [nonempty], whole, rfl, ?_, ?_, small⟩, ?_⟩
    · rwa [isWanted_append recursive shown nonempty]
    · rw [all]
      rfl
    · rw [Disk.isBelow, locate_routeTo proper placed (by simp [nonempty]) whole,
        List.isSuffixOf_iff_suffix]
      exact ⟨names.reverse, by simp⟩

end

/-- Discovery in a folder finds the files that it finds from further up, below that folder. -/
theorem filter_isBelow_eq_map_beneath {disk : Disk} {root below : Location} {tree : FileTree}
    {entries : List (String × FileTree)} {options : DiscoveryOptions} (proper : disk.root.Proper)
    (placed : disk.at? root = some tree)
    (inside : disk.at? (below ++ root) = some (.folder entries)) (recursive : options.recursive)
    (all : options.exclude = []) (unskipped : ∀ name ∈ below, isSkipped name = false)
    {files others : List String} (increasing : files.Pairwise (· < ·))
    (found : ∀ path, path ∈ files ↔ Selects options tree path)
    (othersIncreasing : others.Pairwise (· < ·))
    (othersFound : ∀ path, path ∈ others ↔ Selects options (.folder entries) path) :
    (files.filter fun path => disk.isBelow (below ++ root) (routeTo root path).render) =
      others.map (beneath below.reverse) := by
  refine (increasing.filter _).eq_of_mem_iff ?_ fun path => ?_
  · exact othersIncreasing.map _ fun _ _ less => beneath_lt _ less
  · rw [List.mem_filter, found, selects_isBelow_iff proper placed inside recursive all unskipped,
      List.mem_map]
    exact exists_congr fun inner => and_congr_left fun _ => (othersFound inner).symm

end Discovery

/-! ## The module of a folder -/

/-- The module of a folder is the one that it is in, if there is no other on the way. -/
theorem GoModule.root?_append {disk : Disk} {root : Location}
    (only : ∀ inner, disk.hasFile (fileName :: (inner ++ root)) ↔ inner = []) (below : Location)
    (isFolder : disk.hasFile (below ++ root) = false) : root? disk (below ++ root) = some root := by
  have marks : disk.hasFile (fileName :: root) := (only []).mpr rfl
  have within : root <:+ below ++ root := List.suffix_append below root
  obtain ⟨found, nearest⟩ := exists_root? isFolder within marks
  obtain ⟨inner, rfl⟩ := suffix_root? isFolder nearest within marks
  obtain rfl := (only inner).mp (hasFile_of_root? nearest)
  exact nearest

theorem PackageScan.moduleOf_congr {disk : Disk} {folder other root : Location}
    (given : Option String) (found : GoModule.root? disk folder = some root)
    (otherFound : GoModule.root? disk other = some root) :
    moduleOf disk given folder = moduleOf disk given other := by
  unfold moduleOf
  rw [found, otherFound]

theorem PackageScan.scanOne_congr {reader : SourceReader} {disk : Disk} {options : PackageOptions}
    {module : Option (Location × String)} {folder other : Location} {path otherPath : String}
    (same : Discovery.routeTo folder path = Discovery.routeTo other otherPath) :
    scanOne reader disk options module folder path =
      scanOne reader disk options module other otherPath := by
  rw [scanOne, scanOne, same]

theorem PackageScan.file_of_scanOne {reader : SourceReader} {disk : Disk} {options : PackageOptions}
    {module : Option (Location × String)} {folder : Location} {path : String} {result : ScanResult}
    (scanned : (scanOne reader disk options module folder path).outcome = .ok result) :
    result.file = (Discovery.routeTo folder path).render := by
  obtain ⟨package, _, scanned⟩ := scanOne_outcome_eq_ok_iff.mp scanned
  obtain ⟨source, tree, _, _, completed⟩ := scanFile_outcome_eq_ok_iff.mp scanned
  exact (scanTree_names completed).1

/-- Let a folder be a module without other modules in it and without backslashes in the paths of its
files. If the recursive scan of the module returns, with a walk and no patterns, so does the scan of
every folder in it that is not left out. It has the results of the module's scan for the files below
that folder, in their order, and the paths that occur in these. -/
theorem subfolder_scans_restrict (disk : Disk) (reader : SourceReader) (options : PackageOptions)
    (root below : Location) (tree : FileTree) (entries : List (String × FileTree))
    (proper : disk.root.Proper)
    (placed : disk.at? root = some tree)
    (unslashed : ∀ path, tree.HasPath path → '\\' ∉ path.toList)
    (only : ∀ inner, disk.hasFile (GoModule.fileName :: (inner ++ root)) ↔ inner = [])
    (inside : disk.at? (below ++ root) = some (.folder entries))
    (unskipped : ∀ name ∈ below, Discovery.isSkipped name = false)
    (recursive : options.recursive = true) (all : options.exclude = []) (whole : PackageResult)
    (returns : (scanPackage disk none options root reader).outcome = .ok whole) :
    ∃ part, (scanPackage disk none options (below ++ root) reader).outcome = .ok part ∧
      part.files = whole.files.filter (fun file => disk.isBelow (below ++ root) file.file) ∧
      AssetPath.Increasing part.paths ∧
      ∀ path, path ∈ part.paths ↔ ∃ file ∈ part.files, path ∈ file.paths := by
  have excluded : ∀ pattern ∈ options.exclude, Glob.HasComponent pattern := by simp [all]
  have unslashedInside (path : String) (leads : (FileTree.folder entries).HasPath path) :
      '\\' ∉ path.toList := by
    obtain ⟨way, spelled⟩ := Discovery.beneath_eq_append below.reverse
    intro backslash
    refine unslashed _ (Discovery.hasPath_beneath placed inside leads) ?_
    rw [spelled]
    exact List.mem_append_right _ backslash
  obtain ⟨module, files, results, derived, found, scanned, rfl⟩ :=
    (scanPackage_outcome_eq_ok_iff recursive).mp returns
  -- Both searches find their files, and those of the first below the folder are those of the
  -- second.
  obtain ⟨_, foundAgain, increasing, selects⟩ :=
    Discovery.exists_discover_walk proper placed unslashed excluded
  obtain rfl := Except.ok.inj (found.symm.trans foundAgain)
  obtain ⟨others, foundInside, increasingInside, selectsInside⟩ :=
    Discovery.exists_discover_walk proper inside unslashedInside excluded
  have restricted := Discovery.filter_isBelow_eq_map_beneath proper placed inside recursive all
    unskipped increasing selects increasingInside selectsInside
  have scannedInside : List.Forall₂ (fun path result =>
      (PackageScan.scanOne reader disk options (some module) (below ++ root) path).outcome =
        .ok result)
      others (results.filter fun file => disk.isBelow (below ++ root) file.file) := by
    have filtered := List.rel_filter
      (p := fun path => disk.isBelow (below ++ root) (Discovery.routeTo root path).render)
      (q := fun file => disk.isBelow (below ++ root) file.file)
      (fun path file scans => by simp only [PackageScan.file_of_scanOne scans]) scanned
    rw [restricted, List.forall₂_map_left_iff] at filtered
    refine ((List.forall₂_and_left _ _).mpr ⟨fun path => (selectsInside path).mp, filtered⟩).imp ?_
    rintro path file ⟨⟨names, content, nonempty, leads, rfl, _⟩, scans⟩
    rwa [← PackageScan.scanOne_congr (Discovery.routeTo_beneath proper placed inside
      ⟨names, content, nonempty, leads, rfl⟩)]
  have derivedInside : PackageScan.moduleOf disk options.module (below ++ root) = .ok module := by
    have marks : disk.hasFile (GoModule.fileName :: root) := (only []).mpr rfl
    have isFolder : disk.hasFile (below ++ root) = false := by
      simp [Disk.hasFile, inside, FileTree.isFile]
    rw [← derived]
    exact PackageScan.moduleOf_congr _ (GoModule.root?_append only _ isFolder)
      (GoModule.root?_append only [] (Disk.hasFile_eq_false_of_cons marks))
  refine ⟨⟨(below ++ root).render, _, _⟩, (scanPackage_outcome_eq_ok_iff recursive).mpr
    ⟨module, others, _, derivedInside, foundInside, scannedInside, rfl⟩, rfl,
    AssetPath.increasing_sorted _, fun path => ?_⟩
  rw [AssetPath.mem_sorted, List.mem_flatMap]

/-- A module with a file of its own and one in a folder below. -/
def libraryModule : Disk where
  root := .folder [("go.mod", .file "module app".toUTF8), ("app.go", .file ByteArray.empty),
    ("lib", .folder [("lib.go", .file "package lib\n\nvar f = pkger.Open(\"/x\")\n".toUTF8)])]

theorem filesBelow_libraryModule : (libraryModule.root.filesBelow fun _ => true) =
    [["go.mod"], ["app.go"], ["lib", "lib.go"]] := by
  simp [libraryModule, FileTree.filesBelow, FileTree.filesAmong]

/-- What the scan of the whole module gives. -/
def libraryResult : PackageResult :=
  ⟨"/", [⟨"app/lib", "/x"⟩], [⟨"/app.go", "app", [], []⟩,
    ⟨"/lib/lib.go", "app/lib", [⟨"app/lib", "/x"⟩], []⟩]⟩

theorem scanPackage_libraryModule :
    (scanPackage libraryModule none { recursive := true } []).outcome = .ok libraryResult := by
  have candidates : Discovery.candidates libraryModule none true [] =
      ["go.mod", "app.go", "lib/lib.go"] := by
    simp [Discovery.candidates, Discovery.walked, Disk.at?, FileTree.at?, libraryModule,
      FileTree.filesBelow, FileTree.filesAmong, Discovery.isSkipped, Discovery.isHidden,
      Discovery.slashed]
  have found : (discover libraryModule none { recursive := true } []).outcome =
      .ok ["app.go", "lib/lib.go"] := by
    refine discover_outcome_eq_ok_iff.mpr ⟨["app.go", "lib/lib.go"], ?_, ?_⟩
    · rw [candidates]
      decide +kernel
    · exact List.mergeSort_of_pairwise (by decide)
  exact (scanPackage_outcome_eq_ok_iff rfl).mpr ⟨([], "app"), _, libraryResult.files,
    by decide +kernel, found, .cons (by decide +kernel) (.cons (by decide +kernel) .nil),
    by decide +kernel⟩

theorem subfolder_scans_restrict_library :
    ∃ part, (scanPackage libraryModule none { recursive := true } ["lib"]).outcome = .ok part ∧
      part.files = [⟨"/lib/lib.go", "app/lib", [⟨"app/lib", "/x"⟩], []⟩] := by
  have proper : libraryModule.root.Proper := by decide +kernel
  have unslashed (path : String) (leads : libraryModule.root.HasPath path) :
      '\\' ∉ path.toList := by
    rw [FileTree.hasPath_iff proper, filesBelow_libraryModule] at leads
    revert path
    decide +kernel
  have only (inner : List String) :
      libraryModule.hasFile (GoModule.fileName :: (inner ++ [])) ↔ inner = [] := by
    constructor
    · intro present
      obtain ⟨content, found⟩ := Disk.hasFile_iff.mp present
      have member : inner.reverse ++ [GoModule.fileName] ∈
          libraryModule.root.filesBelow fun _ => true :=
        (FileTree.mem_filesBelow_iff proper).mpr
          ⟨by simp, ⟨content, by simpa [Disk.at?] using found⟩, by simp⟩
      rw [filesBelow_libraryModule] at member
      have top : ∀ names ∈ [["go.mod"], ["app.go"], ["lib", "lib.go"]],
          names.getLast? = some GoModule.fileName → names.dropLast = [] := by decide
      simpa using top _ member (by simp)
    · rintro rfl
      decide +kernel
  obtain ⟨part, scanned, restricted, _⟩ := subfolder_scans_restrict libraryModule {}
    { recursive := true } [] ["lib"] libraryModule.root _ proper rfl unslashed only rfl
    (by decide) rfl rfl libraryResult scanPackage_libraryModule
  exact ⟨part, scanned, restricted.trans (by decide +kernel)⟩

end AssetRefs
