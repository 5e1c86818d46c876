import AssetRefs.Command.Run
import AssetRefs.Proofs.ImportPaths
import AssetRefs.Proofs.PackageScans
import AssetRefs.Proofs.Routes

/-! # Scans across modules

A package scan looks for a module once, from the folder that it starts in, and derives the import
paths of all files from it. A scan of a single file looks from the folder of the file, where there
may be another module on the way up. Both give the same import path just if that module has the name
which its folder has in the first one.
-/

namespace AssetRefs

namespace Discovery

/-! ## Routes to files that were found -/

theorem not_dots_of_not_isHidden {name : String} (shown : isHidden name = false) :
    ¬['.', '.'] <+: name.toList := by
  rintro ⟨rest, spelled⟩
  simp [isHidden, ← spelled] at shown

/-- The last component of a wanted path is a name, and no component is hidden. -/
theorem isWanted_components {options : DiscoveryOptions} {components : List String}
    (wanted : isWanted options components) :
    (∀ name ∈ components, isHidden name = false) ∧ ∃ name ∈ components, name ≠ "" := by
  rcases List.eq_nil_or_concat' components with rfl | ⟨front, last, rfl⟩
  · simp [isWanted, endsIn] at wanted
  · simp only [isWanted, List.getLast?_concat, Option.getD_some, List.dropLast_concat,
      Bool.and_eq_true, Bool.not_eq_true', List.any_eq_false] at wanted
    obtain ⟨⟨⟨⟨_, unskipped⟩, ending⟩, shown⟩, _⟩ := wanted
    refine ⟨fun name member => ?_, last, by simp, ?_⟩
    · rcases List.mem_append.mp member with inside | final
      · have kept := unskipped name inside
        rw [isSkipped, Bool.or_eq_true, not_or] at kept
        exact Bool.eq_false_iff.mpr kept.2
      · rw [List.mem_singleton.mp final]
        exact shown
    · rintro rfl
      exact absurd ending (by decide)

theorem isWanted_parts {options : DiscoveryOptions} {path : String}
    (wanted : isWanted options (Route.components path)) :
    (Route.ofString path).parts ≠ [] ∧
      ∀ name ∈ (Route.ofString path).parts, isHidden name = false := by
  obtain ⟨shown, name, member, nonempty⟩ := isWanted_components wanted
  have part : name ∈ (Route.ofString path).parts := by
    refine List.mem_filter.mpr ⟨member, ?_⟩
    have undotted : name ≠ "." := by
      rintro rfl
      exact absurd (shown _ member) (by decide)
    simp [nonempty, undotted]
  exact ⟨List.ne_nil_of_mem part, fun name inside => shown name (List.mem_filter.mp inside).1⟩

/-- A route to a file that was found below a folder, or is given from the root. -/
structure Discovered (folder : Location) (route : Route) : Prop where
  formed : route.WellFormed
  absolute : route.root ≠ ""
  down : ".." ∉ route.parts
  names : ∃ names, names ≠ [] ∧ (∀ name ∈ names, isHidden name = false) ∧
    (route.parts = folder.reverse ++ names ∨ route.parts = names)

theorem discovered_routeTo {options : DiscoveryOptions} {folder : Location}
    (resolved : folder.Resolved) {path : String}
    (wanted : isWanted options (Route.components path)) :
    Discovered folder (routeTo folder path) := by
  obtain ⟨nonempty, shown⟩ := isWanted_parts wanted
  have formed := Route.ofString_wellFormed path
  have down : ".." ∉ (Route.ofString path).parts :=
    fun up => absurd (shown _ up) (by decide)
  rw [routeTo, resolved.ofString_render, Route.join]
  split_ifs with relative
  · refine ⟨⟨.inr (.inl rfl), ?_⟩, by simp, ?_, _, nonempty, shown, .inl rfl⟩
    · intro part member
      rcases List.mem_append.mp member with above | below
      · exact (resolved part (List.mem_reverse.mp above)).1
      · exact formed.parts part below
    · intro member
      rcases List.mem_append.mp member with above | below
      · exact (resolved _ (List.mem_reverse.mp above)).2 rfl
      · exact down below
  · exact ⟨formed, relative, down, _, nonempty, shown, .inr rfl⟩

theorem not_leaves_of_shown {inner : Location} (shown : ∀ name ∈ inner, isHidden name = false) :
    ¬GoModule.Leaves inner := by
  rintro ⟨name, last, dots⟩
  exact not_dots_of_not_isHidden (shown name (List.mem_of_getLast? last)) dots

namespace Discovered

variable {disk : Disk} {folder root : Location} {route : Route}

/-- Above a file there are folders only. -/
theorem hasFile_of_suffix (discovered : Discovered folder route) {tree : FileTree}
    (found : disk.find route.render = .ok tree) {above : Location}
    (inside : above <:+ route.parts.reverse.tail) : disk.hasFile above = false := by
  have nonempty : route.parts ≠ [] := by
    obtain ⟨names, some, _, parts | parts⟩ := discovered.names
    · simp [parts, some]
    · simp [parts, some]
  have front : above.reverse <+: route.parts := by
    rw [← List.reverse_suffix, List.reverse_reverse]
    exact inside.trans (List.tail_suffix _)
  have proper : above.reverse ≠ route.parts := by
    intro whole
    have short := inside.length_le
    have long := List.length_pos_of_ne_nil nonempty
    rw [List.length_tail, ← whole, List.length_reverse, List.length_reverse] at short
    rw [← whole, List.length_reverse] at long
    omega
  have above_folder := Disk.hasFile_of_find discovered.formed discovered.absolute discovered.down
    found front proper
  rwa [List.reverse_reverse] at above_folder

theorem named (discovered : Discovered folder route) : "" ∉ route.parts.reverse.tail :=
  fun empty => (discovered.formed.parts _ (List.mem_reverse.mp (List.mem_of_mem_tail empty))).1 rfl

/-- A module that is nearer to the file than that of the folder lies where the names below it were
found. -/
theorem shown_of_nearer (discovered : Discovered folder route) {tree : FileTree}
    (found : disk.find route.render = .ok tree) (derived : GoModule.root? disk folder = some root)
    {inner nearest : Location} (placed : inner ++ nearest = route.parts.reverse.tail)
    (marks : disk.hasFile (GoModule.fileName :: nearest)) (nested : root <:+ nearest)
    (nearer : nearest ≠ root) : ∀ name ∈ inner, isHidden name = false := by
  obtain ⟨names, some, shown, parts | parts⟩ := discovered.names
  · have above : route.parts.reverse.tail = names.reverse.tail ++ folder := by
      rw [parts, List.reverse_append, List.reverse_reverse,
        List.tail_append_of_ne_nil (by simpa using some)]
    have isFolder : disk.hasFile folder = false :=
      discovered.hasFile_of_suffix found (above ▸ List.suffix_append _ _)
    rw [above] at placed
    -- Both the module and the folder are above the file, so one of them is above the other.
    rcases List.suffix_or_suffix_of_suffix ⟨inner, placed⟩ (List.suffix_append _ folder) with
      higher | ⟨more, lower⟩
    · have same := GoModule.suffix_root? isFolder derived higher marks
      exact absurd (same.eq_of_length_le nested.length_le) nearer
    · rw [← lower, ← List.append_assoc, List.append_left_inj] at placed
      intro name member
      refine shown name (List.mem_reverse.mp (List.mem_of_mem_tail ?_))
      rw [← placed]
      exact List.mem_append_left _ member
  · intro name member
    refine shown name (List.mem_reverse.mp (List.mem_of_mem_tail ?_))
    rw [← parts, ← placed]
    exact List.mem_append_left _ member

/-- The module of a file is within the one of the folder where the scan started. -/
theorem exists_nearest (discovered : Discovered folder route) {tree : FileTree}
    (found : disk.find route.render = .ok tree) (derived : GoModule.root? disk folder = some root)
    {shown name package : String}
    (given : GoModule.importPath shown route.parts.reverse.tail root name = .ok package) :
    ∃ nearest inner, GoModule.root? disk route.parts.reverse.tail = some nearest ∧
      root <:+ nearest ∧ inner ++ nearest = route.parts.reverse.tail ∧ ¬GoModule.Leaves inner := by
  obtain ⟨below, inside, stays, _⟩ := (GoModule.importPath_eq_ok_iff discovered.named).mp given
  have isFolder := discovered.hasFile_of_suffix found List.suffix_rfl
  have marks := GoModule.hasFile_of_root? derived
  have suffix : root <:+ route.parts.reverse.tail := ⟨below, inside.symm⟩
  obtain ⟨nearest, nearestFound⟩ := GoModule.exists_root? isFolder suffix marks
  obtain ⟨inner, placed⟩ := GoModule.suffix_of_root? isFolder nearestFound
  have nested := GoModule.suffix_root? isFolder nearestFound suffix marks
  refine ⟨nearest, inner, nearestFound, nested, placed, ?_⟩
  -- In the module of the scan, the way down is that of the import path which is given.
  by_cases same : nearest = root
  · have whole : inner = below := by
      rw [same, inside] at placed
      exact List.append_cancel_right placed
    exact whole ▸ stays
  · exact not_leaves_of_shown (discovered.shown_of_nearer found derived placed
      (GoModule.hasFile_of_root? nearestFound) nested same)

end Discovered

end Discovery

/-! ## Import paths of files -/

theorem PackageScan.moduleOf_none_eq_ok_iff {disk : Disk} {folder root : Location}
    {name : String} :
    moduleOf disk none folder = .ok (root, name) ↔ GoModule.root? disk folder = some root ∧
      GoModule.readName disk (Location.render (GoModule.fileName :: root)) = .ok name := by
  unfold moduleOf moduleName
  cases GoModule.root? disk folder with
  | none => simp
  | some found =>
    simp only [Except.map_eq_ok_iff, Prod.mk.injEq]
    constructor
    · rintro ⟨_, named, rfl, rfl⟩
      exact ⟨rfl, named⟩
    · rintro ⟨⟨⟩, named⟩
      exact ⟨_, named, rfl, rfl⟩

theorem Command.packageFor_eq_ok_iff {disk : Disk} {root file : Location} {settings : Settings}
    (derived : settings.module = none) {package : String} :
    packageFor disk (some root) settings file = .ok package ↔ ∃ module,
      GoModule.readName disk (Location.render (GoModule.fileName :: root)) = .ok module ∧
        GoModule.importPath (Location.render file.tail) file.tail root module = .ok package := by
  simp only [packageFor, PackageScan.moduleName, derived]
  cases GoModule.readName disk (Location.render (GoModule.fileName :: root)) with
  | error => simp [Except.bind]
  | ok module => simp [Except.bind]

theorem PackageScan.exists_discovered {disk : Disk} {reader : SourceReader}
    {options : PackageOptions} {folder root : Location} {name path : String} {file : ScanResult}
    (resolved : folder.Resolved)
    (wanted : Discovery.isWanted options.toDiscoveryOptions (Route.components path))
    (scanned : (scanOne reader disk options (some (root, name)) folder path).outcome = .ok file) :
    ∃ route tree, Route.ofString file.file = route ∧ Discovery.Discovered folder route ∧
      disk.find route.render = .ok tree ∧
      GoModule.importPath route.parent.render route.parts.reverse.tail root name =
        .ok file.package := by
  obtain ⟨package, given, scanned⟩ := scanOne_outcome_eq_ok_iff.mp scanned
  obtain ⟨source, tree, read, _, completed⟩ := scanFile_outcome_eq_ok_iff.mp scanned
  obtain ⟨sameFile, samePackage⟩ := scanTree_names completed
  have discovered := Discovery.discovered_routeTo resolved wanted
  refine ⟨_, _, ?_, discovered, Disk.find_of_read read, ?_⟩
  · rw [sameFile, Route.ofString_render discovered.formed]
  · rw [samePackage, ← given, packageOf,
      Route.parent_locate_of_not_mem discovered.absolute discovered.down]

/-- A recursive package scan that returns has looked for a module once, above the folder where it
started, and gives every file the import path of its folder in that module. The module of the folder
of a file, which decides if the file is scanned alone, is that one or lies within it. It gives the
file the same import path just if its own name is the import path of its folder. -/
theorem package_scans_keep_to_one_module (disk : Disk) (reader : SourceReader)
    (listing : Option String) (options : PackageOptions) (directory : String)
    (result : PackageResult) (here : disk.here.Resolved) (recursive : options.recursive = true)
    (derived : options.module = none)
    (returns : (scanPackage disk listing options (disk.locate directory) reader).outcome =
      .ok result) :
    ∃ root name, GoModule.root? disk (disk.locate directory) = some root ∧
      GoModule.readName disk (Location.render (GoModule.fileName :: root)) = .ok name ∧
      ∀ file ∈ result.files,
        let route := Route.ofString file.file
        let folder := route.parent.locate disk.here
        GoModule.importPath folder.render folder root name = .ok file.package ∧
        ∃ nearest, GoModule.root? disk folder = some nearest ∧
          root <:+ nearest ∧ nearest <:+ folder ∧
          ∀ settings : Settings, settings.module = none →
            (Command.packageFor disk (some nearest) settings (route.locate disk.here) =
                .ok file.package ↔
              ∃ module,
                GoModule.readName disk (Location.render (GoModule.fileName :: nearest)) =
                  .ok module ∧
                GoModule.importPath nearest.render nearest root name = .ok module) := by
  obtain ⟨⟨root, name⟩, files, results, module, found, scanned, rfl⟩ :=
    (scanPackage_outcome_eq_ok_iff recursive).mp returns
  rw [derived] at module
  obtain ⟨rooted, read⟩ := PackageScan.moduleOf_none_eq_ok_iff.mp module
  refine ⟨root, name, rooted, read, fun file member => ?_⟩
  have resolved : (disk.locate directory).Resolved :=
    (Route.ofString_wellFormed directory).locate_resolved here
  obtain ⟨path, inside, scanned⟩ := Job.exists_of_mem_collected scanned member
  obtain ⟨route, tree, sameRoute, discovered, present, given⟩ := PackageScan.exists_discovered
    resolved (isWanted_of_mem_discover found inside) scanned
  obtain ⟨nearest, inner, nearestFound, nested, placed, stays⟩ :=
    discovered.exists_nearest present rooted given
  have folder := Route.parent_locate_of_not_mem discovered.absolute discovered.down disk.here
  have location := Route.locate_of_not_mem discovered.absolute discovered.down disk.here
  simp only [sameRoute, folder, location]
  -- From here on, the folder of the file is the way down from its own module.
  have named := discovered.named
  rw [← placed] at given nearestFound named ⊢
  refine ⟨?_, nearest, nearestFound, nested, ⟨inner, rfl⟩, fun settings none => ?_⟩
  · rw [GoModule.importPath_eq_ok_iff named] at given ⊢
    exact given
  · rw [Command.packageFor_eq_ok_iff none, ← placed]
    exact exists_congr fun module => and_congr_right fun _ =>
      GoModule.importPath_within named nested stays given

/-- A folder of a module with the given name, with an empty Go file and other entries. -/
def moduleFolder (name file : String) (others : List (String × FileTree)) : FileTree :=
  .folder ([("go.mod", .file ("module " ++ name).toUTF8), (file, .file ByteArray.empty)] ++ others)

/-- Two modules within another one. The first has the name that fits its place. -/
def nestedModules : Disk where
  root := moduleFolder "app" "app.go" [("lib", moduleFolder "app/lib" "lib.go" []),
    ("tool", moduleFolder "tool" "tool.go" [])]

/-- What the scan of the outer module gives. -/
def nestedResult : PackageResult :=
  ⟨"/", [], [⟨"/app.go", "app", [], []⟩, ⟨"/lib/lib.go", "app/lib", [], []⟩,
    ⟨"/tool/tool.go", "app/tool", [], []⟩]⟩

theorem scanPackage_nestedModules :
    (scanPackage nestedModules none { recursive := true } (nestedModules.locate "/")).outcome =
      .ok nestedResult := by
  have candidates : Discovery.candidates nestedModules none true [] = ["go.mod", "app.go",
      "lib/go.mod", "lib/lib.go", "tool/go.mod", "tool/tool.go"] := by
    simp [Discovery.candidates, Discovery.walked, Disk.at?, FileTree.at?, nestedModules,
      moduleFolder, FileTree.filesBelow, FileTree.filesAmong, Discovery.isSkipped,
      Discovery.isHidden, Discovery.slashed]
  have found : (discover nestedModules none { recursive := true } []).outcome =
      .ok ["app.go", "lib/lib.go", "tool/tool.go"] := by
    refine discover_outcome_eq_ok_iff.mpr ⟨["app.go", "lib/lib.go", "tool/tool.go"], ?_, ?_⟩
    · rw [candidates]
      decide +kernel
    · exact List.mergeSort_of_pairwise (by decide)
  have start : nestedModules.locate "/" = [] := by decide +kernel
  rw [start]
  refine (scanPackage_outcome_eq_ok_iff rfl).mpr
    ⟨([], "app"), _, nestedResult.files, by decide +kernel, found, ?_, by decide +kernel⟩
  exact .cons (by decide +kernel) (.cons (by decide +kernel) (.cons (by decide +kernel) .nil))

theorem package_scans_keep_to_one_module_nested :
    (scanPackage nestedModules none { recursive := true } (nestedModules.locate "/")).outcome =
      .ok nestedResult ∧
    Command.packageFor nestedModules (some ["lib"]) {} ["lib.go", "lib"] = .ok "app/lib" ∧
    Command.packageFor nestedModules (some ["tool"]) {} ["tool.go", "tool"] ≠ .ok "app/tool" := by
  obtain ⟨root, name, rooted, read, files⟩ := package_scans_keep_to_one_module nestedModules {} none
    { recursive := true } "/" nestedResult (List.forall_mem_nil _) rfl rfl scanPackage_nestedModules
  have top : some root = some [] := rooted.symm.trans (by decide +kernel)
  cases top
  have app : Except.ok name = Except.ok "app" := read.symm.trans (by decide +kernel)
  cases app
  refine ⟨scanPackage_nestedModules, ?_, ?_⟩
  · obtain ⟨_, nearest, found, _, _, same⟩ :=
      files ⟨"/lib/lib.go", "app/lib", [], []⟩ (by decide +kernel)
    have lib : some nearest = some ["lib"] := found.symm.trans (by decide +kernel)
    cases lib
    exact (same {} rfl).mpr ⟨"app/lib", by decide +kernel, by decide +kernel⟩
  · obtain ⟨_, nearest, found, _, _, same⟩ :=
      files ⟨"/tool/tool.go", "app/tool", [], []⟩ (by decide +kernel)
    have tool : some nearest = some ["tool"] := found.symm.trans (by decide +kernel)
    cases tool
    intro given
    obtain ⟨module, named, placed⟩ := (same {} rfl).mp given
    have other : Except.ok module = Except.ok "tool" := named.symm.trans (by decide +kernel)
    cases other
    revert placed
    decide +kernel

/-- A file in a module within the scanned one does not get its import path from there. -/
theorem inner_modules_are_passed_over :
    ∃ result, (scanPackage nestedModules none { recursive := true }
        (nestedModules.locate "/")).outcome = .ok result ∧
      ∃ file ∈ result.files, file.package = "app/tool" ∧
        let route := Route.ofString file.file
        let nearest := GoModule.root? nestedModules (route.parent.locate nestedModules.here)
        Command.packageFor nestedModules nearest {} (route.locate nestedModules.here) =
          .ok "tool" := by
  refine ⟨nestedResult, scanPackage_nestedModules, ⟨"/tool/tool.go", "app/tool", [], []⟩, ?_, rfl,
    ?_⟩
  · decide +kernel
  · decide +kernel

end AssetRefs
