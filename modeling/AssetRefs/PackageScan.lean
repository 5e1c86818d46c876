import AssetRefs.Discovery

/-! # Scanning files and packages

A file is read, parsed and scanned on its own. A package scan finds the files of a folder, scans
each of them under the import path of its own folder, and merges the results.
-/

namespace AssetRefs

/-- What a note of a session looks like in the log. -/
def ScanNote.entry (file : String) : ScanNote → LogEntry
  | found line path =>
    ⟨.debug, "embedscan.scanner", file ++ ":" ++ toString line ++ ": found " ++ path.render⟩
  | logged error => ⟨.debug, "embedscan.scanner", "recoverable: " ++ error.render⟩

/-- The last log entry of a scan. -/
def ScanResult.entry (result : ScanResult) : LogEntry :=
  ⟨.debug, "embedscan.scanner",
    result.file ++ ": " ++ toString result.paths.length ++ " path(s), " ++
      toString result.errors.length ++ " error(s)"⟩

/-- Scans a parsed file. -/
def scanJob (context : ScanContext) (tree : SyntaxTree) : Job ScanResult :=
  let (session, outcome) := ({} : Session).run context tree
  let notes := session.notes.reverse.map (ScanNote.entry context.file)
  match outcome with
  | .ok result => ⟨notes ++ [result.entry], .ok result⟩
  | .error error => ⟨notes, .error (.scan error)⟩

/-- Reads, parses and scans the file of the context. -/
def scanFile (disk : Disk) (context : ScanContext) (reader : SourceReader := {}) :
    Job ScanResult :=
  match disk.read context.file with
  | .error error => .fail (.load (.source { path := context.file, message := error.message }))
  | .ok source =>
    let entry : LogEntry := ⟨.debug, "embedscan.syntax.go_tree",
      "parsing " ++ context.file ++ " (" ++ toString source.size ++ " bytes)"⟩
    (Job.write entry).andThen fun _ =>
      (Job.ofExcept .load (parseSource source context.file reader)).andThen (scanJob context)

/-- How to scan a package. -/
structure PackageOptions extends DiscoveryOptions where
  /-- The import path of the folder, unless it is derived from the module. -/
  package : Option String := none
  spaceName : String := "pkger"
  /-- The name of the module in place of the one in its file. -/
  module : Option String := none
deriving DecidableEq, Repr

/-- The merged result of several files. -/
structure PackageResult where
  root : String
  paths : List AssetPath
  files : List ScanResult
deriving DecidableEq, Repr

namespace PackageResult

/-- The errors of all files in order. -/
def errors (result : PackageResult) : List ScanError := result.files.flatMap ScanResult.errors

/-- Whether no file has an error. -/
def ok (result : PackageResult) : Bool := result.files.all ScanResult.ok

end PackageResult

namespace PackageScan

/-- The name of the module with the given folder: the one given, unless it is empty, or the one in
its file. -/
def moduleName (disk : Disk) (given : Option String) (root : Location) :
    Except ModuleError String :=
  match given with
  | some name =>
    if name = "" then GoModule.readName disk (Location.render (GoModule.fileName :: root))
    else .ok name
  | none => GoModule.readName disk (Location.render (GoModule.fileName :: root))

/-- The folder and the name of the module that a folder belongs to. With a given name, a folder
outside all modules is a module of its own. -/
def moduleOf (disk : Disk) (given : Option String) (folder : Location) :
    Except ModuleError (Location × String) :=
  match GoModule.root? disk folder, given with
  | none, none => .error (.absent folder.render)
  | none, some name => (moduleName disk (some name) folder).map (folder, ·)
  | some root, given => (moduleName disk given root).map (root, ·)

/-- The import path for the file at a route: derived from a module, or the one given. -/
def packageOf (disk : Disk) (module : Option (Location × String)) (given : String)
    (file : Route) : Except ModuleError String :=
  match module with
  | none => .ok given
  | some (root, name) =>
    GoModule.importPath file.parent.render (file.parent.locate disk.here) root name

/-- Scans one of the files found. -/
def scanOne (reader : SourceReader) (disk : Disk) (options : PackageOptions)
    (module : Option (Location × String)) (folder : Location) (path : String) : Job ScanResult :=
  let file := Discovery.routeTo folder path
  (Job.ofExcept .module (packageOf disk module (options.package.getD "") file)).andThen
    fun package =>
      scanFile disk { file := file.render, package, spaceName := options.spaceName } reader

end PackageScan

/-- Scans the Go files of a folder, or of all folders below it. The import paths are derived from
the module, unless one is given for the one folder. -/
def scanPackage (disk : Disk) (listing : Option String) (options : PackageOptions)
    (folder : Location) (reader : SourceReader := {}) : Job PackageResult :=
  let module : Job (Option (Location × String)) :=
    if options.package.isNone || options.recursive then
      (Job.ofExcept .module (PackageScan.moduleOf disk options.module folder)).andThen
        fun module => .done (some module)
    else .done none
  module.andThen fun module =>
    (discover disk listing options.toDiscoveryOptions folder).andThen fun files =>
      let entry : LogEntry := ⟨.debug, Discovery.origin,
        folder.render ++ ": " ++ toString files.length ++ " file(s) to scan"⟩
      (Job.write entry).andThen fun _ =>
        (Job.collect (PackageScan.scanOne reader disk options module folder) files).andThen
          fun results =>
            .done ⟨folder.render, AssetPath.sorted (results.flatMap ScanResult.paths), results⟩

end AssetRefs
