import AssetRefs.Command.Invocation
import AssetRefs.PackageScan
import AssetRefs.Report
import AssetRefs.Settings

/-! # Running commands

A command prints the paths it found, or a JSON document, and reports errors. How it ended shows in
its exit code.
-/

namespace AssetRefs

/-- What a command sees of the world. -/
structure World where
  disk : Disk
  /-- The version control listing of the folder in question, if there is one. -/
  listing : Option String := none
  /-- The namespace that the environment asks for. -/
  environment : Option String := none
  /-- The time stamp for JSON documents. -/
  timestamp : String
  /-- How Go files are read. -/
  reader : SourceReader := {}
  /-- How settings files are read. -/
  loader : Yaml.Loader := Yaml.load

/-- How a command ended. -/
inductive Ending where
  | exit (code : Int)
  /-- A failure that the command has no message for. -/
  | crash (failure : Failure)
deriving DecidableEq, Repr

/-- What a command printed, and how it ended. -/
structure Transcript where
  /-- The results. -/
  output : String := ""
  /-- The log and error messages. -/
  messages : String := ""
  ending : Ending
deriving DecidableEq, Repr

namespace Command

/-! ## Printed text -/

/-- Whether a character may stand in a terminal control sequence, before its letter. -/
def isParameter (c : Char) : Bool := c == ';' || c == '?' || ('0' ≤ c && c ≤ '9')

/-- Leaves out terminal control sequences, given the start of a possible one in reverse. -/
def withoutControls : (start : List Char) → List Char → List Char
  | start, [] => start.reverse
  | start, c :: rest =>
    if c.toNat = 27 then start.reverse ++ withoutControls [c] rest
    else match start with
      | [] => c :: withoutControls [] rest
      | [_] =>
        if c = '[' then withoutControls (c :: start) rest
        else start.reverse ++ c :: withoutControls [] rest
      | _ =>
        if isParameter c then withoutControls (c :: start) rest
        else if c.isAlpha then withoutControls [] rest
        else start.reverse ++ c :: withoutControls [] rest

/-- A printed line. -/
def printed (text : String) : String := String.ofList (withoutControls [] text.toList) ++ "\n"

/-- Printed lines. -/
def printedAll (texts : List String) : String := String.join (texts.map printed)

/-- The log as it is shown: in full, or only the warnings. -/
def shownLog (verbose : Bool) (log : List LogEntry) : String :=
  String.join (log.filterMap fun entry =>
    if verbose then some (entry.render ++ "\n")
    else if entry.level = .warning then some (entry.message ++ "\n")
    else none)

/-! ## Failures -/

/-- The error that reports a failure; some failures have none. -/
def errorOf? : Failure → Option CommandError
  | .load (.source error) => some (.parseFailed error.render)
  | .load (.malformed _) => none
  | .module (.notText _) => none
  | .module error => some (.configFailed error.message)
  | .settings error =>
    if [.unreadable, .notText, .unorderedKeys, .outOfRange].contains error.problem then none
    else some (.configFailed error.message)
  | .scan _ => none
  | .emptyPattern => none

/-- The message and the ending for an error. -/
def failed (error : CommandError) : String × Ending :=
  (printed ("Error: " ++ error.message), .exit error.code)

/-- Under `strict`, unresolved call sites are an error. -/
def strictly (strict : Bool) (errors : List ScanError) : String × Ending :=
  if strict && !errors.isEmpty then
    failed (.partialResult
      (toString errors.length ++ " call site(s) could not be resolved."))
  else ("", .exit 0)

/-! ## The commands -/

/-- The settings for a folder: those of its module, with replacements. -/
def settingsFor (world : World) (root : Option Location) (overrides : Overrides) : Job Settings :=
  (Settings.load world.disk world.environment (root.map fun root => Route.ofString root.render)
    world.loader).andThen fun settings => .done (settings.merge overrides)

/-- The import path for a single file. -/
def packageFor (disk : Disk) (root : Option Location) (settings : Settings) (file : Location) :
    Except ModuleError String :=
  match root with
  | none => .error (.absentFor file.render)
  | some root =>
    (PackageScan.moduleName disk settings.module root).bind fun module =>
      GoModule.importPath (Location.render file.tail) file.tail root module

/-- Scans a single file. -/
def scanOne (world : World) (options : ScanCommand) : Job ScanResult :=
  let disk := world.disk
  let route := Route.ofString options.file
  let file := route.locate disk.here
  let root := GoModule.root? disk (route.parent.locate disk.here)
  (settingsFor world root { spaceName := options.spaceName }).andThen fun settings =>
    let package : Except ModuleError String := match options.package with
      | some package => .ok package
      | none => packageFor disk root settings file
    (Job.ofExcept .module package).andThen fun package =>
      scanFile disk { file := route.render, package, spaceName := settings.spaceName } world.reader

/-- Scans a folder. -/
def scanFolder (world : World) (options : ListCommand) : Job PackageResult :=
  let disk := world.disk
  let folder := disk.locate options.directory
  let overrides : Overrides :=
    { spaceName := options.spaceName
      includeTests := if options.includeTests then some true else none
      exclude := if options.exclude.isEmpty then none else some options.exclude }
  (settingsFor world (GoModule.root? disk folder) overrides).andThen fun settings =>
    scanPackage disk world.listing
      { recursive := options.recursive, includeTests := settings.includeTests,
        exclude := settings.exclude, package := options.package,
        spaceName := settings.spaceName, module := settings.module }
      folder world.reader

/-- A count as JSON. -/
def count {α : Type} (items : List α) : Json := .number items.length

/-- The JSON document for a single file. -/
def scanDocument (timestamp : String) (result : ScanResult) : Json :=
  envelope timestamp "scan" [("paths", count result.paths), ("errors", count result.errors)]
    result.members

/-- The JSON document for a folder. -/
def listDocument (timestamp : String) (result : PackageResult) : Json :=
  envelope timestamp "list"
    [("files", count result.files), ("paths", count result.paths),
      ("errors", count result.errors)]
    [("root", .string result.root), ("paths", pathsToJson result.paths),
      ("errors", .array (result.errors.map ScanError.toJson))]

/-- What is printed for paths and errors, or for the document in their place. -/
def report (json strict : Bool) (document : Json) (paths : List AssetPath)
    (errors : List ScanError) : Transcript :=
  let (message, ending) := strictly strict errors
  if json then { output := printed document.render, messages := message, ending }
  else
    { output := printedAll (paths.map AssetPath.render)
      messages := printedAll (errors.map ScanError.report) ++ message
      ending }

/-- What is printed for a job: its log, and its report or its failure. -/
def transcript {α : Type} (verbose : Bool) (job : Job α) (report : α → Transcript) : Transcript :=
  let log := shownLog verbose job.log
  match job.outcome with
  | .ok value =>
    let shown := report value
    { shown with messages := log ++ shown.messages }
  | .error failure =>
    match errorOf? failure with
    | some error =>
      let (message, ending) := failed error
      { messages := log ++ message, ending }
    | none => { messages := log, ending := .crash failure }

/-- Runs a command. -/
def run (world : World) (json verbose : Bool) : Command → Transcript
  | .scan options =>
    transcript verbose (scanOne world options) fun result =>
      report json options.strict (scanDocument world.timestamp result) result.paths result.errors
  | .list options =>
    transcript verbose (scanFolder world options) fun result =>
      report json options.strict (listDocument world.timestamp result) result.paths result.errors

end Command

namespace Invocation

/-- The help on everything or on one command. -/
def helpText : Option String → String
  | some "scan" =>
    "Usage: embedscan scan [OPTIONS] FILE\n\n" ++
    "  List the resources FILE references through Open/Walk calls.\n\n" ++
    "Options:\n" ++
    "  -p, --package TEXT  Import path of the file's package (default: derived from\n" ++
    "                      go.mod)\n" ++
    "  --namespace TEXT    Identifier of the embed API package (default: pkger)\n" ++
    "  --strict            Exit with code 6 when any call site could not be resolved\n" ++
    "  --help              Show this message and exit.\n"
  | some "list" =>
    "Usage: embedscan list [OPTIONS] [DIRECTORY]\n\n" ++
    "  List the resources referenced by the Go files in DIRECTORY. The candidate\n" ++
    "  files are read from standard input, one path a line.\n\n" ++
    "Options:\n" ++
    "  -r, --recursive     Scan every package below DIRECTORY\n" ++
    "  --include-tests     Also scan *_test.go files\n" ++
    "  --exclude TEXT      Glob of files to skip (repeatable)\n" ++
    "  -p, --package TEXT  Import path of DIRECTORY's package (default: derived from\n" ++
    "                      go.mod)\n" ++
    "  --namespace TEXT    Identifier of the embed API package (default: pkger)\n" ++
    "  --strict            Exit with code 6 when any call site could not be resolved\n" ++
    "  --help              Show this message and exit.\n"
  | _ =>
    "Usage: embedscan [OPTIONS] COMMAND [ARGS]...\n\n" ++
    "  embedscan: list the embedded resources a Go package references.\n\n" ++
    "Options:\n" ++
    "  --version      Show the version and exit.\n" ++
    "  --json         Output in JSON format\n" ++
    "  -v, --verbose  Log debug output to stderr\n" ++
    "  --help         Show this message and exit.\n\n" ++
    "Commands:\n" ++
    "  list  List the resources referenced by the Go files in DIRECTORY.\n" ++
    "  scan  List the resources FILE references through Open/Walk calls.\n"

/-- Does what a command line asks for. -/
def perform (world : World) : Invocation → Transcript
  | version => { output := "embedscan, version " ++ AssetRefs.version ++ "\n", ending := .exit 0 }
  | help command => { output := helpText command, ending := .exit 0 }
  | misuse error =>
    { messages := "Usage: embedscan [OPTIONS] COMMAND [ARGS]...\nError: " ++ error.message ++ "\n"
      ending := .exit 2 }
  | run json verbose command => command.run world json verbose

end Invocation

/-- Runs a command line. -/
def runArguments (world : World) (arguments : List String) : Transcript :=
  (Invocation.ofArguments world.disk arguments).perform world

end AssetRefs
