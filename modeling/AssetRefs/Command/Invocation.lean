import AssetRefs.Command.Options
import AssetRefs.Files.Tree

/-! # Invocations

What a command line asks for: the version, help, or one of the commands `scan` and `list` with its
options.
-/

namespace AssetRefs

/-- The options of the command `scan`. -/
structure ScanCommand where
  file : String
  package : Option String := none
  spaceName : Option String := none
  strict : Bool := false
deriving DecidableEq, Repr

/-- The options of the command `list`. -/
structure ListCommand where
  directory : String := "."
  recursive : Bool := false
  includeTests : Bool := false
  exclude : List String := []
  package : Option String := none
  spaceName : Option String := none
  strict : Bool := false
deriving DecidableEq, Repr

/-- A command. -/
inductive Command where
  | scan (options : ScanCommand)
  | list (options : ListCommand)
deriving DecidableEq, Repr

/-- What a command line asks for. -/
inductive Invocation where
  | version
  /-- Help on everything, or on one command. -/
  | help (command : Option String)
  | run (json verbose : Bool) (command : Command)
  | misuse (error : UsageError)
deriving DecidableEq, Repr

namespace Invocation

/-- The options before the command. -/
def mainForms : List OptionForm :=
  [{ name := "json", long := ["--json"] },
    { name := "verbose", long := ["--verbose"], short := ['v'] },
    { name := "version", long := ["--version"] }, { name := "help", long := ["--help"] }]

/-- The options of `scan`. -/
def scanForms : List OptionForm :=
  [{ name := "package", long := ["--package"], short := ['p'], takesValue := true },
    { name := "namespace", long := ["--namespace"], takesValue := true },
    { name := "strict", long := ["--strict"] }, { name := "help", long := ["--help"] }]

/-- The options of `list`. -/
def listForms : List OptionForm :=
  { name := "recursive", long := ["--recursive"], short := ['r'] } ::
    { name := "include-tests", long := ["--include-tests"] } ::
    { name := "exclude", long := ["--exclude"], takesValue := true } :: scanForms

/-- Checks that a path leads to a file that may be read, or to a folder. -/
def checkPath (disk : Disk) (wantsFile : Bool) (path : String) : Except UsageError Unit :=
  match disk.find path with
  | .error _ => .error (.pathMissing path)
  | .ok tree =>
    if tree.isFile = wantsFile then
      if tree.isReadable then .ok () else .error (.pathUnreadable path)
    else .error (.pathKind path)

/-- The command `scan` with the words after it. -/
def scanOf (disk : Disk) (line : ParsedLine) : Except UsageError ScanCommand :=
  match line.arguments with
  | [] => .error (.argumentMissing "FILE")
  | [file] =>
    (checkPath disk true file).map fun _ =>
      { file, package := line.value? "package", spaceName := line.value? "namespace",
        strict := line.has "strict" }
  | _ :: extra :: _ => .error (.argumentUnexpected extra)

/-- The command `list` with the words after it. -/
def listOf (disk : Disk) (line : ParsedLine) : Except UsageError ListCommand :=
  match line.arguments with
  | _ :: extra :: _ => .error (.argumentUnexpected extra)
  | arguments =>
    let directory := arguments.head?.getD "."
    (checkPath disk false directory).map fun _ =>
      { directory, recursive := line.has "recursive", includeTests := line.has "include-tests",
        exclude := line.values "exclude", package := line.value? "package",
        spaceName := line.value? "namespace", strict := line.has "strict" }

/-- Help or version, whichever is asked for first. -/
def eager? (line : ParsedLine) : Option Invocation :=
  line.options.findSome? fun given =>
    if given.name = "version" then some version
    else if given.name = "help" then some (help none)
    else none

/-- What a word that is no command leads to. After `--` it may be written like an option; then help
and version are still found. -/
def unknown (name : String) (rest : List String) : Invocation :=
  match OptionForm.parse mainForms false (name :: rest) with
  | .ok line => (eager? line).getD (misuse (.unknownCommand name))
  | .error error => misuse error

/-- What a command with the words after it asks for. -/
def ofCommand {α : Type} (name : String) (forms : List OptionForm) (words : List String)
    (read : ParsedLine → Except UsageError α) (wrap : α → Invocation) : Invocation :=
  match OptionForm.parse forms true words with
  | .error error => misuse error
  | .ok line =>
    if line.has "help" then help (some name)
    else match read line with
      | .ok options => wrap options
      | .error error => misuse error

/-- The path that a command line is about, whether there is something at it or not. -/
def target? (arguments : List String) : Option String :=
  match (OptionForm.parse mainForms false arguments).map ParsedLine.arguments with
  | .ok ("scan" :: words) => first? scanForms words
  | .ok ("list" :: words) => (first? listForms words).or (some ".")
  | _ => none
where
  /-- The first argument of a command. -/
  first? (forms : List OptionForm) (words : List String) : Option String :=
    match OptionForm.parse forms true words with
    | .ok line => line.arguments.head?
    | .error _ => none

/-- Whether a command line is about the files of a folder. -/
def readsListing (arguments : List String) : Bool :=
  match (OptionForm.parse mainForms false arguments).map ParsedLine.arguments with
  | .ok ("list" :: words) => !words.contains "--help"
  | _ => false

/-- Reads a command line. -/
def ofArguments (disk : Disk) (arguments : List String) : Invocation :=
  match OptionForm.parse mainForms false arguments with
  | .error error => misuse error
  | .ok line =>
    let wrap (command : Command) := run (line.has "json") (line.has "verbose") command
    match eager? line, line.arguments with
    | some invocation, _ => invocation
    | none, [] => misuse .noCommand
    | none, "scan" :: words =>
      ofCommand "scan" scanForms words (scanOf disk) fun options => wrap (.scan options)
    | none, "list" :: words =>
      ofCommand "list" listForms words (listOf disk) fun options => wrap (.list options)
    | none, name :: rest => unknown name rest

end Invocation

end AssetRefs
