import AssetRefs.Files.Glob
import AssetRefs.Job

/-! # Discovery of Go files

The Go files of a folder come from the version control listing, if there is one, or from the file
tree. Hidden and vendored folders are left out, and so are tests, excluded files and files that are
too large.
-/

namespace AssetRefs

/-- What to look for. -/
structure DiscoveryOptions where
  recursive : Bool := false
  includeTests : Bool := false
  /-- Patterns of files to leave out. -/
  exclude : List String := []
deriving DecidableEq, Repr

namespace Discovery

/-- The part of the program in the log. -/
def origin : String := "embedscan.package"

/-- The size of the largest file that is scanned. -/
def sizeLimit : Nat := 1000000

/-- Whether a name is hidden: it starts with a dot or an underscore. -/
def isHidden (name : String) : Bool :=
  match name.toList with
  | c :: _ => c = '.' || c = '_'
  | [] => false

/-- Whether a folder of the given name is left out. -/
def isSkipped (name : String) : Bool :=
  ["testdata", "vendor", "node_modules"].contains name || isHidden name

/-- Whether a name ends in the given text. -/
def endsIn (ending name : String) : Bool := ending.toList.isSuffixOf name.toList

/-- Whether a relative path, given by its components, is that of a Go file to look at. -/
def isWanted (options : DiscoveryOptions) (components : List String) : Bool :=
  let name := (components.getLast?).getD ""
  (options.recursive || components.length ≤ 1) &&
    !components.dropLast.any isSkipped &&
    endsIn ".go" name && !isHidden name &&
    (options.includeTests || !endsIn "_test.go" name)

/-- The path with slashes for backslashes. -/
def slashed (path : String) : String :=
  String.ofList (path.toList.map fun c => if c = '\\' then '/' else c)

/-- The paths in a version control listing. -/
def listed (listing : String) : List String :=
  ((Text.lines listing.toList).map Text.trim).filterMap fun line =>
    if line.isEmpty then none else some (String.ofList line)

/-- The paths of the files below a folder of the tree. -/
def walked (disk : Disk) (recursive : Bool) (root : Location) : List String :=
  match disk.at? root with
  | none => []
  | some tree =>
    (tree.filesBelow fun name => recursive && !isSkipped name).map (String.intercalate "/")

/-- The route to a file given by its relative path. -/
def routeTo (root : Location) (path : String) : Route :=
  (Route.ofString root.render).join (Route.ofString path)

/-- Decides on one path: whether it is kept. -/
def keep (disk : Disk) (root : Location) (options : DiscoveryOptions) (path : String) :
    Job Bool :=
  if isWanted options (Route.components path) then
    match Glob.matchesAny? path options.exclude with
    | none => .fail .emptyPattern
    | some true => (Job.write ⟨.debug, origin, "excluded " ++ path⟩).andThen fun _ => .done false
    | some false =>
      match disk.find (routeTo root path).render with
      | .error _ => .done false
      | .ok tree =>
        if sizeLimit < tree.size then
          (Job.write ⟨.debug, origin, "skipping oversized " ++ path⟩).andThen fun _ => .done false
        else .done true
  else .done false

/-- The paths of a list that are kept. -/
def keepAll (disk : Disk) (root : Location) (options : DiscoveryOptions) :
    List String → Job (List String)
  | [] => .done []
  | path :: rest =>
    (keep disk root options path).andThen fun kept =>
      (keepAll disk root options rest).andThen fun more =>
        .done (if kept then path :: more else more)

end Discovery

/-- The relative paths of the Go files in a folder, in code point order. -/
def discover (disk : Disk) (listing : Option String) (options : DiscoveryOptions)
    (root : Location) : Job (List String) :=
  let candidates := match listing with
    | some text => Discovery.listed text
    | none => Discovery.walked disk options.recursive root
  (Discovery.keepAll disk root options (candidates.map Discovery.slashed)).andThen fun kept =>
    .done (kept.mergeSort fun a b => a ≤ b)

end AssetRefs
