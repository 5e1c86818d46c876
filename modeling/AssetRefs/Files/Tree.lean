import AssetRefs.Files.Route

/-! # File trees

The files that a command sees, as a value: a tree of folders and files, and a working directory in
it. A path is followed component by component, and every component but the last has to be a folder.
-/

namespace AssetRefs

/-- The bytes of a file, and whether it may be read. -/
structure FileContent where
  bytes : ByteArray
  readable : Bool := true
deriving Inhabited

instance : Coe ByteArray FileContent where
  coe bytes := { bytes }

/-- A file or a folder. -/
inductive FileTree where
  | file (content : FileContent)
  | folder (entries : List (String × FileTree))
deriving Inhabited

/-- Why there is no content to read at a path. -/
inductive FileError where
  | missing
  /-- There is a file that may not be read. -/
  | denied
  | notFolder
  | isFolder
deriving DecidableEq, Repr

namespace FileError

/-- The number of the error. -/
def number : FileError → Nat
  | missing => 2
  | denied => 13
  | notFolder => 20
  | isFolder => 21

/-- The wording of the error. -/
def message : FileError → String
  | missing => "No such file or directory"
  | denied => "Permission denied"
  | notFolder => "Not a directory"
  | isFolder => "Is a directory"

/-- The error with its number and the path in question. -/
def render (error : FileError) (path : String) : String :=
  "[Errno " ++ toString error.number ++ "] " ++ error.message ++ ": " ++ path

end FileError

namespace FileTree

/-- The entry of a folder. -/
def below? : FileTree → String → Option FileTree
  | file _, _ => none
  | folder entries, name => (entries.find? (·.1 == name)).map (·.2)

/-- What is at a location, whose components are given root first. -/
def at? (tree : FileTree) : List String → Option FileTree
  | [] => some tree
  | name :: rest =>
    match tree.below? name with
    | some below => below.at? rest
    | none => none

/-- Sets an entry of a folder; a new one comes last. -/
def setEntry (name : String) (tree : FileTree) :
    List (String × FileTree) → List (String × FileTree)
  | [] => [(name, tree)]
  | (other, old) :: rest =>
    if other = name then (name, tree) :: rest else (other, old) :: setEntry name tree rest

/-- Puts a tree where there may be one already. Of two folders, entries of the new one come first
and hide those of the same name. -/
def layOver : (new old : FileTree) → FileTree
  | folder new, folder old =>
    folder (new ++ old.filter fun entry => !new.any fun other => other.1 == entry.1)
  | new, _ => new

/-- Puts a tree at a path, given by its components, and makes the folders on the way. -/
def insert (new : FileTree) : List String → FileTree → FileTree
  | [], tree => new.layOver tree
  | name :: rest, tree =>
    let entries := match tree with
      | folder entries => entries
      | file _ => []
    folder (setEntry name (insert new rest ((tree.below? name).getD (folder []))) entries)

/-- Whether the tree is a file. -/
def isFile : FileTree → Bool
  | file _ => true
  | folder _ => false

/-- Whether the tree may be read; a folder always may. -/
def isReadable : FileTree → Bool
  | file content => content.readable
  | folder _ => true

/-- The number of bytes of a file; a folder counts as one block. -/
def size : FileTree → Nat
  | file content => content.bytes.size
  | folder _ => 4096

mutual

/-- The relative paths of the files below a folder, as components. Folders are entered as long as
`enter` says so of their names. -/
def filesBelow (enter : String → Bool) : FileTree → List (List String)
  | file _ => []
  | folder entries => filesAmong enter entries

/-- The relative paths of the files among the entries of a folder and below them. -/
def filesAmong (enter : String → Bool) : List (String × FileTree) → List (List String)
  | [] => []
  | (name, file _) :: rest => [name] :: filesAmong enter rest
  | (name, folder entries) :: rest =>
    (if enter name then (filesAmong enter entries).map (name :: ·) else []) ++
      filesAmong enter rest

end

end FileTree

/-- A file tree and a working directory. -/
structure Disk where
  root : FileTree
  here : Location := []

namespace Disk

/-- What is at a location. -/
def at? (disk : Disk) (location : Location) : Option FileTree := disk.root.at? location.reverse

/-- Whether there is a file at a location. -/
def hasFile (disk : Disk) (location : Location) : Bool := (disk.at? location).any (·.isFile)

/-- Goes along one component from a trail of folders, innermost first, to a trail one longer or
shorter. -/
def follow (trail : List FileTree) (component : String) : Except FileError (List FileTree) :=
  match trail with
  | [] => .error .missing
  | .file _ :: _ => .error .notFolder
  | .folder entries :: above =>
    if component = "" || component = "." then .ok trail
    else if component = ".." then .ok (if above.isEmpty then trail else above)
    else match (FileTree.folder entries).below? component with
      | some below => .ok (below :: trail)
      | none => .error .missing

/-- What a path leads to. A slash at the end asks for a folder. -/
def find (disk : Disk) (path : String) : Except FileError FileTree :=
  let absolute := path.toList.head? = some '/'
  let start := if absolute then Except.ok [disk.root]
    else disk.here.reverse.foldlM follow [disk.root]
  if path = "" then .error .missing
  else match start.bind fun trail => (Route.components path).foldlM follow trail with
    | .ok (tree :: _) => .ok tree
    | .ok [] => .error .missing
    | .error error => .error error

/-- The bytes of the file that a path leads to. -/
def read (disk : Disk) (path : String) : Except FileError ByteArray :=
  match disk.find path with
  | .ok (.file content) => if content.readable then .ok content.bytes else .error .denied
  | .ok (.folder _) => .error .isFolder
  | .error error => .error error

/-- Where a path leads, whether there is something or not. -/
def locate (disk : Disk) (path : String) : Location := (Route.ofString path).locate disk.here

end Disk

end AssetRefs
