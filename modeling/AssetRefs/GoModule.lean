import AssetRefs.Files.Tree
import AssetRefs.Text.Lines
import AssetRefs.Text.Quoted
import AssetRefs.Text.Utf8

/-! # Go modules

A module is a folder with a file `go.mod`, which names the module in its directive. The import path
of a package is that name followed by the way from the module's folder to the package's.
-/

namespace AssetRefs

/-- Why there is no usable module. -/
inductive ModuleError where
  | unreadable (path : String) (error : FileError)
  /-- The module file is not UTF-8. -/
  | notText (path : String)
  | noDirective (path : String)
  | outside (directory module : String)
  /-- There is no module file in the directory or above it. -/
  | absent (directory : String)
  /-- There is no module file for a single file, and no package was given. -/
  | absentFor (file : String)
deriving DecidableEq, Repr

/-- The wording of a module error. -/
def ModuleError.message : ModuleError → String
  | unreadable path error => "cannot read " ++ path ++ ": " ++ error.render (Text.quoted path)
  | notText path => path ++ ": invalid UTF-8"
  | noDirective path => path ++ ": no module directive"
  | outside directory module => directory ++ " is outside module " ++ module
  | absent directory => "no go.mod found in " ++ directory ++ " or any parent"
  | absentFor file => "No go.mod found for " ++ file ++ "; pass --package."

namespace GoModule

/-- The name of the module file. -/
def fileName : String := "go.mod"

/-! ## The directive -/

/-- Whether a text may follow a directive: blank space and perhaps a comment. -/
def endsDirective (after : List Char) : Bool :=
  match Text.trimLeft after with
  | [] => true
  | '/' :: '/' :: _ => true
  | _ => false

/-- A character of a module name. -/
def isNameChar (c : Char) : Bool := c != '"' && !Text.isBlank c

/-- What stands before the last comment mark. -/
def beforeComment? : List Char → Option (List Char)
  | [] => none
  | c :: rest =>
    match beforeComment? rest with
    | some front => some (c :: front)
    | none => if c = '/' && rest.head? = some '/' then some [] else none

/-- The name in a directive, after the keyword and blank space. A name without quotes may have
comment marks in it, unless what follows it leaves no other reading. -/
def directiveName? : List Char → Option (List Char)
  | '"' :: rest =>
    let name := rest.takeWhile isNameChar
    match rest.dropWhile isNameChar with
    | '"' :: after => if !name.isEmpty && endsDirective after then some name else none
    | _ => none
  | body =>
    let name := body.takeWhile isNameChar
    if name.isEmpty then none
    else if endsDirective (body.dropWhile isNameChar) then some name
    else match beforeComment? name with
      | some (c :: front) => some (c :: front)
      | _ => none

/-- The name that a line declares, if it is a directive. -/
def lineName? (line : List Char) : Option (List Char) :=
  match Text.trimLeft line with
  | 'm' :: 'o' :: 'd' :: 'u' :: 'l' :: 'e' :: c :: rest =>
    if Text.isBlank c then directiveName? (Text.trimLeft rest) else none
  | _ => none

/-- The name that the first directive of a module file declares. -/
def nameIn? (text : List Char) : Option String :=
  ((Text.lines (Text.unifyNewlines text)).findSome? lineName?).map String.ofList

/-- Reads the name of a module from its file. -/
def readName (disk : Disk) (path : String) : Except ModuleError String :=
  match disk.read path with
  | .error error => .error (.unreadable path error)
  | .ok content =>
    match Text.Utf8.decode? content.toList with
    | none => .error (.notText path)
    | some text =>
      match nameIn? text with
      | none => .error (.noDirective path)
      | some name => .ok name

/-! ## Folders of a module -/

/-- The folder of the nearest module at or above a location; a file stands for its folder. -/
def root? (disk : Disk) (start : Location) : Option Location :=
  let folder : Location := if disk.hasFile start then start.tail else start
  folder.ancestors.find? fun folder => disk.hasFile (fileName :: folder)

/-- The import path of the package in a folder. Errors show the folder as `shown`. -/
def importPath (shown : String) (folder root : Location) (module : String) :
    Except ModuleError String :=
  let way := (String.intercalate "/" (folder.relativeTo root)).toList.map fun c =>
    if c = '\\' then '/' else c
  match way with
  | [] => .ok module
  | '.' :: '.' :: _ => .error (.outside shown module)
  | _ => .ok (module ++ "/" ++ String.ofList way)

end GoModule

end AssetRefs
