import AssetRefs.Text.Blank
import AssetRefs.Text.Quoted

/-! # Asset paths

An asset path names one embeddable file or directory of a package and is written
`<package>:<name>`. Source code writes it in several forms, always relative to some package:

* the empty text, `:` and `.` are the root of that package,
* `/name` and `:/name` are a place below that root,
* `other/package:/name` and `other/package` name another package.

The name is kept in normal form: it starts with a slash, and its segments are neither empty nor
`.` nor `..`.
-/

namespace AssetRefs

/-- A package and a place in it. -/
structure AssetPath where
  pkg : String
  name : String
deriving DecidableEq, Repr

namespace AssetPath

/-- The written form `<package>:<name>`. -/
def render (path : AssetPath) : String := path.pkg ++ ":" ++ path.name

/-- Order by package, then by name, both in code point order. -/
def before (a b : AssetPath) : Bool := a.pkg < b.pkg || (a.pkg == b.pkg && a.name < b.name)

/-- Puts a path into a strictly increasing list, unless it is there. -/
def insert (path : AssetPath) : List AssetPath → List AssetPath
  | [] => [path]
  | other :: rest =>
    if path.before other then path :: other :: rest
    else if path = other then other :: rest
    else other :: insert path rest

/-- The distinct paths of a list in increasing order. -/
def sorted (paths : List AssetPath) : List AssetPath := paths.foldl (fun acc p => insert p acc) []

/-- Appends a segment to segments given last first: `.` and the empty segment stay put, and `..`
goes one up, never above the root. -/
def pushSegment (above : List (List Char)) (segment : List Char) : List (List Char) :=
  if segment = [] || segment = ['.'] then above
  else if segment = ['.', '.'] then above.tail
  else segment :: above

/-- The segments of a slash-separated name in normal form. -/
def normalSegments (name : List Char) : List (List Char) :=
  ((Text.pieces '/' name).foldl pushSegment []).reverse

/-- The normal form of a name. -/
def normalName (name : List Char) : List Char :=
  '/' :: List.intercalate ['/'] (normalSegments name)

end AssetPath

/-- Why a text is no asset path, or a literal no text. -/
inductive PathError where
  /-- The text has none of the forms of an asset path. -/
  | unparsable (text : String)
  /-- The literal is not a string literal. -/
  | notString (raw : String)
  /-- The string literal has an escape that denotes nothing. -/
  | badEscape (raw : String)
deriving DecidableEq, Repr

/-- The wording of a path error. -/
def PathError.message : PathError → String
  | unparsable text => "could not parse " ++ Text.quoted text
  | notString raw => raw ++ " is not a string literal"
  | badEscape raw => "invalid string literal " ++ raw

namespace AssetPath

/-- The text that the grammar sees: blank ends dropped, slashes for backslashes. -/
def canonicalText (text : String) : List Char :=
  (Text.trim text.toList).map fun c => if c = '\\' then '/' else c

/-- The part before the first colon and, if there is a colon, the part after it. -/
def splitMarker : List Char → List Char × Option (List Char)
  | [] => ([], none)
  | c :: rest =>
    if c = ':' then ([], some rest)
    else match splitMarker rest with
      | (front, back?) => (c :: front, back?)

/-- The path for an explicit package and name, either of which may be empty. A package that is
empty or starts with a slash is no package: what stands there is the name, and the package is
`home`. -/
def build (home : String) (pkg name : List Char) : AssetPath :=
  match pkg with
  | [] => ⟨home, String.ofList (normalName name)⟩
  | '/' :: _ => ⟨home, String.ofList (normalName pkg)⟩
  | _ => ⟨String.ofList pkg, String.ofList (normalName name)⟩

/-- Reads a path relative to the package `home`. -/
def parse (home text : String) : Except PathError AssetPath :=
  let chars := canonicalText text
  if chars = [] || chars = [':'] || chars = ['.'] then .ok (build home [] [])
  else
    let (pkg, name?) := splitMarker chars
    if pkg.any Text.isBlank then .error (.unparsable text)
    else match name? with
      | none => .ok (build home pkg [])
      | some name =>
        if name.head? = some '/' && !name.contains '\n' then .ok (build home pkg name)
        else .error (.unparsable text)

end AssetPath

end AssetRefs
