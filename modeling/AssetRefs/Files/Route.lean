import AssetRefs.Text.Blank

/-! # Routes and locations

A route is a path to a file as it is written, with `.` and repeated slashes dropped but `..` kept. A
location is where a route leads from a working directory; it has neither.
-/

namespace AssetRefs

/-- The components of a place in the file tree, innermost first. -/
abbrev Location := List String

namespace Location

/-- The absolute path of a location. -/
def render (location : Location) : String :=
  "/" ++ String.intercalate "/" location.reverse

/-- The location with those above it, nearest first. -/
def ancestors : Location → List Location
  | [] => [[]]
  | name :: above => (name :: above) :: ancestors above

/-- Goes along one component. -/
def step (location : Location) (component : String) : Location :=
  if component = ".." then location.tail else component :: location

/-- The components of a place below its nearest common ancestor with a base, and how many the base
has below it. Both are given root first. -/
def split : (place base : List String) → List String × Nat
  | name :: rest, other :: more =>
    if name = other then split rest more else (name :: rest, more.length + 1)
  | rest, more => (rest, more.length)

/-- The path from a base to a location: up to the nearest common ancestor and down again. -/
def relativeTo (location base : Location) : List String :=
  let (down, up) := split location.reverse base.reverse
  List.replicate up ".." ++ down

end Location

/-- A path as it is written: its root and its components. -/
structure Route where
  /-- One slash or two for an absolute path, else nothing. -/
  root : String := ""
  parts : List String := []
deriving DecidableEq, Repr

namespace Route

/-- The pieces of a text between slashes. -/
def components (text : String) : List String :=
  (Text.pieces '/' text.toList).map String.ofList

/-- Reads a route. Exactly two slashes at the start are a root of their own. -/
def ofString (text : String) : Route :=
  let slashes := (text.toList.takeWhile (· == '/')).length
  { root := if slashes = 0 then "" else if slashes = 2 then "//" else "/"
    parts := (components text).filter fun part => part != "" && part != "." }

/-- The written form of a route. -/
def render (route : Route) : String :=
  if route.root = "" && route.parts.isEmpty then "."
  else route.root ++ String.intercalate "/" route.parts

/-- A route below another one; an absolute route stays as it is. -/
def join (base route : Route) : Route :=
  if route.root = "" then { base with parts := base.parts ++ route.parts } else route

/-- The route without its last component. -/
def parent (route : Route) : Route := { route with parts := route.parts.dropLast }

/-- The root, if there is one, and the components. -/
def steps (route : Route) : List String :=
  if route.root = "" then route.parts else route.root :: route.parts

/-- Where a route leads from a working directory. -/
def locate (route : Route) (here : Location) : Location :=
  route.parts.foldl Location.step (if route.root = "" then here else [])

end Route

end AssetRefs
