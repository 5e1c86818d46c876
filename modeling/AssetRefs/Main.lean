import AssetRefs.Command.Run
import AssetRefs.Text.UtcStamp
import Std.Time.DateTime.Timestamp

/-! # The program

Reads the part of the file system that a command line is about, runs the command on it and prints
what it has to say. For the command `list`, the candidate files come from standard input, one path a
line and relative to the directory, as a version control program lists them.
-/

namespace AssetRefs

/-- The result of an action, if it succeeds. -/
def attempt? {α : Type} (action : IO α) : IO (Option α) := do
  try
    return some (← action)
  catch _ =>
    return none

/-- What is at a location. Folders are not searched. -/
def readLocation? (location : Location) : IO (Option FileTree) := do
  let path := location.render
  match ← attempt? (IO.FS.realPath path), ← attempt? (IO.FS.realPath (path ++ "/.")) with
  | none, _ => return none
  | some _, some _ => return some (.folder [])
  | some _, none =>
    match ← attempt? (IO.FS.readBinFile path) with
    | some content => return some (.file content)
    | none => return some (.file { bytes := .empty, readable := false })

/-- Reads the locations one after the other into a tree. -/
def readLocations (tree : FileTree) : List Location → IO FileTree
  | [] => return tree
  | location :: rest => do
    match ← readLocation? location with
    | some new => readLocations (new.insert location.reverse tree) rest
    | none => readLocations tree rest

/-- The locations that a command looks at, given its target and the listing of candidates. -/
def locationsFor (here : Location) (target : String) (listing : Option String) : List Location :=
  let route := Route.ofString target
  let trail := (List.range (route.parts.length + 1)).map fun n =>
    Route.locate { route with parts := route.parts.take n } here
  let folder := route.locate here
  let known := folder.ancestors.flatMap fun above =>
    [GoModule.fileName :: above, Settings.fileName :: above]
  let candidates := (listing.map Discovery.listed).getD [] |>.map fun path =>
    (Discovery.routeTo folder (Discovery.slashed path)).locate here
  trail ++ known ++ candidates

/-- The listing of candidate files, if the command needs one. -/
def readListing (arguments : List String) : IO (Option String) := do
  if Invocation.readsListing arguments then
    return some (← (← IO.getStdin).readToEnd)
  else return none

/-- What the command line sees of the world. -/
def readWorld (arguments : List String) : IO World := do
  let here := (Route.ofString (toString (← IO.currentDir))).locate []
  let listing ← readListing arguments
  let locations := match Invocation.target? arguments with
    | some target => locationsFor here target listing
    | none => []
  let root ← readLocations (.folder []) (here :: locations)
  let now ← Std.Time.Timestamp.now
  return {
    disk := { root, here }, listing, environment := ← IO.getEnv "EMBEDSCAN_NAMESPACE",
    timestamp := Text.utcStamp now.toSecondsSinceUnixEpoch.val.toNat }

end AssetRefs

/-- Runs the command line and gives its exit code. -/
def main (arguments : List String) : IO UInt32 := do
  let shown := AssetRefs.runArguments (← AssetRefs.readWorld arguments) arguments
  IO.print shown.output
  IO.eprint shown.messages
  match shown.ending with
  | .exit code => return UInt32.ofNat code.toNat
  | .crash _ =>
    IO.eprintln "Error: the input could not be processed"
    return 1
