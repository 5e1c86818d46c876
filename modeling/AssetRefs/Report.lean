import AssetRefs.Json
import AssetRefs.Scan.Run

/-! # Reports

How results are shown: as JSON in an envelope that describes itself, and as located messages.
-/

namespace AssetRefs

/-- The version of the program. -/
def version : String := "0.1.0"

/-- The members that every envelope has before those of its payload. -/
def envelopeHead (command : String) (summary : List (String × Json)) : List (String × Json) :=
  [("schema", .string "embedscan-envelope-v1"), ("schema_version", .string "1.0.0"),
    ("command", .string command), ("version", .string version), ("summary", .object summary)]

/-- Wraps the output of a command. Members of the payload take precedence over those of the head,
and the time stamp over both. -/
def envelope (timestamp command : String) (summary payload : List (String × Json)) : Json :=
  let members := payload.foldl (fun members entry => Json.setMember entry.1 entry.2 members)
    (envelopeHead command summary)
  .object (Json.setMember "_meta" (.object [("timestamp", .string timestamp)]) members)

/-- An error as JSON. -/
def ScanError.toJson (error : ScanError) : Json :=
  .object [("message", .string error.message), ("file", .string error.file),
    ("line", .number error.line), ("column", .number error.column)]

/-- Paths as a JSON array of their written forms. -/
def pathsToJson (paths : List AssetPath) : Json := .array (paths.map fun p => .string p.render)

/-- The members of a scan result. -/
def ScanResult.members (result : ScanResult) : List (String × Json) :=
  [("file", .string result.file), ("package", .string result.package),
    ("paths", pathsToJson result.paths), ("errors", .array (result.errors.map ScanError.toJson))]

/-- An error that ends a command. -/
inductive CommandError where
  | general (message : String) (code : Int := 1)
  /-- A source file could not be read or parsed. -/
  | parseFailed (message : String)
  /-- The settings or the module file are unusable. -/
  | configFailed (message : String)
  /-- Some call sites could not be resolved, and that was asked to be an error. -/
  | partialResult (message : String := "Some call sites could not be resolved.")
deriving DecidableEq, Repr

namespace CommandError

/-- The exit code of an error. -/
def code : CommandError → Int
  | general _ code => code
  | parseFailed _ => 3
  | configFailed _ => 4
  | partialResult _ => 6

/-- The wording of an error. -/
def message : CommandError → String
  | general message _ | parseFailed message | configFailed message | partialResult message =>
    message

end CommandError

/-- What an exit code means. -/
def describeExit (code : Int) : Option String :=
  if code = 0 then some "success"
  else if code = 1 then some "unexpected error"
  else if code = 2 then some "invalid usage (bad arguments or flags)"
  else if code = 3 then some "source file could not be parsed"
  else if code = 4 then some "invalid configuration or go.mod"
  else if code = 6 then some "partial results (unresolved call sites)"
  else none

end AssetRefs
