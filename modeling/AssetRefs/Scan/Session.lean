import AssetRefs.Scan.Error
import AssetRefs.Syntax.Scope

/-! # Scan sessions

A session is what a scan carries along from node to node: the set of paths found, the log of errors
without repeats, and the declarations that are being followed at the moment.
-/

namespace AssetRefs

/-- A path found at a line. -/
structure Registration where
  path : AssetPath
  line : Nat
deriving DecidableEq, Repr

/-- One line of the record of a session. -/
inductive ScanNote where
  /-- A path was found for the first time. -/
  | found (line : Nat) (path : AssetPath)
  /-- An error was logged. -/
  | logged (error : ScanError)
deriving DecidableEq, Repr

/-- What a session has collected. -/
structure Session where
  /-- The paths found, in increasing order. -/
  found : List AssetPath := []
  /-- The errors logged, in order. -/
  errors : List ScanError := []
  /-- The keys of the errors logged, the latest first. -/
  seen : List ErrorKey := []
  /-- The places of the declarations being followed, the innermost first. -/
  active : List Address := []
  /-- A run takes place at most once. -/
  used : Bool := false
  /-- The record, the latest note first. -/
  notes : List ScanNote := []

namespace Session

/-- The session while other declarations are being followed. -/
def withActive (session : Session) (active : List Address) : Session := { session with active }

/-- Adds a path, unless it is there. -/
def register (session : Session) (entry : Registration) : Session :=
  if session.found.contains entry.path then session
  else { session with
    found := AssetPath.insert entry.path session.found
    notes := .found entry.line entry.path :: session.notes }

/-- Logs an error, unless one with its key is logged. -/
def log (session : Session) (error : ScanError) : Session :=
  if session.seen.contains error.key then session
  else { session with
    errors := session.errors ++ [error]
    seen := error.key :: session.seen
    notes := .logged error :: session.notes }

end Session

end AssetRefs
