import AssetRefs.Scan.Resolution

/-! # Runs

A visit resolves one node and logs the error that it meets. A run visits every node of a tree in a
session of its own.
-/

namespace AssetRefs

namespace Session

/-- Takes a resolution into the session; an error of it is not logged. -/
def take {α : Type} (session : Session) (trace : Trace α) : Session × Except Halt α :=
  trace.run session

/-- Takes the visit of a node into the session; an error of it is logged. Fails if the scan cannot
go on. -/
def visit (session : Session) (trace : Trace Unit) : Session × Except Halt Unit :=
  match trace.run session with
  | (session, .ok ()) => (session, .ok ())
  | (session, .error (.problem error)) => (session.log error, .ok ())
  | (session, .error .malformedLiteral) => (session, .error .malformedLiteral)

/-- Takes visits into the session one after the other, as long as the scan can go on. -/
def visitAll (session : Session) : List (Trace Unit) → Session × Except Halt Unit
  | [] => (session, .ok ())
  | trace :: rest =>
    match session.visit trace with
    | (session, .ok ()) => session.visitAll rest
    | stopped => stopped

end Session

/-- What scanning a file gives. -/
structure ScanResult where
  file : String
  package : String
  paths : List AssetPath
  errors : List ScanError
deriving DecidableEq, Repr

/-- Whether there was no error. -/
def ScanResult.ok (result : ScanResult) : Bool := result.errors.isEmpty

/-- What visiting a node of the tree does. -/
def visitTrace (context : ScanContext) (tree : SyntaxTree) (node : Node) : Trace Unit :=
  classify context tree.bindings (followFresh context tree.bindings) node

/-- Why a run gave no result. -/
inductive RunError where
  | halted (reason : Halt)
  /-- The session had its run. -/
  | reused
deriving DecidableEq, Repr

/-- The wording of a refused second run. -/
def RunError.reuseMessage : String := "Scanner instances are single-use"

/-- Visits every node of the tree. A session has one run. -/
def Session.run (session : Session) (context : ScanContext) (tree : SyntaxTree) :
    Session × Except RunError ScanResult :=
  if session.used then (session, .error .reused)
  else
    match { session with used := true }.visitAll (tree.root.walk.map (visitTrace context tree)) with
    | (session, .error reason) => (session, .error (.halted reason))
    | (session, .ok ()) =>
      (session, .ok ⟨context.file, context.package, session.found, session.errors⟩)

/-- Scans a tree in a new session. -/
def scanTree (context : ScanContext) (tree : SyntaxTree) : Except RunError ScanResult :=
  (({} : Session).run context tree).2

end AssetRefs
