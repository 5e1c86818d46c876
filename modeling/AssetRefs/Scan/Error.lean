import AssetRefs.GoString

/-! # Problems at call sites

A problem at one call site is recoverable: it is logged with the place where it occurred, and the
scan goes on. Only a literal whose hexadecimal escape has no digits stops a scan.
-/

namespace AssetRefs

/-- What is wrong at a call site. -/
inductive Problem where
  /-- `Walk` is called with other than two arguments. -/
  | walkArity
  /-- The first argument of `Walk` is a construct that has no readable value. -/
  | unhandled (kind : String)
  /-- The variable was not defined by a single literal. -/
  | variableValue (name : String)
  /-- The constant was not declared with a single literal. -/
  | constantValue (name : String)
  | path (error : PathError)
deriving DecidableEq, Repr

/-- The wording of a problem. -/
def Problem.message : Problem → String
  | walkArity => "\x60Walk\x60 requires two arguments"
  | unhandled kind => "can't handle " ++ kind
  | variableValue name => "unable to find value from variable " ++ name
  | constantValue name => "unable to find value from constant " ++ name
  | path error => error.message

/-- A message about a place in a file. -/
structure ScanError where
  message : String
  file : String := ""
  line : Int := 0
  column : Int := 0
deriving DecidableEq, Repr

/-- What tells errors apart. -/
abbrev ErrorKey := String × String × Int × Int

/-- The message and the place of an error. -/
def ScanError.key (error : ScanError) : ErrorKey :=
  (error.message, error.file, error.line, error.column)

/-- A place as `path`, `path:line` or `path:line:column`. -/
def renderPlace (path : String) (line column : Option Int := none) : String :=
  match line, column with
  | none, _ => path
  | some line, none => path ++ ":" ++ toString line
  | some line, some column => path ++ ":" ++ toString line ++ ":" ++ toString column

/-- The error as a log shows it: with its place, unless there is no file. -/
def ScanError.render (error : ScanError) : String :=
  if error.file.isEmpty then error.message
  else renderPlace error.file error.line error.column ++ ": " ++ error.message

/-- The error as a report shows it, always with its place. -/
def ScanError.report (error : ScanError) : String :=
  renderPlace error.file error.line error.column ++ ": " ++ error.message

/-- Why the resolution of a node stopped. -/
inductive Halt where
  | problem (error : ScanError)
  /-- A literal has `\x` without two hexadecimal digits after it; the scan cannot go on. -/
  | malformedLiteral
deriving DecidableEq, Repr

end AssetRefs
