import AssetRefs.Go.Parser
import AssetRefs.Syntax.Lowering

/-! # Source files

From the source text of a file, or from its concrete tree, to its lowered tree, or to an error about
the file.
-/

namespace AssetRefs

/-- A source file that could not be read or parsed. -/
structure SourceError where
  path : String
  message : String
  line : Option Int := none
  column : Option Int := none
deriving DecidableEq, Repr

/-- The error with its place; a missing column shows as `None`. -/
def SourceError.render (error : SourceError) : String :=
  match error.line with
  | none => error.path ++ ": " ++ error.message
  | some line =>
    error.path ++ ":" ++ toString line ++ ":" ++ ((error.column.map toString).getD "None") ++
      ": " ++ error.message

/-- Why a file has no lowered tree. -/
inductive LoadError where
  | source (error : SourceError)
  /-- The concrete tree has a node without a part that its kind needs. -/
  | malformed (error : LowerError)
deriving DecidableEq, Repr

/-- The error of a concrete tree with a syntax error. -/
def syntaxErrorAt (path : String) (root : Concrete) : SourceError :=
  let fault := root.faultNode
  { path
    message := if fault.label.missing then "missing " ++ fault.kind else "syntax error"
    line := some (fault.label.row + 1)
    column := some (fault.label.column + 1) }

/-- Lowers the concrete tree of a file, unless it has a syntax error. -/
def loadTree (source : ByteArray) (path : String) (root : Concrete)
    (limit : Nat := nestingLimit) : Except LoadError SyntaxTree :=
  if root.label.erroneous then .error (.source (syntaxErrorAt path root))
  else match lowerFile source path root limit with
    | .ok tree => .ok tree
    | .error .tooDeep =>
      .error (.source ⟨path, "expression nesting too deep", some 1, some 1⟩)
    | .error error => .error (.malformed error)

/-- How sources are read: by which parser, and how many nodes with a shape may be nested. -/
structure SourceReader where
  /-- The concrete tree of a source. One with a syntax error may have a tree that tells where it is,
  or none. -/
  parse : ByteArray → Option Concrete := Go.parse?
  limit : Nat := nestingLimit

/-- Parses and lowers the source of a file. -/
def parseSource (source : ByteArray) (path : String) (reader : SourceReader := {}) :
    Except LoadError SyntaxTree :=
  match reader.parse source with
  | some root => loadTree source path root reader.limit
  | none => .error (.source { path, message := "syntax error" })

end AssetRefs
