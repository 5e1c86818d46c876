import AssetRefs.Syntax.Node
import Std.Data.TreeMap

/-! # Names and their declarations

Lowering a file tells, in order, where scopes open and close and which names are declared and used.
Replaying these events gives the binding table: for the byte offset of a name, the declaration it
refers to. A name belongs to the innermost open scope that has it. A use that no open scope can
answer waits for the end of the file, when the package scope is complete.
-/

namespace AssetRefs

/-- The place of a node in a lowered tree: child positions, the innermost first. -/
abbrev Address := List Nat

/-- A declaration that gives values to names. -/
inductive Declaration where
  | assignment (site : Site) (left right : List Node) (defines : Bool)
  | valueSpec (site : Site) (names : List Node) (type : Option Node) (values : List Node)
      (constant : Bool)
deriving Repr

/-- The node of a declaration. -/
def Declaration.node : Declaration → Node
  | assignment site left right defines => .assignment site left right defines
  | valueSpec site names type values constant => .valueSpec site names type values constant

/-- A way to declare a name that gives it no value to look at. -/
inductive Marker where
  | func
  | param
  | range
  | receive
  | typeSwitch
deriving DecidableEq, Repr

/-- The word for a marker. -/
def Marker.word : Marker → String
  | func => "func"
  | param => "param"
  | range => "range"
  | receive => "receive"
  | typeSwitch => "type_switch"

/-- What a name refers to. -/
inductive Binding where
  | marker (marker : Marker)
  /-- A declaration and its place in the lowered tree. -/
  | declaration (place : Address) (declaration : Declaration)
deriving Repr

/-- What happens to names while a file is lowered. -/
inductive ScopeEvent where
  | opened
  | closed
  | declared (name : String) (offset : Nat) (target : Binding)
  | used (name : String) (offset : Nat)
  /-- The file says which package it belongs to. -/
  | package (name : String)
deriving Repr

/-- The names of one scope, the latest first. -/
abbrev Scope := List (String × Binding)

/-- What a scope has under a name. -/
def Scope.find? (scope : Scope) (name : String) : Option Binding := scope.lookup name

/-- What a table keeps for a name. -/
inductive Reference where
  | marker (marker : Marker)
  /-- The declaration at a place of the lowered tree. -/
  | declaration (place : Address)
deriving Repr

/-- What names refer to, by byte offset. Names that refer to one place refer to one declaration. -/
structure BindingTable where
  references : Std.TreeMap Nat Reference
  /-- The declarations by their places. -/
  declarations : Std.TreeMap Address Declaration

namespace BindingTable

/-- The table without entries. -/
def empty : BindingTable := ⟨∅, ∅⟩

/-- What a reference stands for. -/
def target? (table : BindingTable) : Reference → Option Binding
  | .marker marker => some (.marker marker)
  | .declaration place => table.declarations[place]?.map (.declaration place)

/-- What the name at an offset refers to. -/
def find? (table : BindingTable) (offset : Nat) : Option Binding :=
  table.references[offset]?.bind table.target?

/-- Sets what the name at an offset refers to. -/
def insert (table : BindingTable) (offset : Nat) : Binding → BindingTable
  | .marker marker => { table with references := table.references.insert offset (.marker marker) }
  | .declaration place declaration =>
    { references := table.references.insert offset (.declaration place)
      declarations := table.declarations.insertIfNew place declaration }

/-- The entries in the order of their offsets. -/
def toList (table : BindingTable) : List (Nat × Binding) :=
  table.references.toList.filterMap fun (offset, reference) =>
    (table.target? reference).map (offset, ·)

/-- The number of entries. -/
def size (table : BindingTable) : Nat := table.references.size

end BindingTable

/-- The names known at some point of a file. -/
structure NameState where
  /-- The open scopes, the innermost first. -/
  locals : List Scope := []
  /-- The names declared outside all scopes. -/
  package : Scope := []
  bindings : BindingTable := .empty
  /-- Uses that wait for the end of the file, the latest first. -/
  waiting : List (Nat × String) := []
  packageName : Option String := none

namespace NameState

/-- Declares a name in the innermost scope. A name that the scope has keeps its first declaration,
and `_` declares nothing. -/
def declare (state : NameState) (name : String) (offset : Nat) (target : Binding) : NameState :=
  if name = "_" then state
  else match state.locals with
    | [] =>
      match state.package.find? name with
      | some first => { state with bindings := state.bindings.insert offset first }
      | none =>
        { state with
          package := (name, target) :: state.package
          bindings := state.bindings.insert offset target }
    | scope :: outer =>
      match scope.find? name with
      | some first => { state with bindings := state.bindings.insert offset first }
      | none =>
        { state with
          locals := ((name, target) :: scope) :: outer
          bindings := state.bindings.insert offset target }

/-- Looks a used name up in the open scopes, from the innermost outwards. -/
def use (state : NameState) (name : String) (offset : Nat) : NameState :=
  match state.locals.findSome? (·.find? name) with
  | some target => { state with bindings := state.bindings.insert offset target }
  | none => { state with waiting := (offset, name) :: state.waiting }

/-- The state after one event. -/
def step (state : NameState) : ScopeEvent → NameState
  | .opened => { state with locals := [] :: state.locals }
  | .closed => { state with locals := state.locals.tail }
  | .declared name offset target => state.declare name offset target
  | .used name offset => state.use name offset
  | .package name => { state with packageName := some name }

/-- The state after a sequence of events. -/
def replay (state : NameState) (events : List ScopeEvent) : NameState := events.foldl step state

/-- The table at the end of the file: waiting uses are answered by the package scope. -/
def finish (state : NameState) : BindingTable :=
  state.waiting.reverse.foldl (fun table entry =>
    match state.package.find? entry.2 with
    | some target => table.insert entry.1 target
    | none => table) state.bindings

end NameState

/-- A lowered file with its binding table. -/
structure SyntaxTree where
  path : String
  root : Node
  package : Option String
  bindings : BindingTable

end AssetRefs
