import AssetRefs.Scan.Trace

/-! # Resolution of call sites

A call site is `ns.Open(p)` or `ns.Walk(p, fn)`, where `ns` is the namespace of the scan. The path
`p` may be a literal, a variable defined by a single literal, or a constant declared with one.

Two ways of looking at an expression work together.

* Direct resolution sees a call as a statement, as a value, or as a call site. A call among the
  arguments of a member call is looked at with the member of the outer call.
* Nested resolution sees what is assigned and what is passed to other calls. It looks at member
  calls with their own member, follows names that are called, and descends into every argument.

Following a name resolves the values of its declaration again. Declarations may refer to each other
in a circle, so one that is being followed is not followed again.
-/

namespace AssetRefs

/-- What a scan is told: the file it reports, the package of the file, the name under which the
files are opened, and the package that path texts are relative to. -/
structure ScanContext where
  file : String
  package : String
  spaceName : String := "pkger"
  home : String := package

namespace ScanContext

/-- A problem at the place of a node. -/
def problem (context : ScanContext) (site : Site) (problem : Problem) : Halt :=
  .problem ⟨problem.message, context.file, site.line, site.column⟩

/-- The path that a literal denotes. A text that starts with a colon is relative to the package of
the file. -/
def pathOf (context : ScanContext) (raw : String) : Except GoString.Fault AssetPath :=
  match GoString.unquote raw with
  | .error fault => .error fault
  | .ok text =>
    match AssetPath.parse context.home text with
    | .error error => .error (.path error)
    | .ok path =>
      .ok (if text.toList.head? = some ':' then { path with pkg := context.package } else path)

/-- Registers the path that a literal denotes, as found at a node. -/
def addPath (context : ScanContext) (raw : String) (site : Site) : Trace AssetPath :=
  match context.pathOf raw with
  | .ok path => (Trace.register ⟨path, site.line⟩).andThen fun _ => .done path
  | .error (.path error) => .halt (context.problem site (.path error))
  | .error .hexDigitsMissing => .halt .malformedLiteral

end ScanContext

/-- The text of a list that holds a literal and nothing else. -/
def onlyLiteral? : List Node → Option String
  | [.literal _ text] => some text
  | _ => none

/-- Whether a name has a readable value, and which: a variable that was defined, or a constant. -/
def valueOf? (context : ScanContext) (binding : Option Binding) (site : Site) (name : String) :
    Option (Except Halt String) :=
  match binding with
  | some (.declaration _ (.assignment _ _ right true)) =>
    some <| match onlyLiteral? right with
      | some text => .ok text
      | none => .error (context.problem site (.variableValue name))
  | some (.declaration _ (.valueSpec _ _ _ values true)) =>
    some <| match onlyLiteral? values with
      | some text => .ok text
      | none => .error (context.problem site (.constantValue name))
  | _ => none

/-- The two members that open files. -/
inductive Member where
  | open
  | walk
deriving DecidableEq, Repr

/-- The member that a callee selects from the namespace of the scan. -/
def memberOf? (context : ScanContext) : Node → Option Member
  | .selector _ (.ident _ name _) member =>
    if name = context.spaceName then
      if member = "Open" then some .open else if member = "Walk" then some .walk else none
    else none
  | _ => none

/-- Whether a node is a call. -/
def Node.isCall : Node → Bool
  | .call .. => true
  | _ => false

/-- Whether a callee is a member of something. -/
def Node.isSelector : Node → Bool
  | .selector .. => true
  | _ => false

section

variable (context : ScanContext) (table : BindingTable) (follow : Nat → Trace Unit)

/-- The source text of the literal that an expression other than a call denotes, if it is known. -/
def plainValue : Node → Trace (Option String)
  | .ident site name offset =>
    match valueOf? context (table.find? offset) site name with
    | some (.ok raw) => .done (some raw)
    | some (.error reason) => .halt reason
    | none => (follow offset).andThen fun _ => .done none
  | .literal _ text => .done (some text)
  | node => .halt (context.problem node.site (.unhandled node.site.kind))

/-- The first argument of `Walk`, if it is no call. -/
def walkArgument (node : Node) : Trace Unit :=
  (plainValue context table follow node).andThen fun
    | some raw => (context.addPath raw node.site).andThen fun _ => .done ()
    | none => .done ()

/-- The first argument of `Open`, if it is no call. A name is followed even if its own value cannot
be read; that is reported afterwards. -/
def openArgument : Node → Trace Unit
  | .ident site name offset =>
    match valueOf? context (table.find? offset) site name with
    | none => follow offset
    | some (.error reason) => (follow offset).andThen fun _ => .halt reason
    | some (.ok raw) => (context.addPath raw site).deferring fun _ => follow offset
  | .literal site text => (context.addPath text site).andThen fun _ => .done ()
  | _ => .done ()

mutual

/-- Direct resolution of an expression. -/
def resolveDirect : Node → Trace Unit
  | .call site callee arguments =>
    (resolveArguments callee arguments).andThen fun borrowed =>
      if borrowed then .done () else recognize (memberOf? context callee) site arguments
  | .keyed _ _ value => resolveDirect value
  | _ => .done ()
termination_by structural node => node

/-- Resolves the arguments of a call seen directly, up to a call that borrows the member of the
callee; tells whether there was one. -/
def resolveArguments (callee : Node) : List Node → Trace Bool
  | [] => .done false
  | node :: rest =>
    if node.isCall && !callee.isSelector then
      (resolveNested node).andThen fun _ => resolveArguments callee rest
    else match node with
    | .call site _ arguments =>
      (recognize (memberOf? context callee) site arguments).andThen fun _ => .done true
    | .composite _ _ elements =>
      (resolveAllDirect elements).andThen fun _ => resolveArguments callee rest
    | _ => resolveArguments callee rest
termination_by structural nodes => nodes

/-- Direct resolution of several expressions. -/
def resolveAllDirect : List Node → Trace Unit
  | [] => .done ()
  | node :: rest => (resolveDirect node).andThen fun _ => resolveAllDirect rest
termination_by structural nodes => nodes

/-- Nested resolution of an expression. -/
def resolveNested : Node → Trace Unit
  | .composite _ _ elements => resolveAllDirect elements
  | .call site callee arguments =>
    (match callee with
      | .selector .. => recognize (memberOf? context callee) site arguments
      | .ident _ _ offset => follow offset
      | _ => .done ()).andThen fun _ => resolveAllNested arguments
  | _ => .done ()
termination_by structural node => node

/-- Nested resolution of several expressions. -/
def resolveAllNested : List Node → Trace Unit
  | [] => .done ()
  | node :: rest => (resolveNested node).andThen fun _ => resolveAllNested rest
termination_by structural nodes => nodes

/-- Looks at the arguments of a call as those of a call site, if the member is one of the two. Of
the arguments of `Open` only the first matters. -/
def recognize (member : Option Member) (site : Site) : List Node → Trace Unit
  | [] =>
    match member with
    | some .walk => .halt (context.problem site .walkArity)
    | _ => .done ()
  | first :: rest =>
    match member with
    | none => .done ()
    | some .walk =>
      if rest.length ≠ 1 then .halt (context.problem site .walkArity)
      else if first.isCall then resolveDirect first
      else walkArgument context table follow first
    | some .open =>
      if first.isCall then resolveDirect first else openArgument context table follow first
termination_by structural nodes => nodes

end

/-- The source text of the literal that an expression denotes, if that is known. -/
def literalValue (node : Node) : Trace (Option String) :=
  if node.isCall then (resolveDirect context table follow node).andThen fun _ => .done none
  else plainValue context table follow node

/-- Resolves the values of a declaration. -/
def resolveDeclaration : Declaration → Trace Unit
  | .assignment _ _ right _ => resolveAllNested context table follow right
  | .valueSpec _ _ _ values _ => resolveAllDirect context table follow values

/-- Resolves a statement of a function. -/
def resolveStatement : Node → Trace Unit
  | .statement _ expression => resolveDirect context table follow expression
  | .assignment _ _ right _ => resolveAllNested context table follow right
  | _ => .done ()

/-- Resolves several statements. -/
def resolveStatements : List Node → Trace Unit
  | [] => .done ()
  | node :: rest =>
    (resolveStatement context table follow node).andThen fun _ => resolveStatements rest

mutual

/-- Resolves a node of the tree by what it is. -/
def classify : Node → Trace Unit
  | .call site callee arguments =>
    resolveDirect context table follow (.call site callee arguments)
  | .ident _ _ offset => follow offset
  | .group _ specs => classifyAll specs
  | .function _ _ _ (some body) => resolveStatements context table follow body
  | .valueSpec _ _ _ values _ => resolveAllDirect context table follow values
  | _ => .done ()
termination_by structural node => node

/-- Resolves several nodes by what they are. -/
def classifyAll : List Node → Trace Unit
  | [] => .done ()
  | node :: rest => (classify node).andThen fun _ => classifyAll rest
termination_by structural nodes => nodes

end

end

/-- Resolves again the values of the declaration that the name at an offset refers to, unless that
declaration is being followed. At most `rounds` declarations are followed inside one another. -/
def followName (context : ScanContext) (table : BindingTable) :
    (rounds : Nat) → (offset : Nat) → Trace Unit
  | 0, _ => .done ()
  | rounds + 1, offset =>
    match table.find? offset with
    | some (.declaration place declaration) =>
      .following place
        (resolveDeclaration context table (followName context table rounds) declaration)
    | _ => .done ()

/-- Follows a name. There are no more declarations to follow inside one another than the table has
entries. -/
def followFresh (context : ScanContext) (table : BindingTable) : Nat → Trace Unit :=
  followName context table (table.size + 1)

end AssetRefs
