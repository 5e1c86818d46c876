import AssetRefs.Syntax.Shape

/-! # Lowering

Lowering turns a concrete tree into a lowered one and tells what happens to names on the way. Nodes
with a shape are lowered one inside the other down to a limit of nesting. Runs of shapeless nodes
(operators, parentheses, types) are lowered with an explicit stack, so they may be nested to any
depth.
-/

namespace AssetRefs

/-- Why a concrete tree has no lowered form. -/
inductive LowerError where
  /-- Nodes with a shape are nested beyond the limit. -/
  | tooDeep
  /-- A node lacks a child that its shape needs. -/
  | childMissing
  /-- A keyed element has no parts. -/
  | keyMissing
deriving DecidableEq, Repr

/-- A step of the lowering: a result and the scope events on the way to it, or an error. -/
def Lowering (α : Type) : Type := Except LowerError (α × List ScopeEvent)

namespace Lowering

instance : Monad Lowering where
  pure value := .ok (value, [])
  bind step next :=
    match step with
    | .error error => .error error
    | .ok (value, first) =>
      match next value with
      | .error error => .error error
      | .ok (result, second) => .ok (result, first ++ second)

/-- Tells one event. -/
def emit (event : ScopeEvent) : Lowering Unit := .ok ((), [event])

/-- Tells an event if a condition holds. -/
def emitIf (condition : Bool) (event : ScopeEvent) : Lowering Unit :=
  if condition then emit event else pure ()

/-- Stops with an error. -/
def fail {α : Type} (error : LowerError) : Lowering α := .error error

/-- A child that the shape needs. -/
def required : Option Concrete → Lowering Concrete
  | some child => pure child
  | none => fail .childMissing

end Lowering

open Lowering

/-- Where a lowered node came from. -/
def Concrete.site (tree : Concrete) : Site :=
  ⟨tree.kind, tree.label.row + 1, tree.label.column + 1⟩

/-- The name that a concrete node spells. -/
def Concrete.identNode (source : ByteArray) (tree : Concrete) : Node :=
  .ident tree.site (tree.text source) tree.label.start

/-- Declares a lowered node if it is a name. -/
def declareNode (target : Binding) : Node → Lowering Unit
  | .ident _ name offset => emit (.declared name offset target)
  | _ => pure ()

/-- Lowers trees in order; the first becomes the child at position `first` of the node at
`place`. -/
def lowerAll (lower : Address → Concrete → Lowering Node) (place : Address) :
    (first : Nat) → List Concrete → Lowering (List Node)
  | _, [] => pure []
  | first, tree :: rest => do
    let node ← lower (first :: place) tree
    let nodes ← lowerAll lower place (first + 1) rest
    return node :: nodes

/-- Lowers a tree that may be absent. -/
def lowerOption (lower : Address → Concrete → Lowering Node) (place : Address) :
    Option Concrete → Lowering (Option Node)
  | none => pure none
  | some tree => do
    let node ← lower place tree
    return some node

/-- A shapeless node whose parts are being lowered. -/
structure Frame where
  site : Site
  place : Address
  hasScope : Bool
  /-- The parts still to be lowered. -/
  pending : List Concrete
  /-- The lowered parts, the latest first. -/
  done : List Node := []
  /-- The number of parts taken up. -/
  taken : Nat := 0

namespace Frame

/-- The frame of a node of which nothing is lowered yet. -/
def enter (place : Address) (tree : Concrete) : Frame :=
  { site := tree.site, place, hasScope := tree.opensScope, pending := tree.parts }

/-- The node of a frame whose parts are all lowered. -/
def node (frame : Frame) : Node := .generic frame.site frame.done.reverse

/-- What is left to do in a frame. -/
def weight (frame : Frame) : Nat := 1 + Concrete.weights frame.pending

/-- What is left to do in a stack of frames. -/
def weights : List Frame → Nat
  | [] => 0
  | frame :: stack => frame.weight + weights stack

theorem weight_enter_lt (place : Address) (tree : Concrete) :
    (enter place tree).weight < tree.weight := by
  have bound := tree.weights_parts_lt
  simp only [weight, enter]
  omega

end Frame

/-- Lowers what is left in a frame and in the frames around it. A shapeless part gets a frame of
its own on top of the stack; every other part is left to `lower`. -/
def lowerFrames (lower : Address → Concrete → Lowering Node) (frame : Frame)
    (stack : List Frame) : Lowering Node :=
  match _pending : frame.pending with
  | part :: rest =>
    if part.isShapeless then do
      emitIf part.opensScope .opened
      lowerFrames lower (.enter (frame.taken :: frame.place) part)
        ({ frame with pending := rest, taken := frame.taken + 1 } :: stack)
    else do
      let node ← lower (frame.taken :: frame.place) part
      lowerFrames lower
        { frame with pending := rest, taken := frame.taken + 1, done := node :: frame.done } stack
  | [] => do
    emitIf frame.hasScope .closed
    match stack with
    | [] => pure frame.node
    | parent :: rest => lowerFrames lower { parent with done := frame.node :: parent.done } rest
termination_by frame.weight + Frame.weights stack
decreasing_by
  · have entered := Frame.weight_enter_lt (frame.taken :: frame.place) part
    simp only [Frame.weights, Frame.weight, _pending, Concrete.weights] at *
    omega
  · have positive := part.weight_eq
    simp only [Frame.weight, _pending, Concrete.weights]
    omega
  · simp only [Frame.weights, Frame.weight, _pending, Concrete.weights]
    omega

/-- Lowers a node as one that only carries its parts. -/
def lowerGeneric (lower : Address → Concrete → Lowering Node) (place : Address)
    (tree : Concrete) : Lowering Node := do
  emitIf tree.opensScope .opened
  lowerFrames lower (.enter place tree) []

/-- Lowers the left-hand side of a definition; plain names there are not uses. -/
def lowerTargets (source : ByteArray) (lower : Address → Concrete → Lowering Node)
    (place : Address) : (first : Nat) → List Concrete → Lowering (List Node)
  | _, [] => pure []
  | first, tree :: rest => do
    let node ← if tree.kind = "identifier" then pure (tree.identNode source)
      else lower (first :: place) tree
    let nodes ← lowerTargets source lower place (first + 1) rest
    return node :: nodes

/-- Lowers names and declares each of them at once without a value to look at; what is no plain
name is lowered as it is. -/
def lowerMarked (source : ByteArray) (marker : Marker)
    (lower : Address → Concrete → Lowering Node) (place : Address) :
    (first : Nat) → List Concrete → Lowering (List Node)
  | _, [] => pure []
  | first, tree :: rest => do
    let node ← if tree.kind = "identifier" then do
        emit (.declared (tree.text source) tree.label.start (.marker marker))
        pure (tree.identNode source)
      else lower (first :: place) tree
    let nodes ← lowerMarked source marker lower place (first + 1) rest
    return node :: nodes

/-- Declares parameter names. -/
def lowerParameters (source : ByteArray) : List Concrete → Lowering (List Node)
  | [] => pure []
  | tree :: rest => do
    emit (.declared (tree.text source) tree.label.start (.marker .param))
    let nodes ← lowerParameters source rest
    return tree.identNode source :: nodes

/-- Lowers the parts of a type switch. The bound name is left out where it stands and declared right
after the switched value. -/
def lowerSwitch (source : ByteArray) (bound value : Option Concrete)
    (lower : Address → Concrete → Lowering Node) (place : Address) :
    (first : Nat) → List Concrete → Lowering (List Node)
  | _, [] => pure []
  | first, part :: rest =>
    if bound.any part.sameAs then lowerSwitch source bound value lower place first rest
    else do
      let node ← lower (first :: place) part
      let names ← if value.any part.sameAs then
          lowerMarked source .typeSwitch lower place (first + 1)
            ((bound.map Concrete.listed).getD [])
        else pure []
      let nodes ← lowerSwitch source bound value lower place (first + 1 + names.length) rest
      return node :: names ++ nodes

/-- Lowers the key of a keyed element. A bare name may be a field, so it is not a use. -/
def lowerKey (source : ByteArray) (lower : Address → Concrete → Lowering Node)
    (place : Address) (tree : Concrete) : Lowering Node :=
  let key := tree.unwrapped
  if key.kind = "identifier" || key.kind = "field_identifier" then pure (key.identNode source)
  else lower place key

/-- Lowers a node by its shape, the nodes below it with `lower`. -/
def lowerShape (source : ByteArray) (lower : Address → Concrete → Lowering Node)
    (place : Address) (tree : Concrete) : Lowering Node :=
  match tree.shape with
  | .name => do
    emit (.used (tree.text source) tree.label.start)
    return tree.identNode source
  | .literal => return .literal tree.site (tree.text source)
  | .call callee arguments => do
    let callee ← lower (0 :: place) (← required callee)
    let arguments ← lowerAll lower place 1 arguments
    return .call tree.site callee arguments
  | .selector operand member => do
    let operand ← lower (0 :: place) (← required operand)
    return .selector tree.site operand ((member.map (·.text source)).getD "")
  | .composite type elements => do
    let type ← lowerOption lower (0 :: place) type
    let elements ← lowerAll lower place type.toList.length elements
    return .composite tree.site type elements
  | .wrapper inner => lower place inner
  | .keyed parts =>
    match parts.head?, parts.getLast? with
    | some key, some value => do
      let key ← lowerKey source lower (0 :: place) key
      let value ← lower (1 :: place) value
      return .keyed tree.site key value
    | _, _ => fail .keyMissing
  | .closure => do
    emit .opened
    let node ← lowerGeneric lower place tree
    emit .closed
    return node
  | .statement inner => do
    let expression ← lower (0 :: place) inner
    return .statement tree.site expression
  | .define left right => do
    let targets := (left.map Concrete.listed).getD []
    let right ← lowerAll lower place targets.length ((right.map Concrete.listed).getD [])
    let _ ← required left
    let left ← lowerTargets source lower place 0 targets
    left.forM (declareNode (.declaration place (.assignment tree.site left right true)))
    return .assignment tree.site left right true
  | .assign left right => do
    let left ← lowerAll lower place 0 ((left.map Concrete.listed).getD [])
    let right ← lowerAll lower place left.length ((right.map Concrete.listed).getD [])
    return .assignment tree.site left right false
  | .block statements => do
    emit .opened
    let nodes ← lowerAll lower place 0 statements
    emit .closed
    return .generic tree.site nodes
  | .binder marker left right => do
    let names := (left.map Concrete.listed).getD []
    let right ← lower (names.length :: place) (← required right)
    let left ← lowerMarked source marker lower place 0 names
    return .generic tree.site (left ++ [right])
  | .typeSwitch bound value parts => do
    emit .opened
    let nodes ← lowerSwitch source bound value lower place 0 parts
    emit .closed
    return .generic tree.site nodes
  | .packageClause names => do
    names.forM fun name => emit (.package (name.text source))
    lowerGeneric lower place tree
  | .group specs => do
    let specs ← lowerAll lower place 0 specs
    return .group tree.site specs
  | .valueSpec constant names type value => do
    let type ← lowerOption lower (names.length :: place) type
    let values ← lowerAll lower place (names.length + type.toList.length)
      ((value.map Concrete.listed).getD [])
    let names := names.map (·.identNode source)
    names.forM
      (declareNode (.declaration place (.valueSpec tree.site names type values constant)))
    return .valueSpec tree.site names type values constant
  | .function declares name signature body => do
    match name with
    | some name =>
      emitIf declares (.declared (name.text source) name.label.start (.marker .func))
    | none => pure ()
    emit .opened
    let signature ← lowerAll lower place 0 signature
    let body ← match body with
      | none => pure none
      | some statements => some <$> lowerAll lower place signature.length statements
    emit .closed
    return .function tree.site ((name.map (·.text source)).getD "") signature body
  | .parameter names type => do
    let names ← lowerParameters source names
    let type ← lowerOption lower (names.length :: place) type
    return .generic tree.site (names ++ type.toList)
  | .shapeless => lowerGeneric lower place tree

/-- How many nodes with a shape may be nested. -/
def nestingLimit : Nat := 400

/-- Lowers a tree in which at most `limit` nodes with a shape are nested. -/
def lower (source : ByteArray) : (limit : Nat) → Address → Concrete → Lowering Node
  | 0, _, _ => fail .tooDeep
  | limit + 1, place, tree => lowerShape source (lower source limit) place tree

/-- Lowers a whole file and binds its names. -/
def lowerFile (source : ByteArray) (path : String) (root : Concrete)
    (limit : Nat := nestingLimit) : Except LowerError SyntaxTree :=
  match lower source limit [] root with
  | .error error => .error error
  | .ok (node, events) =>
    let state := NameState.replay {} events
    .ok { path, root := node, package := state.packageName, bindings := state.finish }

end AssetRefs
