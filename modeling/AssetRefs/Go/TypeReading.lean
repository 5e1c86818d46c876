import AssetRefs.Concrete

/-! # Expressions read as types

Some texts can be read as an expression and as a type, such as `a.b`, `*p` and `x[i]`. They are
parsed as expressions first; these functions give the type that the same text spells.
-/

namespace AssetRefs.Go

/-- The kinds of types that are no expressions. -/
def typeKinds : List String :=
  ["type_identifier", "qualified_type", "generic_type", "slice_type", "array_type",
    "implicit_length_array_type", "map_type", "channel_type", "function_type", "struct_type",
    "interface_type", "pointer_type", "parenthesized_type", "negated_type"]

/-- Whether a node can only be a type. -/
def isTypeOnly (tree : Concrete) : Bool := typeKinds.contains tree.kind

/-- Whether a node is the given token. -/
def isToken (text : String) (tree : Concrete) : Bool := !tree.label.named && tree.kind == text

/-- The node in another field. -/
def inField (field : Option String) : Concrete → Concrete
  | .node label children => .node { label with field } children

/-- The node with another kind and field. -/
def relabelled (kind : String) (field : Option String) : Concrete → Concrete
  | .node label children => .node { label with kind, field } children

/-- A node around children, with the extent of these. -/
def nodeAround (kind : String) (field : Option String) (children : List Concrete) : Concrete :=
  let first := ((children.head?).map Concrete.label).getD default
  let stop := ((children.getLast?).map fun child => child.label.stop).getD first.stop
  .node { kind, field, start := first.start, stop, row := first.row, column := first.column }
    children

/-- Reads a name, or a member of a name, as the name of a type. -/
def typeName? (tree : Concrete) : Option Concrete :=
  match tree.children with
  | [] => if tree.kind = "identifier" then some (relabelled "type_identifier" none tree) else none
  | [operand, dot, member] =>
    if tree.kind = "selector_expression" && operand.kind = "identifier" then
      some (nodeAround "qualified_type" none
        [relabelled "package_identifier" (some "package") operand, dot,
          relabelled "type_identifier" (some "name") member])
    else none
  | _ => none

/-- The name before type arguments, which may have been read as a type already. -/
def genericName? (tree : Concrete) : Option Concrete :=
  if isTypeOnly tree then some tree else typeName? tree

mutual

/-- Reads an expression as a union of types, with the marks between them. -/
def union? : Concrete → Option (List Concrete)
  | .node label children =>
    if typeKinds.contains label.kind then some [.node { label with field := none } children]
    else match children with
      | [] => (typeName? (.node label [])).map ([·])
      | [mark, operand] =>
        if label.kind = "unary_expression" && isToken "*" mark then
          match union? operand with
          | some [type] => some [nodeAround "pointer_type" none [inField none mark, type]]
          | _ => none
        else none
      | [first, second, third] =>
        if label.kind = "binary_expression" && isToken "|" second then
          match union? first, union? third with
          | some types, some [type] => some (types ++ [inField none second, type])
          | _, _ => none
        else if label.kind = "parenthesized_expression" then
          match union? second with
          | some [type] => some [nodeAround "parenthesized_type" none [first, type, third]]
          | _ => none
        else (typeName? (.node label [first, second, third])).map ([·])
      | name :: rest =>
        if label.kind = "index_expression" || label.kind = "type_instantiation_expression" then
          match genericName? name, typeArguments? rest with
          | some name, some arguments =>
            some [nodeAround "generic_type" none
              [inField (some "type") name,
                nodeAround "type_arguments" (some "type_arguments") arguments]]
          | _, _ => none
        else none

/-- Reads the expressions between brackets as type arguments; tokens stay as they are. -/
def typeArguments? : List Concrete → Option (List Concrete)
  | [] => some []
  | tree :: rest =>
    if tree.label.named then
      match union? tree, typeArguments? rest with
      | some types, some more => some (nodeAround "type_elem" none types :: more)
      | _, _ => none
    else (typeArguments? rest).map (tree :: ·)

end

/-- Reads an expression as a type. -/
def typeOf? (tree : Concrete) : Option Concrete :=
  match union? tree with
  | some [type] => some type
  | _ => none

end AssetRefs.Go
