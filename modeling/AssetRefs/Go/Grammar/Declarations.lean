import AssetRefs.Go.Production

/-! # Grammar of declarations

A source file is a sequence of declarations and statements, each with a terminator after it.
-/

namespace AssetRefs.Go

open Item

/-- Whether the receiver of a method starts here, and not a function literal: after the parentheses
come a name and parameters. -/
def receiverAhead (ahead : List Token) : Bool :=
  let after := afterGroup 0 ahead
  nameAt after 0 && markAt after 1 "("

/-- Whether a comma or `|` stands in the brackets, at the given depth of further brackets. -/
def separatorAhead : (depth : Nat) → List Token → Bool
  | _, [] => false
  | depth, token :: rest =>
    match token.kind with
    | .mark text =>
      if ["(", "[", "\x7b"].contains text then separatorAhead (depth + 1) rest
      else if [")", "]", "\x7d"].contains text then
        if depth ≤ 1 then false else separatorAhead (depth - 1) rest
      else if depth = 1 && [",", "|"].contains text then true
      else separatorAhead depth rest
    | _ => separatorAhead depth rest

/-- Whether the bracket after the name of a declared type starts type parameters, and not the
length of an array. -/
def typeParametersAhead (ahead : List Token) : Bool :=
  markAt ahead 0 "[" && nameAt ahead 1 &&
    match kindAt ahead 2 with
    | .word _ => true
    | .mark "[" => !markAt (afterGroup 0 (ahead.drop 2)) 0 "]"
    | .mark "*" | .mark "(" => separatorAhead 0 ahead
    | .mark text => [",", "~", "interface", "func", "map", "chan", "struct", "<-"].contains text
    | _ => false

/-- The node kind of a declaration. -/
def DeclarationKind.nodeKind : DeclarationKind → String
  | .constants => "const_declaration"
  | .variables => "var_declaration"
  | .types => "type_declaration"
  | .imports => "import_declaration"

/-- The keyword of a declaration. -/
def DeclarationKind.keyword : DeclarationKind → String
  | .constants => "const"
  | .variables => "var"
  | .types => "type"
  | .imports => "import"

/-- The items of specifications between parentheses; those of some declarations are a node. -/
def groupItems (kind : DeclarationKind) : List Item :=
  let specs := [mark "(", decl (.specs kind), mark ")"]
  match kind with
  | .variables => node "var_spec_list" none specs
  | .imports => node "import_spec_list" none specs
  | .constants | .types => specs

/-- The items of one specification. -/
def specItems : DeclarationKind → List Item
  | .constants =>
    node "const_spec" none
      [name "identifier" (some "name"), decl (.moreNames true), decl .constantValue]
  | .variables =>
    node "var_spec" none
      [name "identifier" (some "name"), decl (.moreNames false), decl .variableValue]
  | .types => [enter, name "type_identifier" (some "name"), decl .declaredTypeParameters,
    decl .typeDefinition]
  | .imports => node "import_spec" none [decl .importName, stringLiteral (some "path")]

/-- The items of a function declaration. -/
def functionItems : List Item :=
  node "function_declaration" none
    [mark "func", name "identifier" (some "name"), decl .functionTypeParameters,
      ty (.parameters "parameters"), ty (.result .statement), decl .functionBody]

/-- The items of a method declaration. -/
def methodItems : List Item :=
  node "method_declaration" none
    [mark "func", ty (.parameters "receiver"), name "field_identifier" (some "name"),
      ty (.parameters "parameters"), ty (.result .statement), decl .functionBody]

/-- The items of a declaration or statement at top level. -/
def topLevelItems (ahead : List Token) : List Item :=
  match kindAt ahead 0 with
  | .mark "package" =>
    node "package_clause" none [mark "package", name "package_identifier" none]
  | .mark "import" => [decl (.declaration .imports)]
  | .mark "func" =>
    if nameAt ahead 1 then functionItems
    else if receiverAhead (ahead.drop 1) then methodItems
    else [st .whole]
  | _ => [st .whole]

/-- The values of a specification. -/
def valueItems : List Item := [mark "=", ex (.list .statement (some "value"))]

/-- The items of a rule for declarations. -/
def DeclarationRule.items (ahead : List Token) : DeclarationRule → Option (List Item)
  | .file =>
    if kindAt ahead 0 == .ending then some []
    else some (topLevelItems ahead ++ [terminator, decl .file])
  | .functionTypeParameters =>
    if markAt ahead 0 "[" then some [ty .typeParameters] else some []
  | .declaredTypeParameters =>
    if typeParametersAhead ahead then some [ty .typeParameters] else some []
  | .functionBody =>
    if continuing .statement ahead == .mark "\x7b" then some [st (.block (some "body"))]
    else some []
  | .declaration kind =>
    some (node kind.nodeKind none (mark kind.keyword ::
      if markAt ahead 1 "(" then groupItems kind else [decl (.spec kind)]))
  | .specs kind =>
    if markAt ahead 0 ")" then some [] else some [decl (.spec kind), decl (.moreSpecs kind)]
  | .moreSpecs kind =>
    if breakAt ahead 0 || markAt ahead 0 ";" then some [terminator, decl (.specs kind)]
    else some []
  | .spec kind => some (specItems kind)
  | .moreNames breaks =>
    if !(breaks && breakAt ahead 0) && markAt ahead 0 "," then
      some [mark ",", name "identifier" (some "name"), decl (.moreNames breaks)]
    else some []
  | .constantValue =>
    let next := continuing .statement ahead
    if next == .mark "=" then some valueItems
    else if startsPlainType next || next == .mark "(" then
      some (typeIn .statement "type" ++ valueItems)
    else some []
  | .variableValue =>
    if markAt ahead 0 "=" then some valueItems
    else some (typeIn .statement "type" ++ [decl .moreVariable])
  | .moreVariable =>
    if continuing .statement ahead == .mark "=" then some valueItems else some []
  | .typeDefinition =>
    if markAt ahead 0 "=" then
      some (mark "=" :: typeIn .statement "type" ++ [close "type_alias"])
    else some (typeIn .statement "type" ++ [close "type_spec"])
  | .importName =>
    match kindAt ahead 0 with
    | .mark "." => some [markAs "." "dot" (some "name")]
    | .word "_" => some [name "blank_identifier" (some "name")]
    | .word _ => some [name "package_identifier" (some "name")]
    | _ => some []

end AssetRefs.Go
