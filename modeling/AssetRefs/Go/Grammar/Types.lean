import AssetRefs.Go.Production

/-! # Grammar of types

Types, the fields of structures, the members of interfaces, parameters, results and type
parameters.
-/

namespace AssetRefs.Go

open Item

/-- Whether the bracket that starts here holds the arguments of a type on its own: after it comes
the end of an entry and no further type. -/
def endsEntry (ahead : List Token) : Bool :=
  let after := afterGroup 0 ahead
  breakAt after 0 || isStringLiteral (kindAt after 0) || kindAt after 0 == .ending ||
    [",", ")", ";", "\x7d"].any (markAt after 0)

/-- The items of a field declaration that names its fields. -/
def namedField : List Item :=
  node "field_declaration" none
    ([name "field_identifier" (some "name"), ty .moreFieldNames] ++ typeIn .statement "type" ++
      [ty .fieldTag])

/-- The items of a field declaration that embeds a type. -/
def embeddedField : List Item :=
  node "field_declaration" none (typeIn .statement "type" ++ [ty .fieldTag])

/-- The items of a parameter without a name. -/
def bareParameter : List Item :=
  node "parameter_declaration" none (typeIn .enclosed "type")

/-- The items of a type. -/
def typeItems (context : Context) (ahead : List Token) : Option (List Item) :=
  match kindAt ahead 0 with
  | .word _ =>
    if markAt ahead 1 "." && !(context.breaks && breakAt ahead 1) && nameAt ahead 2 then
      some (node "qualified_type" none
        [name "package_identifier" (some "package"), mark ".",
          name "type_identifier" (some "name")] ++ [ty (.arguments context)])
    else some [name "type_identifier" none, ty (.arguments context)]
  | .mark "(" => some (node "parenthesized_type" none [mark "(", type .enclosed, mark ")"])
  | .mark "*" => some (node "pointer_type" none [mark "*", type context])
  | .mark "~" => some (node "negated_type" none [mark "~", type context])
  | .mark "[" =>
    if markAt ahead 1 "]" then
      some (node "slice_type" none ([mark "[", mark "]"] ++ typeIn context "element"))
    else if markAt ahead 1 "..." then none
    else
      some (node "array_type" none
        (mark "[" :: exprIn .enclosed "length" ++ [mark "]"] ++ typeIn context "element"))
  | .mark "struct" =>
    some (node "struct_type" none (mark "struct" ::
      node "field_declaration_list" none [mark "\x7b", ty .fields, mark "\x7d"]))
  | .mark "interface" =>
    some (node "interface_type" none [mark "interface", mark "\x7b", ty .members, mark "\x7d"])
  | .mark "map" =>
    some (node "map_type" none ([mark "map", mark "["] ++ typeIn .enclosed "key" ++ [mark "]"] ++
      typeIn context "value"))
  | .mark "chan" =>
    if markAt ahead 1 "<-" then
      some (node "channel_type" none ([mark "chan", mark "<-"] ++ typeIn context "value"))
    else some (node "channel_type" none (mark "chan" :: typeIn context "value"))
  | .mark "<-" =>
    if markAt ahead 1 "chan" then
      some (node "channel_type" none ([mark "<-", mark "chan"] ++ typeIn context "value"))
    else none
  | .mark "func" =>
    some (node "function_type" none
      [mark "func", ty (.parameters "parameters"), ty (.result context)])
  | _ => none

/-- The items of a field declaration. -/
def fieldItems (ahead : List Token) : Option (List Item) :=
  match kindAt ahead 0 with
  | .mark "*" =>
    some (node "field_declaration" none (mark "*" :: typeIn .statement "type" ++ [ty .fieldTag]))
  | .word _ =>
    if breakAt ahead 1 || isStringLiteral (kindAt ahead 1) ||
        [".", ";", "\x7d"].any (markAt ahead 1) then
      some embeddedField
    else if markAt ahead 1 "[" && endsEntry (ahead.drop 1) then some embeddedField
    else some namedField
  | _ => none

/-- The items of a parameter. -/
def parameterItems (ahead : List Token) : List Item :=
  let variadic (names : List Item) :=
    node "variadic_parameter_declaration" none (names ++ mark "..." :: typeIn .enclosed "type")
  let named := name "identifier" (some "name")
  match kindAt ahead 0 with
  | .mark "..." => variadic []
  | .word _ =>
    if markAt ahead 1 "..." then variadic [named]
    else if [".", ",", ")"].any (markAt ahead 1) then bareParameter
    else if markAt ahead 1 "[" && endsEntry (ahead.drop 1) then bareParameter
    else node "parameter_declaration" none (named :: typeIn .enclosed "type")
  | _ => bareParameter

/-- The items of a rule for types. -/
def TypeRule.items (ahead : List Token) : TypeRule → Option (List Item)
  | .whole context => typeItems context ahead
  | .arguments context =>
    if continuing context ahead == .mark "[" then
      some (wrap (some "type") ::
        node "type_arguments" (some "type_arguments") [mark "[", ty .argumentList, mark "]"] ++
        [close "generic_type"])
    else some []
  | .argumentList => some [ty (.union "type_elem" none .enclosed), ty .moreArguments]
  | .moreArguments =>
    if markAt ahead 0 "," then
      if markAt ahead 1 "]" then some [mark ","] else some [mark ",", ty .argumentList]
    else some []
  | .union kind field context =>
    some (node kind field [type context, ty (.moreUnion context)])
  | .moreUnion context =>
    if continuing context ahead == .mark "|" then
      some [mark "|", type context, ty (.moreUnion context)]
    else some []
  | .fields => if markAt ahead 0 "\x7d" then some [] else some [ty .fieldEntry, ty .moreFields]
  | .fieldEntry => fieldItems ahead
  | .moreFieldNames =>
    if markAt ahead 0 "," then
      some [mark ",", name "field_identifier" (some "name"), ty .moreFieldNames]
    else some []
  | .fieldTag =>
    if isStringLiteral (continuing .statement ahead) then some [stringLiteral (some "tag")]
    else some []
  | .moreFields =>
    if breakAt ahead 0 || markAt ahead 0 ";" then some [terminator, ty .fields] else some []
  | .members => if markAt ahead 0 "\x7d" then some [] else some [ty .member, ty .moreMembers]
  | .member =>
    if nameAt ahead 0 && markAt ahead 1 "(" then
      some (node "method_elem" none
        [name "field_identifier" (some "name"), ty (.parameters "parameters"),
          ty (.result .statement)])
    else some [ty (.union "type_elem" none .statement)]
  | .moreMembers =>
    if breakAt ahead 0 || markAt ahead 0 ";" then some [terminator, ty .members] else some []
  | .parameters field =>
    some [enter, mark "(", ty .parameterList, mark ")", leave (.parameters field)]
  | .parameterList =>
    if markAt ahead 0 ")" then some []
    else if markAt ahead 0 "," then if markAt ahead 1 ")" then some [mark ","] else none
    else some [ty .parameter, ty .moreParameters]
  | .parameter => some (parameterItems ahead)
  | .moreParameters =>
    if markAt ahead 0 "," then
      if markAt ahead 1 ")" then some [mark ","]
      else some [mark ",", ty .parameter, ty .moreParameters]
    else some []
  | .result context =>
    let next := continuing context ahead
    if next == .mark "(" then some [ty (.parameters "result")]
    else if next == .mark "<-" && !markAt ahead 1 "chan" then some []
    else if startsPlainType next then some (typeIn context "result")
    else some []
  | .typeParameters =>
    some (node "type_parameter_list" (some "type_parameters")
      [mark "[", ty .typeParameter, mark "]"])
  | .typeParameter =>
    some (node "type_parameter_declaration" none
      [name "identifier" (some "name"), ty .moreTypeParameterNames,
        ty (.union "type_constraint" (some "type") .enclosed)] ++ [ty .moreTypeParameters])
  | .moreTypeParameterNames =>
    if markAt ahead 0 "," then
      some [mark ",", name "identifier" (some "name"), ty .moreTypeParameterNames]
    else some []
  | .moreTypeParameters =>
    if markAt ahead 0 "," then
      if markAt ahead 1 "]" then some [mark ","] else some [mark ",", ty .typeParameter]
    else some []

end AssetRefs.Go
