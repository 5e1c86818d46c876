import AssetRefs.Go.Production

/-! # Grammar of expressions

Expressions by precedence, and what may follow an operand. A type that is no expression is an
operand only where a conversion or a literal follows it, or where the context takes types.
-/

namespace AssetRefs.Go

open Item

/-- How tightly a binary operator binds. -/
def bindingLevel? : TokenKind → Option Nat
  | .mark text =>
    if text = "||" then some 1
    else if text = "&&" then some 2
    else if ["==", "!=", "<", "<=", ">", ">="].contains text then some 3
    else if ["+", "-", "|", "^"].contains text then some 4
    else if ["*", "/", "%", "<<", ">>", "&", "&^"].contains text then some 5
    else none
  | _ => none

/-- The unary operators. -/
def unaryOperators : List String := ["+", "-", "!", "^", "*", "&", "<-"]

/-- The kinds of types that a literal may follow. -/
def literalTypeKinds : List String :=
  ["map_type", "slice_type", "array_type", "implicit_length_array_type", "struct_type"]

/-- The names with a node kind of their own in expressions. -/
def constantNames : List String := ["nil", "true", "false", "iota"]

/-- The items of a conversion to the type read last. -/
def conversion (context : Context) : List Item :=
  [wrap (some "type"), mark "("] ++ exprIn .enclosed "operand" ++
    [ex .conversionEnd, mark ")", close "type_conversion_expression", ex (.suffixes context)]

/-- The items of a composite literal of the type read last. -/
def composite (context : Context) : List Item :=
  [wrap (some "type"), ex (.literalValue (some "body")), close "composite_literal",
    ex (.suffixes context)]

/-- The items of an operand. -/
def operandItems (ahead : List Token) : Option (List Item) :=
  match kindAt ahead 0 with
  | .literal _ => some [literal]
  | .word text =>
    if ["new", "make"].contains text && markAt ahead 1 "(" then
      some ([name "identifier" none, wrap (some "function")] ++
        node "argument_list" (some "arguments") [mark "(", ex .typedArguments, mark ")"] ++
        [close "call_expression"])
    else if constantNames.contains text then some [name text none]
    else some [name "identifier" none]
  | .mark "(" =>
    some [enter, mark "(", expr .ambiguous, mark ")", leave .parentheses]
  | .mark "[" =>
    if markAt ahead 1 "..." then
      some (node "implicit_length_array_type" none
        ([mark "[", mark "...", mark "]"] ++ typeIn .enclosed "element"))
    else some [type .enclosed]
  | .mark "func" =>
    some [enter, mark "func", ty (.parameters "parameters"), ty (.result .enclosed),
      ex .afterSignature]
  | .mark text =>
    if ["struct", "map", "chan", "interface", "<-", "~"].contains text then some [type .enclosed]
    else none
  | .ending => none

/-- The items that may follow an operand that is an expression. -/
def suffixItems (context : Context) (ahead : List Token) (operand : Concrete) :
    Option (List Item) :=
  let more := ex (.suffixes context)
  match continuing context ahead with
  | .mark "." =>
    if markAt ahead 1 "(" then
      if markAt ahead 2 "type" then some []
      else some ([wrap (some "operand"), mark ".", mark "("] ++ typeIn .enclosed "type" ++
        [mark ")", close "type_assertion_expression", more])
    else some [wrap (some "operand"), mark ".", name "field_identifier" (some "field"),
      close "selector_expression", more]
  | .mark "(" =>
    some (wrap (some "function") ::
      node "argument_list" (some "arguments") [mark "(", ex .arguments, mark ")"] ++
      [leave .call, more])
  | .mark "[" =>
    some [wrap (some "operand"), mark "[", ex .brackets, mark "]", leave .brackets, more]
  | .mark "\x7b" =>
    if context.literals && (typeOf? operand).isSome && operand.kind != "parenthesized_expression"
        && operand.kind != "unary_expression" then
      some (retype :: composite context)
    else some []
  | _ => some []

/-- The items that may follow a type that is no expression. -/
def typeSuffixItems (context : Context) (ahead : List Token) (type : Concrete) :
    Option (List Item) :=
  if markAt ahead 0 "(" then some (conversion context)
  else if markAt ahead 0 "\x7b" && literalTypeKinds.contains type.kind then
    some (composite context)
  else if context.types then some []
  else none

/-- The items of a rule for expressions; `last` is the last node made. -/
def ExpressionRule.items (ahead : List Token) (last : Option Concrete) :
    ExpressionRule → Option (List Item)
  | .whole context => some [ex (.unary context), ex (.operators context 0)]
  | .operators context level =>
    match bindingLevel? (continuing context ahead) with
    | some tighter =>
      if tighter ≤ level then some []
      else if last.any isTypeOnly && !markAt ahead 0 "|" then none
      else some [wrap (some "left"), anyMark (some "operator"), ex (.unary context),
        ex (.operators context tighter), label "right", close "binary_expression",
        ex (.operators context level)]
    | none => some []
  | .unary context =>
    match kindAt ahead 0 with
    | .mark text =>
      if unaryOperators.contains text && !(text == "<-" && markAt ahead 1 "chan") then
        some [enter, anyMark (some "operator"), ex (.unary context), label "operand",
          leave (.unary context)]
      else some [ex .operand, ex (.suffixes context)]
    | _ => some [ex .operand, ex (.suffixes context)]
  | .operand => operandItems ahead
  | .afterSignature =>
    if markAt ahead 0 "\x7b" then some [st (.block (some "body")), close "func_literal"]
    else some [close "function_type"]
  | .suffixes context =>
    match last with
    | none => none
    | some before =>
      if isTypeOnly before then typeSuffixItems context ahead before
      else suffixItems context ahead before
  | .arguments =>
    if markAt ahead 0 ")" then some [] else some [expr .enclosed, ex .afterArgument]
  | .afterArgument =>
    if markAt ahead 0 "..." then
      some [wrap none, mark "...", close "variadic_argument", ex .moreArguments]
    else some [ex .moreArguments]
  | .moreArguments =>
    if markAt ahead 0 "," then some [mark ",", ex .arguments] else some []
  | .typedArguments =>
    if markAt ahead 0 ")" then some [] else some [type .enclosed, ex .moreTypedArguments]
  | .moreTypedArguments =>
    if markAt ahead 0 "," then
      if markAt ahead 1 ")" then some [mark ","]
      else some [mark ",", expr .enclosed, ex .moreTypedArguments]
    else some []
  | .conversionEnd => if markAt ahead 0 "," then some [mark ","] else some []
  | .brackets =>
    if markAt ahead 0 ":" then some [mark ":", ex .sliceEnd]
    else some [expr .ambiguous, ex .afterBracketed]
  | .afterBracketed =>
    if markAt ahead 0 ":" then some [label "start", mark ":", ex .sliceEnd]
    else some [ex .moreBracketed]
  | .moreBracketed =>
    if markAt ahead 0 "," then
      if markAt ahead 1 "]" then some [mark ","]
      else some [mark ",", expr .ambiguous, ex .moreBracketed]
    else some []
  | .sliceEnd =>
    if markAt ahead 0 "]" then some []
    else some (exprIn .enclosed "end" ++ [ex .sliceCapacity])
  | .sliceCapacity =>
    if markAt ahead 0 ":" then some (mark ":" :: exprIn .enclosed "capacity") else some []
  | .literalValue field =>
    some (node "literal_value" field [mark "\x7b", ex .elements, mark "\x7d"])
  | .elements =>
    if markAt ahead 0 "\x7d" then some []
    else if markAt ahead 0 "," then if markAt ahead 1 "\x7d" then some [mark ","] else none
    else some [ex .element, ex .afterElement]
  | .element => some (node "literal_element" none [ex .elementValue])
  | .elementValue =>
    if markAt ahead 0 "\x7b" then some [ex (.literalValue none)] else some [expr .enclosed]
  | .afterElement =>
    if markAt ahead 0 ":" then
      some [wrap (some "key"), mark ":", ex .element, label "value", close "keyed_element",
        ex .moreElements]
    else some [ex .moreElements]
  | .moreElements =>
    if markAt ahead 0 "," then
      if markAt ahead 1 "\x7d" then some [mark ","]
      else some [mark ",", ex .element, ex .afterElement]
    else some []
  | .list context field =>
    some (node "expression_list" field [expr context, ex (.moreListed context)])
  | .moreListed context =>
    if continuing context ahead == .mark "," then
      some [mark ",", expr context, ex (.moreListed context)]
    else some []

end AssetRefs.Go
