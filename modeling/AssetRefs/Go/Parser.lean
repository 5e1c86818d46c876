import AssetRefs.Go.Grammar.Declarations
import AssetRefs.Go.Grammar.Expressions
import AssetRefs.Go.Grammar.Statements
import AssetRefs.Go.Grammar.Types

/-! # Parser for Go

A machine with a stack of items that are still to be done and a stack of open nodes. Each item takes
tokens, changes the open nodes or expands to further items. The parser never backtracks: every rule
decides by the tokens ahead and by the node made last.
-/

namespace AssetRefs.Go

/-! ## Closing nodes -/

/-- The name of a parameter that consists of a single word. -/
def bareName? (tree : Concrete) : Option Concrete :=
  match tree.children with
  | [type] =>
    if tree.kind = "parameter_declaration" && type.kind = "type_identifier" then
      some (relabelled "identifier" (some "name") type)
    else none
  | _ => none

/-- Whether a node is a parameter declaration with a name. -/
def isNamedParameter (tree : Concrete) : Bool :=
  tree.kind == "parameter_declaration" && (tree.child? "name").isSome

/-- Puts a child of a parameter list before the others. A single word right before a named
declaration is one more name of it. -/
def absorbName (tree : Concrete) (rest : List Concrete) : List Concrete :=
  match bareName? tree, rest with
  | some name, comma :: next :: more =>
    if isToken "," comma && isNamedParameter next then
      nodeAround "parameter_declaration" none (name :: comma :: next.children) :: more
    else tree :: rest
  | _, _ => tree :: rest

/-- The node of an operand with brackets. -/
def bracketNode? (children : List Concrete) : Option Concrete :=
  let items := (children.drop 1).filter (·.label.named)
  if children.any (isToken ":") then
    if items.any isTypeOnly then none else some (nodeAround "slice_expression" none children)
  else
    match children with
    | [operand, opening, index, closing] =>
      if isTypeOnly index then
        match typeName? operand with
        | some name =>
          some (nodeAround "type_instantiation_expression" none
            [inField (some "type") name, opening, index, closing])
        | none => none
      else
        some (nodeAround "index_expression" none
          [operand, opening, inField (some "index") index, closing])
    | operand :: rest =>
      let types := rest.map fun tree => if tree.label.named then typeOf? tree else some tree
      match typeName? operand with
      | some name =>
        if types.all Option.isSome then
          some (nodeAround "type_instantiation_expression" none
            (inField (some "type") name :: types.reduceOption))
        else none
      | none => none
    | [] => none

/-- The generic type that a call converts to, if it is a conversion: a callee with brackets that
can be read as a type, and one argument. -/
def convertedType? (callee arguments : Concrete) : Option Concrete :=
  if callee.kind = "index_expression" || callee.kind = "type_instantiation_expression" then
    match arguments.parts with
    | [argument] => if argument.kind = "variadic_argument" then none else typeOf? callee
    | _ => none
  else none

/-- The node of a callee with arguments. -/
def callNode? (children : List Concrete) : Option Concrete :=
  match children with
  | [callee, arguments] =>
    match convertedType? callee arguments with
    | some type =>
      let operands := arguments.children.map fun tree =>
        if tree.label.named then inField (some "operand") tree else tree
      some (nodeAround "type_conversion_expression" none
        (inField (some "type") type :: operands))
    | none => some (nodeAround "call_expression" none children)
  | _ => none

/-- The node of a unary operator and its operand. -/
def unaryNode? (context : Context) (children : List Concrete) : Option Concrete :=
  match children with
  | [operator, operand] =>
    if isTypeOnly operand then
      if context.types && isToken "*" operator then
        some (nodeAround "pointer_type" none (children.map (inField none)))
      else none
    else some (nodeAround "unary_expression" none children)
  | _ => none

/-- The node that the children of an open node become. -/
def Closing.build? (children : List Concrete) : Closing → Option Concrete
  | .node kind field => some (nodeAround kind field children)
  | .unary context => unaryNode? context children
  | .parentheses =>
    if children.any isTypeOnly then some (nodeAround "parenthesized_type" none children)
    else some (nodeAround "parenthesized_expression" none children)
  | .brackets => bracketNode? children
  | .call => callNode? children
  | .parameters field =>
    some (nodeAround "parameter_list" (some field) (children.foldr absorbName []))

/-! ## The machine -/

/-- The state of the parser. -/
structure Parser where
  /-- The tokens not taken yet. -/
  ahead : List Token
  /-- The items still to be done. -/
  control : List Item
  /-- The children of the open nodes, innermost node and last child first. -/
  nodes : List (List Concrete)

namespace Parser

/-- The node of a token. -/
def leaf (token : Token) (kind : String) (named : Bool) (field : Option String) : Concrete :=
  .node { kind, field, start := token.place.offset, stop := token.stop, row := token.place.row,
          column := token.place.column, named } []

/-- The items of a rule. -/
def items (ahead : List Token) (last : Option Concrete) : Rule → Option (List Item)
  | .type rule => rule.items ahead
  | .expression rule => rule.items ahead last
  | .statement rule => rule.items ahead last
  | .declaration rule => rule.items ahead

/-- Takes the next token as a child of the innermost open node. -/
def take (parser : Parser) (child? : Token → Option Concrete) : Option Parser :=
  match parser.ahead, parser.nodes with
  | token :: ahead, inner :: outer =>
    (child? token).map fun child => { parser with ahead, nodes := (child :: inner) :: outer }
  | _, _ => none

/-- Changes the last node made. -/
def changeLast (parser : Parser) (change? : Concrete → Option Concrete) : Option Parser :=
  match parser.nodes with
  | (last :: inner) :: outer =>
    (change? last).map fun last => { parser with nodes := (last :: inner) :: outer }
  | _ => none

/-- Does one item; there is no result at a syntax error. -/
def perform (parser : Parser) : Item → Option Parser
  | .mark text =>
    parser.take fun token =>
      if token.kind = .mark text then some (leaf token text false none) else none
  | .anyMark field =>
    parser.take fun token =>
      match token.kind with
      | .mark text => some (leaf token text false field)
      | _ => none
  | .markAs text kind field =>
    parser.take fun token =>
      if token.kind = .mark text then some (leaf token kind true field) else none
  | .name kind field =>
    parser.take fun token =>
      match token.kind with
      | .word _ => some (leaf token kind true field)
      | _ => none
  | .literal =>
    parser.take fun token =>
      match token.kind with
      | .literal kind => some (leaf token kind true none)
      | _ => none
  | .stringLiteral field =>
    parser.take fun token =>
      match token.kind with
      | .literal kind =>
        if stringKinds.contains kind then some (leaf token kind true field) else none
      | _ => none
  | .terminator =>
    match parser.ahead with
    | [] => none
    | token :: ahead =>
      if token.afterBreak then
        some { parser with ahead := { token with afterBreak := false } :: ahead }
      else if token.kind = .mark ";" then some { parser with ahead }
      else if token.kind = .ending then some parser
      else none
  | .enter => some { parser with nodes := [] :: parser.nodes }
  | .wrap field =>
    match parser.nodes with
    | (last :: inner) :: outer =>
      some { parser with nodes := [inField field last] :: inner :: outer }
    | _ => none
  | .leave closing =>
    match parser.nodes with
    | children :: inner :: outer =>
      (closing.build? children.reverse).map fun node =>
        { parser with nodes := (node :: inner) :: outer }
    | _ => none
  | .dissolve =>
    match parser.nodes with
    | children :: inner :: outer => some { parser with nodes := (children ++ inner) :: outer }
    | _ => none
  | .label field => parser.changeLast fun last => some (inField (some field) last)
  | .moveField source target =>
    match parser.nodes with
    | children :: outer =>
      let moved := children.map fun child =>
        if child.label.field = some source then inField (some target) child else child
      some { parser with nodes := moved :: outer }
    | [] => none
  | .retype => parser.changeLast typeOf?
  | .rule rule =>
    (items parser.ahead (parser.nodes.head?.bind List.head?) rule).map fun items =>
      { parser with control := items ++ parser.control }

/-- Does all items, as long as there is fuel; the result is the children of the file. -/
def run : (fuel : Nat) → Parser → Option (List Concrete)
  | 0, _ => none
  | fuel + 1, parser =>
    match parser.control with
    | [] => (parser.nodes.head?).map List.reverse
    | item :: control =>
      match { parser with control }.perform item with
      | some parser => run fuel parser
      | none => none

/-- An upper bound on the number of items between two tokens. -/
def itemsPerToken : Nat := 256

end Parser

/-- Parses a Go source to its concrete tree; there is none if the source has a syntax error. -/
def parse? (source : ByteArray) : Option Concrete :=
  match TokenList.scan source.toList with
  | none => none
  | some list =>
    let parser : Parser := ⟨list.tokens, [Item.decl .file], [[]]⟩
    (parser.run (Parser.itemsPerToken * (list.tokens.length + 1))).map fun children =>
      .node { kind := "source_file", start := list.start.offset, stop := source.size,
              row := list.start.row, column := list.start.column } children

end AssetRefs.Go
