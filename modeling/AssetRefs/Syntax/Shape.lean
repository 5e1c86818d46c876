import AssetRefs.Concrete
import AssetRefs.Syntax.Scope

/-! # Shapes of concrete nodes

What the lowering reads off one concrete node: which of its children matter, and in which role. All
knowledge of node kinds and field names is here.
-/

namespace AssetRefs

/-- The role that a concrete node plays. -/
inductive Shape where
  /-- A use of a name. -/
  | name
  | literal
  | call (callee : Option Concrete) (arguments : List Concrete)
  | selector (operand member : Option Concrete)
  | composite (type : Option Concrete) (elements : List Concrete)
  /-- A node that stands for its only part. -/
  | wrapper (inner : Concrete)
  | keyed (parts : List Concrete)
  /-- A function literal: a shapeless node with a scope of its own. -/
  | closure
  | statement (inner : Concrete)
  | define (left right : Option Concrete)
  | assign (left right : Option Concrete)
  | block (statements : List Concrete)
  /-- A clause that declares the names on its left without a value to look at. -/
  | binder (marker : Marker) (left right : Option Concrete)
  | typeSwitch (bound value : Option Concrete) (parts : List Concrete)
  | packageClause (names : List Concrete)
  | group (specs : List Concrete)
  | valueSpec (constant : Bool) (names : List Concrete) (type value : Option Concrete)
  /-- A function or method; only a function declares its name. -/
  | function (declares : Bool) (name : Option Concrete) (signature : List Concrete)
      (body : Option (List Concrete))
  | parameter (names : List Concrete) (type : Option Concrete)
  /-- A node that only carries its parts. -/
  | shapeless

namespace Concrete

/-- The kinds of nodes that open a scope and are otherwise shapeless. -/
def scopeKinds : List String :=
  ["if_statement", "for_statement", "expression_switch_statement", "select_statement",
    "expression_case", "default_case", "type_case", "communication_case"]

/-- The kinds of nodes that have a shape. -/
def shapedKinds : List String :=
  ["identifier", "call_expression", "selector_expression", "composite_literal", "literal_value",
    "literal_element", "keyed_element", "func_literal", "expression_statement",
    "short_var_declaration", "assignment_statement", "block", "range_clause", "receive_statement",
    "type_switch_statement", "package_clause", "const_declaration", "var_declaration",
    "import_declaration", "type_declaration", "const_spec", "var_spec", "function_declaration",
    "method_declaration", "parameter_declaration", "variadic_parameter_declaration",
    "interpreted_string_literal", "raw_string_literal", "int_literal", "float_literal",
    "imaginary_literal", "rune_literal", "true", "false", "nil", "iota"]

/-- Whether the node opens a scope for its parts. -/
def opensScope (tree : Concrete) : Bool := scopeKinds.contains tree.kind

/-- Whether the node's kind has no shape. -/
def isShapeless (tree : Concrete) : Bool := !shapedKinds.contains tree.kind

/-- The statements of a block; a list of statements counts as its statements. -/
def statements (block : Concrete) : List Concrete :=
  block.parts.flatMap fun part => if part.kind = "statement_list" then part.parts else [part]

mutual

/-- The specifications of a declaration, nested lists of them taken apart. -/
def specs : Concrete → List Concrete
  | node _ children => specsIn children

/-- The specifications among the children of a declaration. -/
def specsIn : List Concrete → List Concrete
  | [] => []
  | child :: rest =>
    if child.label.named && child.kind != "comment" then
      if child.kind.endsWith "_spec_list" then child.specs ++ specsIn rest
      else child :: specsIn rest
    else specsIn rest

end

/-- Whether one of the children is the token `:=`. -/
def hasDefine (tree : Concrete) : Bool := tree.children.any (·.kind == ":=")

/-- A clause that declares names if it is written with `:=`. -/
def binderShape (marker : Marker) (tree : Concrete) : Shape :=
  if tree.hasDefine then .binder marker (tree.child? "left") (tree.child? "right") else .shapeless

/-- The shape of a function or method. -/
def functionShape (declares : Bool) (tree : Concrete) : Shape :=
  let name := tree.child? "name"
  .function declares name
    (tree.parts.filter fun part => part.kind != "block" && !(name.any part.sameAs))
    ((tree.child? "body").map statements)

/-- The role that the node plays. -/
def shape (tree : Concrete) : Shape :=
  match tree.kind with
  | "identifier" | "true" | "false" | "nil" | "iota" => .name
  | "interpreted_string_literal" | "raw_string_literal" | "int_literal" | "float_literal"
  | "imaginary_literal" | "rune_literal" => .literal
  | "call_expression" =>
    .call (tree.child? "function") (((tree.child? "arguments").map parts).getD [])
  | "selector_expression" => .selector (tree.child? "operand") (tree.child? "field")
  | "composite_literal" =>
    .composite (tree.child? "type") (((tree.child? "body").map parts).getD [])
  | "literal_value" => .composite none tree.parts
  | "literal_element" =>
    match tree.parts with
    | [inner] => .wrapper inner
    | _ => .shapeless
  | "keyed_element" => .keyed tree.parts
  | "func_literal" => .closure
  | "expression_statement" =>
    match tree.parts with
    | [inner] => .statement inner
    | _ => .shapeless
  | "short_var_declaration" => .define (tree.child? "left") (tree.child? "right")
  | "assignment_statement" => .assign (tree.child? "left") (tree.child? "right")
  | "block" => .block tree.statements
  | "range_clause" => binderShape .range tree
  | "receive_statement" => binderShape .receive tree
  | "type_switch_statement" =>
    .typeSwitch (tree.child? "alias") (tree.child? "value") tree.parts
  | "package_clause" =>
    .packageClause (tree.parts.filter fun part => part.kind == "package_identifier")
  | "const_declaration" | "var_declaration" | "import_declaration" | "type_declaration" =>
    .group tree.specs
  | "const_spec" =>
    .valueSpec true ((tree.childrenIn "name").filter (·.kind == "identifier"))
      (tree.child? "type") (tree.child? "value")
  | "var_spec" =>
    .valueSpec false ((tree.childrenIn "name").filter (·.kind == "identifier"))
      (tree.child? "type") (tree.child? "value")
  | "function_declaration" => functionShape true tree
  | "method_declaration" => functionShape false tree
  | "parameter_declaration" | "variadic_parameter_declaration" =>
    .parameter (tree.childrenIn "name") (tree.child? "type")
  | _ => .shapeless

/-- The expressions of a list of expressions, or a lone expression. -/
def listed (tree : Concrete) : List Concrete :=
  if tree.kind = "expression_list" then tree.parts else [tree]

/-- The key of a keyed element: an element with a single part stands for it. -/
def unwrapped (tree : Concrete) : Concrete :=
  if tree.kind = "literal_element" then
    match tree.parts with
    | [inner] => inner
    | _ => tree
  else tree

end Concrete

end AssetRefs
