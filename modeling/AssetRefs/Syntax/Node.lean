/-! # Lowered trees

A lowered tree keeps the shapes that a scan looks at; every other construct is a generic node that
only carries its parts. Nodes keep the kind of the construct they came from and where it starts.
-/

namespace AssetRefs

/-- The kind of construct that a node came from and where it starts, counted from one. -/
structure Site where
  kind : String
  line : Nat
  column : Nat
deriving DecidableEq, Repr

/-- A lowered node. -/
inductive Node where
  | generic (site : Site) (parts : List Node)
  /-- An occurrence of a name at a byte offset. -/
  | ident (site : Site) (name : String) (offset : Nat)
  /-- A literal with its source text, quotes included. -/
  | literal (site : Site) (text : String)
  | call (site : Site) (callee : Node) (arguments : List Node)
  /-- A member of an operand; the member's name is no node. -/
  | selector (site : Site) (operand : Node) (member : String)
  | composite (site : Site) (type : Option Node) (elements : List Node)
  | keyed (site : Site) (key value : Node)
  /-- `left := right` if it defines, `left = right` otherwise. -/
  | assignment (site : Site) (left right : List Node) (defines : Bool)
  /-- Names of a `const` or `var` declaration with their type and values. -/
  | valueSpec (site : Site) (names : List Node) (type : Option Node) (values : List Node)
      (constant : Bool)
  /-- A declaration with its specifications. -/
  | group (site : Site) (specs : List Node)
  /-- A function or method; one that is declared elsewhere has no body. -/
  | function (site : Site) (name : String) (signature : List Node) (body : Option (List Node))
  /-- An expression used as a statement. -/
  | statement (site : Site) (expression : Node)
deriving Repr

namespace Node

/-- Where the node came from. -/
def site : Node → Site
  | generic site .. | ident site .. | literal site .. | call site .. | selector site ..
  | composite site .. | keyed site .. | assignment site .. | valueSpec site .. | group site ..
  | function site .. | statement site .. => site

/-- The children in source order. -/
def children : Node → List Node
  | generic _ parts => parts
  | ident .. | literal .. => []
  | call _ callee arguments => callee :: arguments
  | selector _ operand _ => [operand]
  | composite _ type elements => type.toList ++ elements
  | keyed _ key value => [key, value]
  | assignment _ left right _ => left ++ right
  | valueSpec _ names type values _ => names ++ type.toList ++ values
  | group _ specs => specs
  | function _ _ signature body => signature ++ body.getD []
  | statement _ expression => [expression]

mutual

/-- The number of nodes. -/
def size : Node → Nat
  | generic _ parts => 1 + sizes parts
  | ident .. | literal .. => 1
  | call _ callee arguments => 1 + (callee.size + sizes arguments)
  | selector _ operand _ => 1 + operand.size
  | composite _ type elements => 1 + (sizeOption type + sizes elements)
  | keyed _ key value => 1 + (key.size + value.size)
  | assignment _ left right _ => 1 + (sizes left + sizes right)
  | valueSpec _ names type values _ => 1 + (sizes names + sizeOption type + sizes values)
  | group _ specs => 1 + sizes specs
  | function _ _ signature body => 1 + (sizes signature + sizesOption body)
  | statement _ expression => 1 + expression.size

/-- The number of nodes of several trees. -/
def sizes : List Node → Nat
  | [] => 0
  | node :: rest => node.size + sizes rest

/-- The number of nodes of a tree that may be absent. -/
def sizeOption : Option Node → Nat
  | none => 0
  | some node => node.size

/-- The number of nodes of trees that may be absent. -/
def sizesOption : Option (List Node) → Nat
  | none => 0
  | some nodes => sizes nodes

end

theorem sizes_append (first second : List Node) :
    sizes (first ++ second) = sizes first + sizes second := by
  induction first with
  | nil => simp [sizes]
  | cons node rest ih => simp only [List.cons_append, sizes, ih]; omega

theorem sizes_toList (node : Option Node) : sizes node.toList = sizeOption node := by
  cases node <;> simp [sizes, sizeOption]

theorem sizes_getD (nodes : Option (List Node)) : sizes (nodes.getD []) = sizesOption nodes := by
  cases nodes <;> simp [sizes, sizesOption]

theorem size_eq (node : Node) : node.size = 1 + sizes node.children := by
  cases node <;>
    simp only [size, children, sizes, sizes_append, sizes_toList, sizes_getD, Nat.add_zero]

/-- The nodes of the pending trees, parents before children and children in order. -/
def walkFrom : (seen : List Node) → (pending : List Node) → List Node
  | seen, [] => seen.reverse
  | seen, node :: pending => walkFrom (node :: seen) (node.children ++ pending)
termination_by _ pending => sizes pending
decreasing_by
  have whole := node.size_eq
  simp only [sizes_append, sizes]
  omega

/-- Every node of a tree, parents before children and children in order. -/
def walk (root : Node) : List Node := walkFrom [] [root]

/-- Whether a literal came from a string. -/
def isStringKind (kind : String) : Bool :=
  kind == "interpreted_string_literal" || kind == "raw_string_literal"

end Node

end AssetRefs
