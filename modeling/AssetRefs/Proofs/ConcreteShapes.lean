import AssetRefs.Syntax.Lowering
import Mathlib.Tactic.SplitIfs

/-! # The nodes of concrete trees

A shape refers to nodes below the one that has it: see `Concrete.encloses_of_mem_shape`. Which kinds
of nodes have which shape is said by `Concrete.Shaped`.
-/

namespace AssetRefs

namespace Concrete

/-- A node without children. -/
def leaf (kind field : String) (start stop : Nat) : Concrete :=
  .node { kind, field := some field, start, stop, column := start } []

/-- The tree with the given root contains a concrete node. -/
inductive Contains (root : Concrete) : Concrete → Prop where
  | self : root.Contains root
  | child {parent tree : Concrete} : root.Contains parent → tree ∈ parent.children →
      root.Contains tree

theorem Contains.trans {a b c : Concrete} (outer : a.Contains b) (inner : b.Contains c) :
    a.Contains c := by
  induction inner with
  | self => exact outer
  | child _ member ih => exact ih.child member

theorem contains_node_iff {label : Label} {children : List Concrete} {tree : Concrete} :
    (node label children).Contains tree ↔
      tree = node label children ∨ ∃ child ∈ children, child.Contains tree := by
  constructor
  · intro contained
    induction contained with
    | self => exact .inl rfl
    | child _ member ih =>
      rcases ih with rfl | ⟨child, inside, below⟩
      · exact .inr ⟨_, member, .self⟩
      · exact .inr ⟨child, inside, below.child member⟩
  · rintro (rfl | ⟨child, member, below⟩)
    · exact .self
    · exact (Contains.self.child member).trans below

mutual

/-- The nodes of a tree, parents before children and children in order. -/
def nodes : Concrete → List Concrete
  | node label children => node label children :: nodesIn children

/-- The nodes of several trees. -/
def nodesIn : List Concrete → List Concrete
  | [] => []
  | tree :: rest => tree.nodes ++ nodesIn rest

end

mutual

theorem mem_nodes_iff {part : Concrete} (tree : Concrete) :
    part ∈ tree.nodes ↔ tree.Contains part := by
  cases tree with
  | node label children =>
    rw [nodes, List.mem_cons, mem_nodesIn_iff children, contains_node_iff]
termination_by structural tree

theorem mem_nodesIn_iff {part : Concrete} (trees : List Concrete) :
    part ∈ nodesIn trees ↔ ∃ tree ∈ trees, tree.Contains part := by
  cases trees with
  | nil => simp [nodesIn]
  | cons tree rest =>
    rw [nodesIn, List.mem_append, mem_nodes_iff tree, mem_nodesIn_iff rest]
    simp only [List.mem_cons, exists_eq_or_imp]
termination_by structural trees

end

/-- The tree with the given root contains a node below the root. -/
def Encloses (root tree : Concrete) : Prop := ∃ child ∈ root.children, child.Contains tree

theorem Encloses.contains {root tree : Concrete} (enclosed : root.Encloses tree) :
    root.Contains tree := by
  obtain ⟨child, member, below⟩ := enclosed
  exact (Contains.self.child member).trans below

theorem Encloses.trans {a b c : Concrete} (outer : a.Encloses b) (inner : b.Contains c) :
    a.Encloses c := by
  obtain ⟨child, member, below⟩ := outer
  exact ⟨child, member, below.trans inner⟩

theorem weight_le_weights_of_mem {tree : Concrete} {trees : List Concrete}
    (member : tree ∈ trees) : tree.weight ≤ weights trees := by
  induction member with
  | head rest => exact Nat.le_add_right ..
  | tail first _ ih => exact Nat.le_trans ih (Nat.le_add_left ..)

theorem Contains.weight_le {root tree : Concrete} (contained : root.Contains tree) :
    tree.weight ≤ root.weight := by
  induction contained with
  | self => exact Nat.le_refl _
  | @child parent tree _ member ih =>
    have below := weight_le_weights_of_mem member
    have whole := parent.weight_eq
    omega

theorem Encloses.weight_lt {root tree : Concrete} (enclosed : root.Encloses tree) :
    tree.weight < root.weight := by
  obtain ⟨child, member, below⟩ := enclosed
  have inner := below.weight_le
  have outer := weight_le_weights_of_mem member
  have whole := root.weight_eq
  omega

theorem encloses_of_mem_parts {tree part : Concrete} (member : part ∈ tree.parts) :
    tree.Encloses part :=
  ⟨part, (List.mem_filter.mp member).1, .self⟩

theorem contains_of_mem_parts {tree part : Concrete} (member : part ∈ tree.parts) :
    tree.Contains part :=
  (encloses_of_mem_parts member).contains

theorem encloses_of_child? {tree child : Concrete} {field : String}
    (filled : tree.child? field = some child) : tree.Encloses child :=
  ⟨child, List.mem_of_find?_eq_some filled, .self⟩

theorem encloses_of_mem_childrenIn {tree child : Concrete} {field : String}
    (member : child ∈ tree.childrenIn field) : tree.Encloses child :=
  ⟨child, (List.mem_filter.mp member).1, .self⟩

theorem contains_of_mem_listed {tree part : Concrete} (member : part ∈ tree.listed) :
    tree.Contains part := by
  unfold listed at member
  split_ifs at member
  · exact contains_of_mem_parts member
  · rw [List.mem_singleton.mp member]
    exact .self

theorem encloses_of_mem_listed {tree : Concrete} {list : Option Concrete}
    (enclosed : ∀ inner ∈ list.toList, tree.Encloses inner) :
    ∀ part ∈ (list.map listed).getD [], tree.Encloses part := by
  intro part member
  cases list with
  | none => cases member
  | some inner => exact (enclosed inner (by simp)).trans (contains_of_mem_listed member)

theorem encloses_of_mem_statements {tree part : Concrete} (member : part ∈ tree.statements) :
    tree.Encloses part := by
  obtain ⟨outer, inside, member⟩ := List.mem_flatMap.mp member
  have enclosed := encloses_of_mem_parts inside
  split_ifs at member
  · exact enclosed.trans (contains_of_mem_parts member)
  · rw [List.mem_singleton.mp member]
    exact enclosed

theorem contains_unwrapped (tree : Concrete) : tree.Contains tree.unwrapped := by
  unfold unwrapped
  split_ifs
  · split
    · next inner only => exact contains_of_mem_parts (by simp [only])
    · exact .self
  · exact .self

mutual

theorem contains_of_mem_specs {part : Concrete} : (tree : Concrete) → part ∈ tree.specs →
    tree.Contains part
  | node label children => fun member => by
    obtain ⟨child, inside, contained⟩ := contains_of_mem_specsIn children member
    exact (Contains.self.child inside).trans contained

theorem contains_of_mem_specsIn {part : Concrete} : (trees : List Concrete) →
    part ∈ specsIn trees → ∃ tree ∈ trees, tree.Contains part
  | [] => fun member => by cases member
  | child :: rest => fun member => by
    have later (member : part ∈ specsIn rest) :
        ∃ tree ∈ child :: rest, tree.Contains part := by
      obtain ⟨tree, inside, contained⟩ := contains_of_mem_specsIn rest member
      exact ⟨tree, List.mem_cons_of_mem _ inside, contained⟩
    unfold specsIn at member
    split_ifs at member
    · rcases List.mem_append.mp member with member | member
      · exact ⟨child, List.mem_cons_self, contains_of_mem_specs child member⟩
      · exact later member
    · rcases List.mem_cons.mp member with rfl | member
      · exact ⟨_, List.mem_cons_self, .self⟩
      · exact later member
    · exact later member

end

theorem encloses_of_mem_specs {tree part : Concrete} (member : part ∈ tree.specs) :
    tree.Encloses part := by
  cases tree
  exact contains_of_mem_specsIn _ member

end Concrete

namespace Shape

/-- The concrete nodes that a shape refers to. -/
def members : Shape → List Concrete
  | name | literal | closure | shapeless => []
  | call callee arguments => callee.toList ++ arguments
  | selector operand member => operand.toList ++ member.toList
  | composite type elements => type.toList ++ elements
  | wrapper inner | statement inner => [inner]
  | keyed nodes | block nodes | packageClause nodes | group nodes => nodes
  | define left right | assign left right | binder _ left right => left.toList ++ right.toList
  | typeSwitch bound value parts => bound.toList ++ value.toList ++ parts
  | valueSpec _ names type value => names ++ type.toList ++ value.toList
  | function _ spelling signature body => spelling.toList ++ signature ++ body.getD []
  | parameter names type => names ++ type.toList

/-- The concrete nodes that a shape takes for names. The name of a method is none. -/
def names : Shape → List Concrete
  | valueSpec _ names _ _ | parameter names _ => names
  | function declares spelling _ _ => spelling.toList.filter fun _ => declares
  | _ => []

end Shape

namespace Concrete

theorem encloses_of_mem_shape {tree part : Concrete} (member : part ∈ tree.shape.members) :
    tree.Encloses part := by
  have field (name : String) (filled : part ∈ (tree.child? name).toList) : tree.Encloses part :=
    encloses_of_child? (Option.mem_toList.mp filled)
  have inside (found : part ∈ tree.parts) : tree.Encloses part := encloses_of_mem_parts found
  have named (found : part ∈ tree.childrenIn "name") : tree.Encloses part :=
    encloses_of_mem_childrenIn found
  have spec (found : part ∈ tree.specs) : tree.Encloses part := encloses_of_mem_specs found
  have stated (found : part ∈ tree.statements) : tree.Encloses part :=
    encloses_of_mem_statements found
  have below (name : String) (found : part ∈ ((tree.child? name).map parts).getD []) :
      tree.Encloses part := by
    obtain ⟨child, filled, found⟩ :
        ∃ child, tree.child? name = some child ∧ part ∈ child.parts := by
      cases filled : tree.child? name <;> simp_all
    exact (encloses_of_child? filled).trans (contains_of_mem_parts found)
  have body (found : part ∈ ((tree.child? "body").map statements).getD []) :
      tree.Encloses part := by
    obtain ⟨child, filled, found⟩ :
        ∃ child, tree.child? "body" = some child ∧ part ∈ child.statements := by
      cases filled : tree.child? "body" <;> simp_all
    exact (encloses_of_child? filled).trans (encloses_of_mem_statements found).contains
  unfold shape at member
  split at member
  all_goals grind [Shape.members, functionShape, binderShape]

theorem contains_of_mem_shape {tree part : Concrete} (member : part ∈ tree.shape.members) :
    tree.Contains part :=
  (encloses_of_mem_shape member).contains

/-- What each kind of node has for its shape: the inversion of `Concrete.shape`. -/
inductive Shaped (tree : Concrete) : Shape → Prop where
  | name : tree.kind ∈ ["identifier", "true", "false", "nil", "iota"] → tree.Shaped .name
  | literal : tree.kind ∈ ["interpreted_string_literal", "raw_string_literal", "int_literal",
      "float_literal", "imaginary_literal", "rune_literal"] → tree.Shaped .literal
  | call : tree.kind = "call_expression" →
      tree.Shaped (.call (tree.child? "function") (((tree.child? "arguments").map parts).getD []))
  | selector : tree.kind = "selector_expression" →
      tree.Shaped (.selector (tree.child? "operand") (tree.child? "field"))
  | composite : tree.kind = "composite_literal" →
      tree.Shaped (.composite (tree.child? "type") (((tree.child? "body").map parts).getD []))
  | values : tree.kind = "literal_value" → tree.Shaped (.composite none tree.parts)
  | element {inner : Concrete} : tree.kind = "literal_element" → tree.parts = [inner] →
      tree.Shaped (.wrapper inner)
  | keyed : tree.kind = "keyed_element" → tree.Shaped (.keyed tree.parts)
  | closure : tree.kind = "func_literal" → tree.Shaped .closure
  | statement {inner : Concrete} : tree.kind = "expression_statement" → tree.parts = [inner] →
      tree.Shaped (.statement inner)
  | define : tree.kind = "short_var_declaration" →
      tree.Shaped (.define (tree.child? "left") (tree.child? "right"))
  | assign : tree.kind = "assignment_statement" →
      tree.Shaped (.assign (tree.child? "left") (tree.child? "right"))
  | block : tree.kind = "block" → tree.Shaped (.block tree.statements)
  | binder {marker : Marker} : tree.kind ∈ ["range_clause", "receive_statement"] →
      tree.hasDefine →
      tree.Shaped (.binder marker (tree.child? "left") (tree.child? "right"))
  | typeSwitch : tree.kind = "type_switch_statement" →
      tree.Shaped (.typeSwitch (tree.child? "alias") (tree.child? "value") tree.parts)
  | packageClause : tree.kind = "package_clause" →
      tree.Shaped (.packageClause (tree.parts.filter fun part => part.kind == "package_identifier"))
  | group : tree.kind ∈ ["const_declaration", "var_declaration", "import_declaration",
      "type_declaration"] → tree.Shaped (.group tree.specs)
  | valueSpec {constant : Bool} : tree.kind ∈ ["const_spec", "var_spec"] →
      tree.Shaped (.valueSpec constant ((tree.childrenIn "name").filter (·.kind == "identifier"))
        (tree.child? "type") (tree.child? "value"))
  | function {declares : Bool} : tree.kind ∈ ["function_declaration", "method_declaration"] →
      tree.Shaped (tree.functionShape declares)
  | parameter : tree.kind ∈ ["parameter_declaration", "variadic_parameter_declaration"] →
      tree.Shaped (.parameter (tree.childrenIn "name") (tree.child? "type"))
  /-- A node that stands for its only part, but has none or several. -/
  | loose : tree.kind ∈ ["literal_element", "expression_statement"] → tree.Shaped .shapeless
  /-- A clause that declares nothing. -/
  | plain : tree.kind ∈ ["range_clause", "receive_statement"] → tree.hasDefine = false →
      tree.Shaped .shapeless
  | other : tree.kind ∉ shapedKinds → tree.Shaped .shapeless

theorem shaped (tree : Concrete) : tree.Shaped tree.shape := by
  unfold shape binderShape
  split
  -- An element, a statement and a clause have a shape under a further condition.
  all_goals try split
  all_goals first
    | (constructor <;> first | assumption | (simp [*]; done))
    | exact .plain (by simp [*]) (by simp [*])
    | exact .other (by simp_all [shapedKinds])

theorem Shaped.of_eq {tree : Concrete} {shape : Shape} (same : tree.shape = shape) :
    tree.Shaped shape :=
  same ▸ tree.shaped

theorem shape_of_isShapeless {tree : Concrete} (shapeless : tree.isShapeless) :
    tree.shape = .shapeless := by
  have unlisted : tree.kind ∉ shapedKinds := by simpa [isShapeless] using shapeless
  generalize tree.shape = shape, tree.shaped = shaped
  cases shaped with
  | loose | plain | other => rfl
  | _ => simp_all [shapedKinds]

/-- An identifier of the tree with the given root: a use of a name, or a node that another one takes
for a name. -/
inductive HasIdentifier (root : Concrete) : Concrete → Prop where
  | plain {tree : Concrete} : root.Contains tree → tree.shape = .name → root.HasIdentifier tree
  | named {parent tree : Concrete} : root.Contains parent → tree ∈ parent.shape.names →
      root.HasIdentifier tree

theorem HasIdentifier.trans {a b c : Concrete} (outer : a.Contains b) (inner : b.HasIdentifier c) :
    a.HasIdentifier c := by
  cases inner with
  | plain contained shaped => exact .plain (outer.trans contained) shaped
  | named contained member => exact .named (outer.trans contained) member

theorem HasIdentifier.of_kind {root tree : Concrete} (contained : root.Contains tree)
    (kind : tree.kind = "identifier") : root.HasIdentifier tree := by
  refine .plain contained ?_
  simp only [shape, kind]

end Concrete

end AssetRefs
