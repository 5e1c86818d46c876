import AssetRefs.Go.Parser
import AssetRefs.Proofs.GrammarShapes
import AssetRefs.Proofs.MalformedLiterals
import Mathlib.Data.List.ReduceOption

/-! # Sound concrete trees

A concrete tree is sound for a source if every node of it has the parts that its shape needs, and if
every literal has the digits that its escapes need. Closing a node and reading an expression as a
type keep trees sound: see `Go.sound_of_build?` and `Go.sound_of_typeOf?`.
-/

namespace AssetRefs

namespace Concrete

/-- Whether the node fills a field of its parent. -/
def fills (field : String) (tree : Concrete) : Bool := tree.label.field == some field

/-- The kinds of literals. -/
def literalKinds : List String :=
  ["interpreted_string_literal", "raw_string_literal", "int_literal", "float_literal",
    "imaginary_literal", "rune_literal"]

/-- Whether a node of the kind may have the given children: what its shape needs is among them.
Literals are tokens and not made from children. -/
def isBuilt (kind : String) (children : List Concrete) : Bool :=
  match kind with
  | "call_expression" => children.any (fills "function")
  | "selector_expression" => children.any (fills "operand")
  | "short_var_declaration" => children.any (fills "left")
  | "range_clause" | "receive_statement" => children.any (fills "right")
  | "keyed_element" => children.any isPart
  | kind => !literalKinds.contains kind

/-- A tree in which every node is built from its children or is a literal with the digits that its
escapes need. -/
inductive Sound (source : ByteArray) : Concrete → Prop where
  | built {label : Label} {children : List Concrete} : isBuilt label.kind children →
      (∀ child ∈ children, Sound source child) → Sound source (.node label children)
  | literal {label : Label} : label.kind ∈ literalKinds →
      ¬ GoString.LacksHexDigits ((Concrete.node label []).text source) →
      Sound source (.node label [])

theorem child?_isSome (tree : Concrete) (field : String) :
    (tree.child? field).isSome = tree.children.any (fills field) :=
  List.isSome_find?

theorem parts_ne_nil {tree : Concrete} (part : tree.children.any isPart) : tree.parts ≠ [] := by
  obtain ⟨child, member, counted⟩ := List.any_eq_true.mp part
  exact List.ne_nil_of_mem (List.mem_filter.mpr ⟨member, counted⟩)

/-- A node that is built from its children has the parts that its shape needs. -/
theorem isComplete_of_isBuilt {tree : Concrete} (built : isBuilt tree.kind tree.children) :
    tree.shape.isComplete := by
  have binder (marker : Marker) (right : tree.children.any (fills "right")) :
      (tree.binderShape marker).isComplete := by
    unfold binderShape
    split_ifs
    · exact (child?_isSome ..).trans right
    · rfl
  unfold shape
  -- Most shapes need nothing. What is left is a call, a selector, a keyed element, a definition and
  -- the two binders.
  split
  all_goals first | rfl | (split <;> rfl) | (rename_i kind; rw [kind] at built)
  · exact (child?_isSome ..).trans built
  · exact (child?_isSome ..).trans built
  · simpa [Shape.isComplete] using parts_ne_nil built
  · exact (child?_isSome ..).trans built
  · exact binder .range built
  · exact binder .receive built

theorem isBuilt_reverse (kind : String) (children : List Concrete) :
    isBuilt kind children.reverse = isBuilt kind children := by
  unfold isBuilt
  split <;> first | exact List.any_reverse | rfl

section

variable {source : ByteArray} {tree : Concrete}

theorem Sound.children (sound : tree.Sound source) :
    ∀ child ∈ tree.children, child.Sound source := by
  cases sound with
  | built _ below => exact below
  | literal => exact List.forall_mem_nil _

theorem shape_eq_literal_iff : tree.shape = .literal ↔ tree.kind ∈ literalKinds := by
  constructor
  · intro shaped
    cases Shaped.of_eq shaped with
    | literal kind => exact kind
  · intro kind
    simp only [literalKinds, List.mem_cons, List.not_mem_nil, or_false] at kind
    unfold shape
    rcases kind with kind | kind | kind | kind | kind | kind <;> simp only [kind]

theorem isBuilt_of_mem_literalKinds {kind : String} (literal : kind ∈ literalKinds)
    (children : List Concrete) : isBuilt kind children = false := by
  simp only [literalKinds, List.mem_cons, List.not_mem_nil, or_false] at literal
  rcases literal with rfl | rfl | rfl | rfl | rfl | rfl <;> rfl

theorem Sound.isComplete (sound : tree.Sound source) : tree.shape.isComplete := by
  cases sound with
  | built built _ => exact isComplete_of_isBuilt built
  | @literal label kind _ =>
    have shaped : (node label []).shape = .literal := shape_eq_literal_iff.mpr kind
    rw [shaped]
    rfl

/-- The literals of a sound tree have the digits that their escapes need. -/
theorem Sound.not_lacksHexDigits (sound : tree.Sound source) (literal : tree.shape = .literal) :
    ¬ GoString.LacksHexDigits (tree.text source) := by
  cases sound with
  | @built label children built _ =>
    have none := isBuilt_of_mem_literalKinds (shape_eq_literal_iff.mp literal) children
    exact absurd (built.symm.trans none) (by decide)
  | literal _ legible => exact legible

theorem Sound.of_contains (sound : tree.Sound source) {part : Concrete}
    (contained : tree.Contains part) : part.Sound source := by
  induction contained with
  | self => exact sound
  | child _ member ih => exact ih.children _ member

end

end Concrete

namespace Go

open Concrete

/-! ## Changes to nodes -/

section

variable {source : ByteArray}

theorem sound_inField {tree : Concrete} (sound : tree.Sound source) (field : Option String) :
    (inField field tree).Sound source := by
  cases sound with
  | built built below => exact .built built below
  | literal kind legible => exact .literal kind legible

theorem sound_relabelled {tree : Concrete} (sound : tree.Sound source) {kind : String}
    (built : isBuilt kind tree.children) (field : Option String) :
    (relabelled kind field tree).Sound source := by
  obtain ⟨label, children⟩ := tree
  exact .built built sound.children

theorem sound_nodeAround {kind : String} {field : Option String} {children : List Concrete}
    (built : isBuilt kind children) (below : ∀ child ∈ children, child.Sound source) :
    (nodeAround kind field children).Sound source :=
  .built built below

theorem sound_of_typeName? {tree name : Concrete} (sound : tree.Sound source)
    (read : typeName? tree = some name) : name.Sound source := by
  unfold typeName? at read
  split at read
  · split_ifs at read
    cases read
    exact sound_relabelled sound rfl none
  · next operand dot member children =>
    split_ifs at read
    cases read
    have below := sound.children
    simp only [children, List.forall_mem_cons] at below
    obtain ⟨first, second, third, _⟩ := below
    refine sound_nodeAround rfl ?_
    simp only [List.forall_mem_cons]
    exact ⟨sound_relabelled first rfl _, second, sound_relabelled third rfl _,
      List.forall_mem_nil _⟩
  · cases read

theorem sound_of_genericName? {tree name : Concrete} (sound : tree.Sound source)
    (read : genericName? tree = some name) : name.Sound source := by
  unfold genericName? at read
  split_ifs at read
  · cases read
    exact sound
  · exact sound_of_typeName? sound read

theorem sound_of_typeArguments? {trees arguments : List Concrete}
    (sound : ∀ tree ∈ trees, tree.Sound source)
    (below : ∀ tree ∈ trees, ∀ types, union? tree = some types → ∀ type ∈ types, type.Sound source)
    (read : typeArguments? trees = some arguments) : ∀ type ∈ arguments, type.Sound source := by
  induction trees generalizing arguments with
  | nil =>
    rw [typeArguments?.eq_def] at read
    cases read
    exact List.forall_mem_nil _
  | cons tree rest ih =>
    rw [List.forall_mem_cons] at sound below
    rw [typeArguments?.eq_def] at read
    dsimp only at read
    split_ifs at read with named
    · split at read
      · next types more first later =>
        cases read
        rw [List.forall_mem_cons]
        exact ⟨sound_nodeAround rfl (below.1 _ first), ih sound.2 below.2 later⟩
      · cases read
    · obtain ⟨more, later, rfl⟩ := Option.map_eq_some_iff.mp read
      rw [List.forall_mem_cons]
      exact ⟨sound.1, ih sound.2 below.2 later⟩

/-- What a sound expression is read as consists of sound trees. -/
theorem sound_of_union? {tree : Concrete} {types : List Concrete} (sound : tree.Sound source)
    (read : union? tree = some types) : ∀ type ∈ types, type.Sound source := by
  have named {tree : Concrete} {types : List Concrete} (sound : tree.Sound source)
      (read : (typeName? tree).map ([·]) = some types) : ∀ type ∈ types, type.Sound source := by
    obtain ⟨name, named, rfl⟩ := Option.map_eq_some_iff.mp read
    rw [List.forall_mem_singleton]
    exact sound_of_typeName? sound named
  induction sound generalizing types with
  | literal kind legible =>
    rw [union?.eq_def] at read
    dsimp only at read
    split at read
    · cases read
      rw [List.forall_mem_singleton]
      exact .literal kind legible
    · exact named (.literal kind legible) read
  | @built label children built below ih =>
    have sound : (Concrete.node label children).Sound source := .built built below
    rw [union?.eq_def] at read
    dsimp only at read
    split at read
    · cases read
      rw [List.forall_mem_singleton]
      exact sound_inField sound none
    · split at read
      · exact named sound read
      · next mark operand =>
        simp only [List.forall_mem_cons] at below ih
        split_ifs at read
        split at read
        · next type pointed =>
          cases read
          have inner := ih.2.1 pointed
          rw [List.forall_mem_singleton] at inner ⊢
          refine sound_nodeAround rfl ?_
          simp only [List.forall_mem_cons]
          exact ⟨sound_inField below.1 none, inner, List.forall_mem_nil _⟩
        · cases read
      · next first second third =>
        simp only [List.forall_mem_cons] at below ih
        obtain ⟨left, middle, right, _⟩ := below
        split_ifs at read
        · split at read
          · next types type one other =>
            cases read
            have last := ih.2.2.1 other
            rw [List.forall_mem_append]
            simp only [List.forall_mem_cons] at last ⊢
            exact ⟨ih.1 one, sound_inField middle none, last⟩
          · cases read
        · split at read
          · next type inner =>
            cases read
            have inside := ih.2.1 inner
            rw [List.forall_mem_singleton] at inside ⊢
            refine sound_nodeAround rfl ?_
            simp only [List.forall_mem_cons]
            exact ⟨left, inside, right, List.forall_mem_nil _⟩
          · cases read
        · exact named sound read
      · next name rest _ _ =>
        simp only [List.forall_mem_cons] at below ih
        split_ifs at read
        split at read
        · next generic arguments called listed =>
          cases read
          have inside := sound_of_typeArguments? below.2 (fun tree member _ => ih.2 tree member)
            listed
          rw [List.forall_mem_singleton]
          refine sound_nodeAround rfl ?_
          simp only [List.forall_mem_cons]
          exact ⟨sound_inField (sound_of_genericName? below.1 called) _,
            sound_nodeAround rfl inside, List.forall_mem_nil _⟩
        · cases read

theorem sound_of_typeOf? {tree type : Concrete} (sound : tree.Sound source)
    (read : typeOf? tree = some type) : type.Sound source := by
  unfold typeOf? at read
  split at read
  · next only =>
    cases read
    exact sound_of_union? sound only type (List.mem_singleton_self type)
  · cases read

/-! ## Closing nodes -/

theorem sound_of_bareName? {tree name : Concrete} (sound : tree.Sound source)
    (bare : bareName? tree = some name) : name.Sound source := by
  unfold bareName? at bare
  split at bare
  · next type children =>
    split_ifs at bare
    cases bare
    have only := sound.children type (by rw [children]; exact List.mem_singleton_self type)
    exact sound_relabelled only rfl _
  · cases bare

theorem sound_absorbName {tree : Concrete} {rest : List Concrete} (sound : tree.Sound source)
    (others : ∀ other ∈ rest, other.Sound source) :
    ∀ child ∈ absorbName tree rest, child.Sound source := by
  have kept : ∀ child ∈ tree :: rest, child.Sound source :=
    List.forall_mem_cons.mpr ⟨sound, others⟩
  unfold absorbName
  split
  · next name comma next more bare =>
    split_ifs
    · simp only [List.forall_mem_cons] at others ⊢
      refine ⟨sound_nodeAround rfl ?_, others.2.2⟩
      simp only [List.forall_mem_cons]
      exact ⟨sound_of_bareName? sound bare, others.1, others.2.1.children⟩
    · exact kept
  · exact kept

theorem sound_of_bracketNode? {children : List Concrete} {node : Concrete}
    (below : ∀ child ∈ children, child.Sound source) (built : bracketNode? children = some node) :
    node.Sound source := by
  unfold bracketNode? at built
  dsimp only at built
  split at built
  · split_ifs at built
    cases built
    exact sound_nodeAround rfl below
  · split at built
    · next operand opening index closing =>
      simp only [List.forall_mem_cons] at below
      obtain ⟨first, second, third, last⟩ := below
      split at built
      · split at built
        · next name named =>
          cases built
          refine sound_nodeAround rfl ?_
          simp only [List.forall_mem_cons]
          exact ⟨sound_inField (sound_of_typeName? first named) _, second, third, last⟩
        · cases built
      · cases built
        refine sound_nodeAround rfl ?_
        simp only [List.forall_mem_cons]
        exact ⟨first, second, sound_inField third _, last⟩
    · next operand rest _ _ =>
      rw [List.forall_mem_cons] at below
      split at built
      · next name named =>
        split_ifs at built
        cases built
        refine sound_nodeAround rfl ?_
        rw [List.forall_mem_cons]
        refine ⟨sound_inField (sound_of_typeName? below.1 named) _, ?_⟩
        intro type member
        obtain ⟨tree, inside, read⟩ := List.mem_map.mp (List.reduceOption_mem_iff.mp member)
        split_ifs at read
        · exact sound_of_typeOf? (below.2 tree inside) read
        · obtain rfl := Option.some.inj read
          exact below.2 _ inside
      · cases built
    · cases built

theorem sound_of_callNode? {children : List Concrete} {node : Concrete}
    (below : ∀ child ∈ children, child.Sound source)
    (called : isBuilt "call_expression" children) (built : callNode? children = some node) :
    node.Sound source := by
  unfold callNode? at built
  split at built
  · next callee arguments =>
    split at built
    · next type converted =>
      cases built
      simp only [List.forall_mem_cons] at below
      have typed : type.Sound source := by
        unfold convertedType? at converted
        split_ifs at converted
        split at converted
        · split_ifs at converted
          exact sound_of_typeOf? below.1 converted
        · cases converted
      refine sound_nodeAround rfl ?_
      rw [List.forall_mem_cons]
      refine ⟨sound_inField typed _, ?_⟩
      intro operand member
      obtain ⟨tree, inside, rfl⟩ := List.mem_map.mp member
      have sound := below.2.1.children tree inside
      split_ifs
      · exact sound_inField sound _
      · exact sound
    · cases built
      exact sound_nodeAround called below
  · cases built

theorem sound_of_unaryNode? {context : Context} {children : List Concrete} {node : Concrete}
    (below : ∀ child ∈ children, child.Sound source)
    (built : unaryNode? context children = some node) : node.Sound source := by
  unfold unaryNode? at built
  split at built
  · split_ifs at built
    · cases built
      refine sound_nodeAround rfl ?_
      intro child member
      obtain ⟨tree, inside, rfl⟩ := List.mem_map.mp member
      exact sound_inField (below tree inside) none
    · cases built
      exact sound_nodeAround rfl below
  · cases built

/-- What the children need to be for a node to be closed in the given way. -/
def Closing.isMet (children : List Concrete) : Closing → Bool
  | .node kind _ => isBuilt kind children
  | .call => isBuilt "call_expression" children
  | _ => true

theorem Closing.isMet_reverse (closing : Closing) (children : List Concrete) :
    closing.isMet children.reverse = closing.isMet children := by
  cases closing with
  | node kind _ => exact isBuilt_reverse kind children
  | call => exact isBuilt_reverse "call_expression" children
  | _ => rfl

/-- A node that is closed around sound children is sound. -/
theorem sound_of_build? {closing : Closing} {children : List Concrete} {node : Concrete}
    (below : ∀ child ∈ children, child.Sound source) (met : closing.isMet children)
    (built : closing.build? children = some node) : node.Sound source := by
  cases closing with
  | node kind field =>
    cases built
    exact sound_nodeAround met below
  | unary context => exact sound_of_unaryNode? below built
  | parentheses =>
    simp only [Closing.build?] at built
    split_ifs at built
    · cases built
      exact sound_nodeAround rfl below
    · cases built
      exact sound_nodeAround rfl below
  | brackets => exact sound_of_bracketNode? below built
  | call => exact sound_of_callNode? below met built
  | parameters field =>
    cases built
    refine sound_nodeAround rfl ?_
    clear met
    induction children with
    | nil => exact List.forall_mem_nil _
    | cons child rest ih =>
      rw [List.forall_mem_cons] at below
      exact sound_absorbName below.1 (ih below.2)

end

end Go

end AssetRefs
