import AssetRefs.Proofs.LoweringLaws

/-! # The layout of a lowered node

What one level of the lowering does, without the shapes: a node is that of a node it wraps, a name,
or a node with children. The events of the last kind are those of its children, in any order, and
its own events, with scopes opened and closed around some of them: see `Tells`. Every lowering has
this layout, so what holds of layouts holds of all lowerings: see `lower_induction`.
-/

namespace AssetRefs

open Lowering

namespace Declaration

/-- The nodes on the left-hand side of a declaration. -/
def names : Declaration → List Node
  | assignment _ left _ _ => left
  | valueSpec _ names _ _ _ => names

/-- The declaration brings its names into being. -/
def Defines : Declaration → Prop
  | assignment _ _ _ defines => defines
  | valueSpec .. => True

end Declaration

/-- What is known of the lowerings of nodes: place, concrete node, lowered node and events. -/
abbrev LoweringRelation := Address → Concrete → Node → List ScopeEvent → Prop

section

variable (lowers : LoweringRelation) (source : ByteArray) (place : Address) (tree : Concrete)

/-- A lowered node that is spelled by an identifier of the tree or lowered from a node of it. -/
inductive LoweredFrom : Node → Prop where
  | spelled {part : Concrete} : tree.HasIdentifier part → LoweredFrom (part.identNode source)
  | lowered {part : Concrete} {index : Nat} {child : Node} {told : List ScopeEvent} :
      tree.Contains part → lowers (index :: place) part child told → LoweredFrom child

/-- An event that comes with the node itself. -/
inductive OwnEvent (node : Node) : ScopeEvent → Prop where
  | package (name : String) : OwnEvent node (.package name)
  | marked {part : Concrete} (marker : Marker) : tree.HasIdentifier part →
      OwnEvent node (.declared (part.text source) part.label.start (.marker marker))
  | bound {declaration : Declaration} {site : Site} {name : String} {offset : Nat} :
      declaration.node = node → declaration.Defines →
      .ident site name offset ∈ declaration.names →
      LoweredFrom lowers source place tree (.ident site name offset) →
      OwnEvent node (.declared name offset (.declaration place declaration))

/-- The events of the children of a node and its own events, in scopes that are closed again. -/
inductive Tells (node : Node) : List ScopeEvent → Prop where
  | nil : Tells node []
  | own {event : ScopeEvent} {rest : List ScopeEvent} :
      OwnEvent lowers source place tree node event → Tells node rest →
      Tells node (event :: rest)
  | part {part : Concrete} {index : Nat} {child : Node} {told rest : List ScopeEvent} :
      tree.Contains part → node.children[index]? = some child →
      lowers (index :: place) part child told → Tells node rest → Tells node (told ++ rest)
  | scope {inner rest : List ScopeEvent} :
      Tells node inner → Tells node rest → Tells node (.opened :: (inner ++ .closed :: rest))

/-- What a node is lowered to and the events on the way, by the lowerings of the nodes in it. -/
inductive Layout : Node → List ScopeEvent → Prop where
  | wrapper {inner : Concrete} {node : Node} {events : List ScopeEvent} :
      tree.Contains inner → lowers place inner node events → Layout node events
  | name : tree.HasIdentifier tree →
      Layout (tree.identNode source) [.used (tree.text source) tree.label.start]
  | compound {node : Node} {events : List ScopeEvent} :
      (∀ site name offset, node ≠ .ident site name offset) →
      Tells lowers source place tree node events → Layout node events

/-- The relation has everything that `lower` gives for a tree. -/
def Covers (lower : Address → Concrete → Lowering Node) : Prop :=
  ∀ place node events, (lower place tree).Gives node events → lowers place tree node events

/-- The events of a row of children, whatever comes before and after them. -/
def Row (first : Nat) (nodes : List Node) (events : List ScopeEvent) : Prop :=
  ∀ node before after, before.length = first → node.children = before ++ nodes ++ after →
    Tells lowers source place tree node events

end

variable {lowers : LoweringRelation} {source : ByteArray} {place : Address} {tree : Concrete}

theorem Tells.append {node : Node} {first second : List ScopeEvent}
    (earlier : Tells lowers source place tree node first)
    (later : Tells lowers source place tree node second) :
    Tells lowers source place tree node (first ++ second) := by
  induction earlier with
  | nil => exact later
  | own event _ ih => exact .own event ih
  | part contained child lowered _ ih =>
    rw [List.append_assoc]
    exact .part contained child lowered ih
  | scope inner _ _ ih =>
    rw [List.cons_append, List.append_assoc, List.cons_append]
    exact .scope inner ih

namespace Row

theorem nil (first : Nat) : Row lowers source place tree first [] [] :=
  fun _ _ _ _ _ => .nil

theorem cons {first : Nat} {part : Concrete} {child : Node} {nodes : List Node}
    {told events : List ScopeEvent} (contained : tree.Contains part)
    (lowered : lowers (first :: place) part child told)
    (row : Row lowers source place tree (first + 1) nodes events) :
    Row lowers source place tree first (child :: nodes) (told ++ events) := by
  intro node before after size children
  refine .part contained ?_ lowered (row node (before ++ [child]) after ?_ ?_)
  · simp [children, ← size]
  · simp [size]
  · simp [children]

/-- A child of which the node tells nothing. -/
theorem cons_silent {first : Nat} {child : Node} {nodes : List Node} {events : List ScopeEvent}
    (row : Row lowers source place tree (first + 1) nodes events) :
    Row lowers source place tree first (child :: nodes) events := by
  intro node before after size children
  exact row node (before ++ [child]) after (by simp [size]) (by simp [children])

/-- A name that is declared where it stands. -/
theorem cons_marked {first : Nat} {part : Concrete} {child : Node} {nodes : List Node}
    {events : List ScopeEvent} (marker : Marker) (identifier : tree.HasIdentifier part)
    (row : Row lowers source place tree (first + 1) nodes events) :
    Row lowers source place tree first (child :: nodes)
      (.declared (part.text source) part.label.start (.marker marker) :: events) := by
  intro node before after size children
  exact .own (.marked marker identifier) (row.cons_silent node before after size children)

theorem append {first next : Nat} {nodes later : List Node} {told events : List ScopeEvent}
    (row : Row lowers source place tree first nodes told) (size : next = first + nodes.length)
    (rest : Row lowers source place tree next later events) :
    Row lowers source place tree first (nodes ++ later) (told ++ events) := by
  intro node before after start children
  exact (row node before (later ++ after) start (by simp [children])).append
    (rest node (before ++ nodes) after (by simp [start, size]) (by simp [children]))

/-- A row of all the children makes a node. -/
theorem layout {node : Node} {events : List ScopeEvent}
    (row : Row lowers source place tree 0 node.children events)
    (compound : ∀ site name offset, node ≠ .ident site name offset) :
    Layout lowers source place tree node events :=
  .compound compound (row node [] [] rfl (by simp))

end Row

/-! ## Rows of children -/

section

variable (source) {lower : Address → Concrete → Lowering Node}

theorem row_of_lowerAll {first : Nat} {trees : List Concrete} {nodes : List Node}
    {events : List ScopeEvent} (inside : ∀ part ∈ trees, tree.Contains part)
    (covers : ∀ part ∈ trees, Covers lowers part lower)
    (gives : (lowerAll lower place first trees).Gives nodes events) :
    Row lowers source place tree first nodes events := by
  induction trees generalizing first nodes events with
  | nil =>
    obtain ⟨rfl, rfl⟩ := gives_pure_iff.mp gives
    exact .nil first
  | cons part rest ih =>
    rw [lowerAll, gives_cons_iff] at gives
    obtain ⟨child, told, nodes, later, lowered, followed, rfl, rfl⟩ := gives
    rw [List.forall_mem_cons] at inside covers
    exact .cons inside.1 (covers.1 _ _ _ lowered) (ih inside.2 covers.2 followed)

/-- A shapeless node tells of its parts. -/
theorem tells_of_lowerGeneric {node : Node} {events : List ScopeEvent}
    (covers : ∀ part ∈ tree.parts, Covers lowers part (lowerPart lower))
    (gives : (lowerGeneric lower place tree).Gives node events) :
    (∃ nodes, node = .generic tree.site nodes) ∧
      Tells lowers source place tree node events := by
  simp only [lowerGeneric_eq, gives_bind_iff, gives_emitIf_iff, gives_pure_iff] at gives
  obtain ⟨_, _, _, rfl, gives, rfl⟩ := gives
  obtain ⟨nodes, told, _, lowered, gives, rfl⟩ := gives
  obtain ⟨_, _, _, rfl, ⟨rfl, rfl⟩, rfl⟩ := gives
  have row := row_of_lowerAll source (fun _ => Concrete.contains_of_mem_parts) covers lowered
  have tells := row (.generic tree.site nodes) [] [] rfl (by simp [Node.children])
  refine ⟨⟨nodes, rfl⟩, ?_⟩
  split_ifs
  · exact .scope tells .nil
  · simpa using tells

section

variable (covers : ∀ part, Covers lowers part lower)

include covers

theorem row_of_lowerOption {first : Nat} {part : Option Concrete} {node : Option Node}
    {events : List ScopeEvent} (contained : ∀ inner ∈ part.toList, tree.Contains inner)
    (gives : (lowerOption lower (first :: place) part).Gives node events) :
    Row lowers source place tree first node.toList events := by
  cases part with
  | none =>
    obtain ⟨rfl, rfl⟩ := gives_pure_iff.mp gives
    exact .nil first
  | some inner =>
    simp only [lowerOption, gives_bind_iff, gives_pure_iff] at gives
    obtain ⟨child, told, _, lowered, ⟨rfl, rfl⟩, rfl⟩ := gives
    exact .cons (contained inner (by simp)) (covers _ _ _ _ lowered) (.nil _)

theorem row_of_lowerTargets {first : Nat} {trees : List Concrete} {nodes : List Node}
    {events : List ScopeEvent} (contained : ∀ part ∈ trees, tree.Contains part)
    (gives : (lowerTargets source lower place first trees).Gives nodes events) :
    Row lowers source place tree first nodes events ∧ nodes.length = trees.length ∧
      ∀ node ∈ nodes, LoweredFrom lowers source place tree node := by
  induction trees generalizing first nodes events with
  | nil =>
    obtain ⟨rfl, rfl⟩ := gives_pure_iff.mp gives
    exact ⟨.nil first, rfl, by simp⟩
  | cons part rest ih =>
    rw [List.forall_mem_cons] at contained
    unfold lowerTargets at gives
    split_ifs at gives with named
    · simp only [pure_bind, gives_bind_iff, gives_pure_iff] at gives
      obtain ⟨nodes, later, _, followed, ⟨rfl, rfl⟩, rfl⟩ := gives
      obtain ⟨row, size, origins⟩ := ih contained.2 followed
      have identifier := Concrete.HasIdentifier.of_kind contained.1 named
      rw [List.append_nil, List.forall_mem_cons, List.length_cons, List.length_cons, size]
      exact ⟨.cons_silent row, rfl, .spelled identifier, origins⟩
    · rw [gives_cons_iff] at gives
      obtain ⟨child, told, nodes, later, lowered, followed, rfl, rfl⟩ := gives
      obtain ⟨row, size, origins⟩ := ih contained.2 followed
      rw [List.forall_mem_cons, List.length_cons, List.length_cons, size]
      have known := covers _ _ _ _ lowered
      exact ⟨.cons contained.1 known row, rfl, .lowered contained.1 known, origins⟩

theorem row_of_lowerMarked {marker : Marker} {first : Nat} {trees : List Concrete}
    {nodes : List Node} {events : List ScopeEvent}
    (contained : ∀ part ∈ trees, tree.Contains part)
    (gives : (lowerMarked source marker lower place first trees).Gives nodes events) :
    Row lowers source place tree first nodes events ∧ nodes.length = trees.length := by
  induction trees generalizing first nodes events with
  | nil =>
    obtain ⟨rfl, rfl⟩ := gives_pure_iff.mp gives
    exact ⟨.nil first, rfl⟩
  | cons part rest ih =>
    rw [List.forall_mem_cons] at contained
    unfold lowerMarked at gives
    split_ifs at gives with named
    · simp only [pure_bind, gives_bind_iff, gives_emit_iff, gives_pure_iff] at gives
      obtain ⟨_, _, _, rfl, ⟨nodes, later, _, followed, ⟨rfl, rfl⟩, rfl⟩, rfl⟩ := gives
      have identifier := Concrete.HasIdentifier.of_kind contained.1 named
      obtain ⟨row, size⟩ := ih contained.2 followed
      rw [List.append_nil, List.length_cons, List.length_cons, size]
      exact ⟨.cons_marked marker identifier row, rfl⟩
    · rw [gives_cons_iff] at gives
      obtain ⟨child, told, nodes, later, lowered, followed, rfl, rfl⟩ := gives
      obtain ⟨row, size⟩ := ih contained.2 followed
      rw [List.length_cons, List.length_cons, size]
      exact ⟨.cons contained.1 (covers _ _ _ _ lowered) row, rfl⟩

theorem row_of_lowerKey {first : Nat} {part : Concrete} {child : Node} {nodes : List Node}
    {told events : List ScopeEvent} (contained : tree.Contains part)
    (gives : (lowerKey source lower (first :: place) part).Gives child told)
    (row : Row lowers source place tree (first + 1) nodes events) :
    Row lowers source place tree first (child :: nodes) (told ++ events) := by
  simp only [lowerKey] at gives
  split_ifs at gives
  · obtain ⟨rfl, rfl⟩ := gives_pure_iff.mp gives
    exact .cons_silent row
  · exact .cons (contained.trans part.contains_unwrapped) (covers _ _ _ _ gives) row

theorem row_of_lowerSwitch {bound value : Option Concrete} {first : Nat} {trees : List Concrete}
    {nodes : List Node} {events : List ScopeEvent}
    (contained : ∀ part ∈ trees, tree.Contains part)
    (names : ∀ part ∈ (bound.map Concrete.listed).getD [], tree.Contains part)
    (gives : (lowerSwitch source bound value lower place first trees).Gives nodes events) :
    Row lowers source place tree first nodes events := by
  induction trees generalizing first nodes events with
  | nil =>
    obtain ⟨rfl, rfl⟩ := gives_pure_iff.mp gives
    exact .nil first
  | cons part rest ih =>
    rw [List.forall_mem_cons] at contained
    unfold lowerSwitch at gives
    by_cases skipped : bound.any part.sameAs
    · rw [if_pos skipped] at gives
      exact ih contained.2 gives
    rw [if_neg skipped] at gives
    split_ifs at gives with switched
    · simp only [gives_bind_iff, gives_pure_iff] at gives
      obtain ⟨child, told, _, lowered, ⟨marked, own, _, listed, ⟨later, last, _, followed,
        ⟨rfl, rfl⟩, rfl⟩, rfl⟩, rfl⟩ := gives
      obtain ⟨namesRow, _⟩ := row_of_lowerMarked source covers names listed
      have row := namesRow.append rfl (ih contained.2 followed)
      rw [List.append_nil]
      exact .cons contained.1 (covers _ _ _ _ lowered) row
    · simp only [pure_bind, List.singleton_append, gives_cons_iff] at gives
      obtain ⟨child, told, later, last, lowered, followed, rfl, rfl⟩ := gives
      exact .cons contained.1 (covers _ _ _ _ lowered) (ih contained.2 followed)

end

theorem row_of_lowerParameters {first : Nat} {trees : List Concrete} {nodes : List Node}
    {events : List ScopeEvent} (identifiers : ∀ part ∈ trees, tree.HasIdentifier part)
    (gives : (lowerParameters source trees).Gives nodes events) :
    Row lowers source place tree first nodes events := by
  induction trees generalizing first nodes events with
  | nil =>
    obtain ⟨rfl, rfl⟩ := gives_pure_iff.mp gives
    exact .nil first
  | cons part rest ih =>
    simp only [lowerParameters, gives_bind_iff, gives_emit_iff, gives_pure_iff] at gives
    obtain ⟨_, _, _, rfl, ⟨nodes, later, _, followed, ⟨rfl, rfl⟩, rfl⟩, rfl⟩ := gives
    rw [List.append_nil]
    rw [List.forall_mem_cons] at identifiers
    exact .cons_marked .param identifiers.1 (ih identifiers.2 followed)

/-! ## Every lowering has a layout -/

theorem contains_of_mem_listed {list : Option Concrete}
    (contained : ∀ part ∈ list.toList, tree.Contains part) :
    ∀ part ∈ (list.map Concrete.listed).getD [], tree.Contains part := by
  intro part member
  cases list with
  | none => cases member
  | some inner => exact (contained inner (by simp)).trans (Concrete.contains_of_mem_listed member)

/-- What a declaration tells of a node on its left-hand side. -/
def declaredAs (target : Binding) : Node → List ScopeEvent
  | .ident _ name offset => [.declared name offset target]
  | _ => []

theorem gives_declareNode (target : Binding) (node : Node) :
    (declareNode target node).Gives () (declaredAs target node) := by
  cases node <;> rfl

/-- The names on the left-hand side of a declaration come with it. -/
theorem tells_declared (declaration : Declaration) (defines : declaration.Defines)
    (origins : ∀ node ∈ declaration.names, LoweredFrom lowers source place tree node) :
    Tells lowers source place tree declaration.node
      (declaration.names.flatMap (declaredAs (.declaration place declaration))) := by
  suffices ∀ nodes : List Node, (∀ node ∈ nodes, node ∈ declaration.names) →
      Tells lowers source place tree declaration.node
        (nodes.flatMap (declaredAs (.declaration place declaration))) from
    this _ fun _ member => member
  intro nodes listed
  induction nodes with
  | nil => exact .nil
  | cons node rest ih =>
    rw [List.forall_mem_cons] at listed
    rw [List.flatMap_cons]
    cases node with
    | ident site name offset =>
      exact .own (.bound rfl defines listed.1 (origins _ listed.1)) (ih listed.2)
    | _ => exact ih listed.2

theorem tells_package {node : Node} (names : List Concrete) :
    Tells lowers source place tree node
      (names.flatMap fun name => [.package (name.text source)]) := by
  induction names with
  | nil => exact .nil
  | cons name rest ih => exact .own (.package _) ih

/-- What a function gives: its name is declared outside the scope of its signature and body. -/
theorem gives_function {declares : Bool} {name : Option Concrete} {signature : List Concrete}
    {body : Option (List Concrete)} {node : Node} {events : List ScopeEvent}
    (shaped : tree.shape = .function declares name signature body)
    (gives : (lowerShape source lower place tree).Gives node events) :
    ∃ nodes block told later, (lowerAll lower place 0 signature).Gives nodes told ∧
      (lowerAll lower place nodes.length (body.getD [])).Gives (Option.getD block []) later ∧
      node = .function tree.site ((name.map (·.text source)).getD "") nodes block ∧
      events = (name.toList.filter fun _ => declares).map (fun name =>
          .declared (name.text source) name.label.start (.marker .func)) ++
        .opened :: (told ++ later ++ [.closed]) := by
  unfold lowerShape at gives
  rw [shaped] at gives
  rcases name with _ | name <;> rcases body with _ | statements
  all_goals
    simp only [gives_bind_iff, gives_emit_iff, gives_emitIf_iff, gives_pure_iff, pure_bind,
      map_eq_pure_bind] at gives
  · obtain ⟨_, _, _, rfl, gives, rfl⟩ := gives
    obtain ⟨nodes, told, _, lowered, gives, rfl⟩ := gives
    obtain ⟨_, _, _, rfl, ⟨rfl, rfl⟩, rfl⟩ := gives
    exact ⟨nodes, none, told, [], lowered, gives_pure_iff.mpr ⟨rfl, rfl⟩, rfl, by simp⟩
  · obtain ⟨_, _, _, rfl, gives, rfl⟩ := gives
    obtain ⟨nodes, told, _, lowered, gives, rfl⟩ := gives
    obtain ⟨_, _, _, ⟨block, later, _, stated, ⟨rfl, rfl⟩, rfl⟩, gives, rfl⟩ := gives
    obtain ⟨_, _, _, rfl, ⟨rfl, rfl⟩, rfl⟩ := gives
    exact ⟨nodes, some block, told, later, lowered, stated, rfl, by simp⟩
  · obtain ⟨_, _, _, rfl, gives, rfl⟩ := gives
    obtain ⟨_, _, _, rfl, gives, rfl⟩ := gives
    obtain ⟨nodes, told, _, lowered, gives, rfl⟩ := gives
    obtain ⟨_, _, _, rfl, ⟨rfl, rfl⟩, rfl⟩ := gives
    refine ⟨nodes, none, told, [], lowered, gives_pure_iff.mpr ⟨rfl, rfl⟩, rfl, ?_⟩
    cases declares <;> simp
  · obtain ⟨_, _, _, rfl, gives, rfl⟩ := gives
    obtain ⟨_, _, _, rfl, gives, rfl⟩ := gives
    obtain ⟨nodes, told, _, lowered, gives, rfl⟩ := gives
    obtain ⟨_, _, _, ⟨block, later, _, stated, ⟨rfl, rfl⟩, rfl⟩, gives, rfl⟩ := gives
    obtain ⟨_, _, _, rfl, ⟨rfl, rfl⟩, rfl⟩ := gives
    refine ⟨nodes, some block, told, later, lowered, stated, rfl, ?_⟩
    cases declares <;> simp

/-- One level of the lowering has a layout. -/
theorem layout_of_lowerShape (covers : ∀ part, Covers lowers part lower)
    (coversParts : ∀ part, Covers lowers part (lowerPart lower)) {node : Node}
    {events : List ScopeEvent} (gives : (lowerShape source lower place tree).Gives node events) :
    Layout lowers source place tree node events := by
  have inside : ∀ part ∈ tree.shape.members, tree.Contains part :=
    fun _ => Concrete.contains_of_mem_shape
  have spelled : ∀ part ∈ tree.shape.names, tree.HasIdentifier part :=
    fun _ => .named .self
  have generic {node : Node} {events : List ScopeEvent}
      (gives : (lowerGeneric lower place tree).Gives node events) :=
    tells_of_lowerGeneric source (fun part _ => coversParts part) gives
  have all {first : Nat} {trees : List Concrete} {nodes : List Node} {events : List ScopeEvent}
      (inside : ∀ part ∈ trees, tree.Contains part)
      (gives : (lowerAll lower place first trees).Gives nodes events) :=
    row_of_lowerAll source inside (fun part _ => covers part) gives
  have given := gives
  unfold lowerShape at gives
  generalize shaped : tree.shape = shape at gives inside spelled
  cases shape with
  | name =>
    simp only [gives_bind_iff, gives_emit_iff, gives_pure_iff] at gives
    obtain ⟨_, _, _, rfl, ⟨rfl, rfl⟩, rfl⟩ := gives
    exact .name (.plain .self shaped)
  | literal =>
    obtain ⟨rfl, rfl⟩ := gives_pure_iff.mp gives
    exact .compound (by simp) .nil
  | call callee arguments =>
    simp only [Shape.members, List.forall_mem_append] at inside
    simp only [gives_bind_iff, gives_required_iff, gives_pure_iff] at gives
    obtain ⟨callee, _, _, ⟨rfl, rfl⟩, gives, rfl⟩ := gives
    obtain ⟨function, told, _, called, gives, rfl⟩ := gives
    obtain ⟨nodes, later, _, passed, ⟨rfl, rfl⟩, rfl⟩ := gives
    rw [List.append_nil]
    refine Row.layout ?_ (by simp)
    exact .cons (inside.1 callee (by simp)) (covers _ _ _ _ called) (all inside.2 passed)
  | selector operand member =>
    simp only [Shape.members, List.forall_mem_append] at inside
    simp only [gives_bind_iff, gives_required_iff, gives_pure_iff] at gives
    obtain ⟨part, _, _, ⟨rfl, rfl⟩, gives, rfl⟩ := gives
    obtain ⟨inner, told, _, lowered, ⟨rfl, rfl⟩, rfl⟩ := gives
    refine Row.layout ?_ (by simp)
    exact .cons (inside.1 part (by simp)) (covers _ _ _ _ lowered) (.nil 1)
  | composite type elements =>
    simp only [Shape.members, List.forall_mem_append] at inside
    simp only [gives_bind_iff, gives_pure_iff] at gives
    obtain ⟨typed, told, _, typing, gives, rfl⟩ := gives
    obtain ⟨nodes, later, _, listed, ⟨rfl, rfl⟩, rfl⟩ := gives
    rw [List.append_nil]
    refine Row.layout ?_ (by simp)
    exact (row_of_lowerOption source covers inside.1 typing).append (Nat.zero_add _).symm
      (all inside.2 listed)
  | wrapper inner =>
    exact .wrapper (inside inner (List.mem_singleton_self inner)) (covers _ _ _ _ gives)
  | keyed parts =>
    dsimp only at gives
    split at gives
    · next key value first last =>
      simp only [gives_bind_iff, gives_pure_iff] at gives
      obtain ⟨keyNode, told, _, keyed, gives, rfl⟩ := gives
      obtain ⟨valueNode, later, _, lowered, ⟨rfl, rfl⟩, rfl⟩ := gives
      refine Row.layout ?_ (by simp)
      exact row_of_lowerKey source covers (inside key (List.mem_of_mem_head? first)) keyed
        (.cons (inside value (List.mem_of_getLast? last)) (covers _ _ _ _ lowered) (.nil 2))
    · cases gives
  | closure =>
    obtain ⟨inner, told, lowered, rfl, rfl⟩ := gives_scope_iff.mp gives
    obtain ⟨⟨nodes, rfl⟩, tells⟩ := generic lowered
    exact .compound (by simp) (.scope tells .nil)
  | statement inner =>
    simp only [gives_bind_iff, gives_pure_iff] at gives
    obtain ⟨child, told, _, lowered, ⟨rfl, rfl⟩, rfl⟩ := gives
    refine Row.layout ?_ (by simp)
    exact .cons (inside inner (List.mem_singleton_self inner)) (covers _ _ _ _ lowered) (.nil 1)
  | define left right =>
    simp only [Shape.members, List.forall_mem_append] at inside
    simp only [gives_bind_iff, gives_required_iff, gives_pure_iff,
      gives_forM_iff (gives_declareNode _)] at gives
    obtain ⟨values, told, _, valued, ⟨_, _, _, ⟨rfl, rfl⟩, ⟨targets, later, _, targeted,
      ⟨_, _, _, rfl, ⟨rfl, rfl⟩, rfl⟩, rfl⟩, rfl⟩, rfl⟩ := gives
    obtain ⟨row, size, origins⟩ :=
      row_of_lowerTargets source covers (contains_of_mem_listed inside.1) targeted
    refine .compound (by simp) (.append ?_ (.append .nil (.append ?_ (.append ?_ .nil))))
    · exact all (contains_of_mem_listed inside.2) valued _ targets [] size
        (by simp [Node.children])
    · exact row _ [] values rfl (by simp [Node.children])
    · exact tells_declared source (.assignment tree.site targets values true) rfl origins
  | assign left right =>
    simp only [Shape.members, List.forall_mem_append] at inside
    simp only [gives_bind_iff, gives_pure_iff] at gives
    obtain ⟨targets, told, _, targeted, gives, rfl⟩ := gives
    obtain ⟨values, later, _, valued, ⟨rfl, rfl⟩, rfl⟩ := gives
    rw [List.append_nil]
    refine Row.layout ?_ (by simp)
    exact (all (contains_of_mem_listed inside.1) targeted).append (Nat.zero_add _).symm
      (all (contains_of_mem_listed inside.2) valued)
  | block statements =>
    obtain ⟨nodes, told, lowered, rfl, rfl⟩ := gives_scope_iff.mp gives
    have row := all inside lowered
    exact .compound (by simp) (.scope (row _ [] [] rfl (by simp [Node.children])) .nil)
  | binder marker left right =>
    simp only [Shape.members, List.forall_mem_append] at inside
    simp only [gives_bind_iff, gives_required_iff, gives_pure_iff] at gives
    obtain ⟨right, _, _, ⟨rfl, rfl⟩, gives, rfl⟩ := gives
    obtain ⟨value, told, _, valued, gives, rfl⟩ := gives
    obtain ⟨names, later, _, marked, ⟨rfl, rfl⟩, rfl⟩ := gives
    obtain ⟨row, size⟩ :=
      row_of_lowerMarked source covers (contains_of_mem_listed inside.1) marked
    refine .compound (by simp) (.part (inside.2 right (by simp)) ?_ (covers _ _ _ _ valued)
      (.append ?_ .nil))
    · simp [Node.children, ← size]
    · exact row _ [] [value] rfl (by simp [Node.children])
  | typeSwitch bound value parts =>
    simp only [Shape.members, List.forall_mem_append] at inside
    obtain ⟨nodes, told, lowered, rfl, rfl⟩ := gives_scope_iff.mp gives
    have names := contains_of_mem_listed inside.1.1
    have row := row_of_lowerSwitch source covers inside.2 names lowered
    exact .compound (by simp) (.scope (row _ [] [] rfl (by simp [Node.children])) .nil)
  | packageClause names =>
    simp only [gives_bind_iff, gives_forM_iff (fun _ => gives_emit_iff.mpr rfl)] at gives
    obtain ⟨_, _, _, rfl, lowered, rfl⟩ := gives
    obtain ⟨⟨nodes, rfl⟩, tells⟩ := generic lowered
    exact .compound (by simp) ((tells_package source names).append tells)
  | group specs =>
    simp only [gives_bind_iff, gives_pure_iff] at gives
    obtain ⟨nodes, told, _, lowered, ⟨rfl, rfl⟩, rfl⟩ := gives
    rw [List.append_nil]
    exact Row.layout (all inside lowered) (by simp)
  | valueSpec constant names type value =>
    simp only [Shape.members, List.forall_mem_append] at inside
    simp only [gives_bind_iff, gives_pure_iff, gives_forM_iff (gives_declareNode _)] at gives
    obtain ⟨typed, told, _, typing, gives, rfl⟩ := gives
    obtain ⟨values, later, _, valued, gives, rfl⟩ := gives
    obtain ⟨_, _, _, rfl, ⟨rfl, rfl⟩, rfl⟩ := gives
    have typeRow := row_of_lowerOption source covers inside.1.2 typing
    have row := all (contains_of_mem_listed inside.2) valued
    refine .compound (by simp) (.append ?_ (.append ?_ (.append ?_ .nil)))
    · exact typeRow _ (names.map (·.identNode source)) values (by simp) (by simp [Node.children])
    · exact row _ (names.map (·.identNode source) ++ typed.toList) [] (by simp)
        (by simp [Node.children])
    · refine tells_declared source (.valueSpec tree.site _ typed values constant) trivial ?_
      intro node member
      obtain ⟨name, listed, rfl⟩ := List.mem_map.mp member
      exact .spelled (spelled name listed)
  | function declares name signature body =>
    simp only [Shape.members, List.forall_mem_append] at inside
    obtain ⟨nodes, block, told, later, lowered, stated, rfl, rfl⟩ :=
      gives_function source shaped given
    have row := (all inside.1.2 lowered).append (Nat.zero_add _).symm (all inside.2 stated)
    refine .compound (by simp) (.append ?_ (.scope (row _ [] [] rfl ?_) .nil))
    · cases name with
      | none => exact .nil
      | some name =>
        cases declares with
        | false => exact .nil
        | true => exact .own (.marked .func (spelled name (by simp [Shape.names]))) .nil
    · simp [Node.children]
  | parameter names type =>
    simp only [Shape.members, List.forall_mem_append] at inside
    simp only [gives_bind_iff, gives_pure_iff] at gives
    obtain ⟨nodes, told, _, listed, gives, rfl⟩ := gives
    obtain ⟨typed, later, _, typing, ⟨rfl, rfl⟩, rfl⟩ := gives
    rw [List.append_nil]
    refine Row.layout ?_ (by simp)
    exact (row_of_lowerParameters source spelled listed).append (Nat.zero_add _).symm
      (row_of_lowerOption source covers inside.2 typing)
  | shapeless =>
    obtain ⟨⟨nodes, rfl⟩, tells⟩ := generic gives
    exact .compound (by simp) tells

/-- What every layout keeps holds of shapeless nodes if it holds of the nodes with a shape. -/
theorem covers_lowerPart
    (step : ∀ {place tree node events}, Layout lowers source place tree node events →
      lowers place tree node events)
    (covers : ∀ part, Covers lowers part lower) (tree : Concrete) :
    Covers lowers tree (lowerPart lower) := by
  induction size : tree.weight using Nat.strongRecOn generalizing tree with
  | ind size ih =>
    subst size
    intro place node events gives
    unfold lowerPart at gives
    split_ifs at gives
    · have parts (part : Concrete) (member : part ∈ tree.parts) :
          Covers lowers part (lowerPart lower) :=
        ih _ (Concrete.encloses_of_mem_parts member).weight_lt part rfl
      obtain ⟨⟨nodes, rfl⟩, tells⟩ := tells_of_lowerGeneric source parts gives
      exact step (.compound (by simp) tells)
    · exact covers tree place node events gives

end

/-- What every layout keeps holds of every lowering. -/
theorem lower_induction
    (step : ∀ {place tree node events}, Layout lowers source place tree node events →
      lowers place tree node events) (limit : Nat) (tree : Concrete) :
    Covers lowers tree (lower source limit) := by
  induction limit generalizing tree with
  | zero =>
    intro place node events gives
    cases gives
  | succ limit ih =>
    intro place node events gives
    exact step (layout_of_lowerShape source ih (covers_lowerPart source step ih) gives)

end AssetRefs
