import AssetRefs.Proofs.SoundTrees

/-! # What the parser does to the open nodes

The parser keeps the children of the nodes that are open on a stack. What a rule of the grammar does
to this stack is known without expanding the rule: it makes one node, changes the last one, closes
an open node, or touches the innermost open node only. `Item.Before` says what has to hold of the
stack for something to hold of it after an item, and `Rule.beforeAll_items` that a rule may be
replaced by whatever it expands to.
-/

namespace AssetRefs.Go

open Concrete

/-- The children of the open nodes, innermost node and last child first. -/
abbrev OpenNodes := List (List Concrete)

/-! ## Effects

Each of these says what has to hold of the open nodes for `after` to hold after a rule of some
kind. -/

namespace OpenNodes

variable (after : OpenNodes → Prop) (needs : List Concrete → Prop)

/-- The rule makes one node with some property. -/
@[simp] def Pushes (made : Concrete → Prop) : OpenNodes → Prop
  | inner :: outer => ∀ child, made child → after ((child :: inner) :: outer)
  | [] => False

/-- The rule changes the last node made. -/
@[simp] def Amends : OpenNodes → Prop
  | (_ :: inner) :: outer => ∀ child, after ((child :: inner) :: outer)
  | _ => False

/-- The rule touches the innermost open node only. -/
@[simp] def Stays : OpenNodes → Prop
  | _ :: outer => ∀ changed, after (changed :: outer)
  | [] => False

/-- The rule closes the innermost open node. -/
@[simp] def Closes : OpenNodes → Prop
  | children :: inner :: outer => needs children ∧ ∀ child, after ((child :: inner) :: outer)
  | _ => False

/-- The rule gives the innermost open node up to the one around it. -/
@[simp] def Merges : OpenNodes → Prop
  | _ :: _ :: outer => ∀ changed, after (changed :: outer)
  | _ => False

/-- The rule closes the two innermost open nodes. -/
@[simp] def Finishes : OpenNodes → Prop
  | children :: _ :: inner :: outer => needs children ∧ ∀ child, after ((child :: inner) :: outer)
  | _ => False

variable {after : OpenNodes → Prop} {needs : List Concrete → Prop} {nodes : OpenNodes}

theorem Pushes.elim {made : Concrete → Prop} (pushes : Pushes after made nodes) :
    ∃ inner outer, nodes = inner :: outer ∧
      ∀ child, made child → after ((child :: inner) :: outer) := by
  rcases nodes with _ | ⟨inner, outer⟩
  · exact False.elim pushes
  · exact ⟨inner, outer, rfl, pushes⟩

theorem Amends.elim (amends : Amends after nodes) : ∃ last inner outer,
    nodes = (last :: inner) :: outer ∧ ∀ child, after ((child :: inner) :: outer) := by
  rcases nodes with _ | ⟨_ | ⟨last, inner⟩, outer⟩
  · exact False.elim amends
  · exact False.elim amends
  · exact ⟨last, inner, outer, rfl, amends⟩

theorem Stays.elim (stays : Stays after nodes) :
    ∃ inner outer, nodes = inner :: outer ∧ ∀ changed, after (changed :: outer) := by
  rcases nodes with _ | ⟨inner, outer⟩
  · exact False.elim stays
  · exact ⟨inner, outer, rfl, stays⟩

theorem Closes.elim (closes : Closes after needs nodes) : ∃ children inner outer,
    nodes = children :: inner :: outer ∧ needs children ∧
      ∀ child, after ((child :: inner) :: outer) := by
  rcases nodes with _ | ⟨children, _ | ⟨inner, outer⟩⟩
  · exact False.elim closes
  · exact False.elim closes
  · exact ⟨children, inner, outer, rfl, closes⟩

theorem Merges.elim (merges : Merges after nodes) : ∃ children inner outer,
    nodes = children :: inner :: outer ∧ ∀ changed, after (changed :: outer) := by
  rcases nodes with _ | ⟨children, _ | ⟨inner, outer⟩⟩
  · exact False.elim merges
  · exact False.elim merges
  · exact ⟨children, inner, outer, rfl, merges⟩

theorem Finishes.elim (finishes : Finishes after needs nodes) : ∃ children middle inner outer,
    nodes = children :: middle :: inner :: outer ∧ needs children ∧
      ∀ child, after ((child :: inner) :: outer) := by
  rcases nodes with _ | ⟨children, _ | ⟨middle, _ | ⟨inner, outer⟩⟩⟩
  · exact False.elim finishes
  · exact False.elim finishes
  · exact False.elim finishes
  · exact ⟨children, middle, inner, outer, rfl, finishes⟩

end OpenNodes

open OpenNodes

/-- There is a left side among the children. -/
@[simp] def HasLeft (children : List Concrete) : Prop := ∃ child ∈ children, fills "left" child

/-- What has to hold of the open nodes before a rule for types. -/
@[simp] def TypeRule.Before (after : OpenNodes → Prop) (nodes : OpenNodes) : TypeRule → Prop
  | .whole _ => Pushes after (fun _ => True) nodes
  | .arguments _ => Amends after nodes
  | .union kind _ _ => (∀ children, isBuilt kind children) ∧ Stays after nodes
  | _ => Stays after nodes

/-- What has to hold of the open nodes before a rule for expressions. -/
@[simp] def ExpressionRule.Before (after : OpenNodes → Prop) (nodes : OpenNodes) :
    ExpressionRule → Prop
  | .whole _ | .unary _ | .operand | .list .. => Pushes after (fun _ => True) nodes
  | .element => Pushes after (fun child => child.isPart) nodes
  | .operators .. | .suffixes _ => Amends after nodes
  | .afterSignature => Closes after (fun _ => True) nodes
  | _ => Stays after nodes

/-- What has to hold of the open nodes before a rule for statements. -/
@[simp] def StatementRule.Before (after : OpenNodes → Prop) (nodes : OpenNodes) :
    StatementRule → Prop
  | .assigned .. => Closes after HasLeft nodes
  | .simple .. | .loopClause | .switchHeader | .switchValue | .typeSwitch | .communication
  | .received => Closes after (fun _ => True) nodes
  | .condition | .afterLoopExpression => Merges after nodes
  | .switchExpression _ => Finishes after (fun _ => True) nodes
  | .switchNames _ => Finishes after HasLeft nodes
  | .switchDefinition _ => Finishes after (fun children => HasLeft children.tail) nodes
  | _ => Stays after nodes

/-- What has to hold of the open nodes before a rule for declarations. -/
@[simp] def DeclarationRule.Before (after : OpenNodes → Prop) (nodes : OpenNodes) :
    DeclarationRule → Prop
  | .typeDefinition => Closes after (fun _ => True) nodes
  | _ => Stays after nodes

/-- What has to hold of the open nodes before a rule. -/
@[simp] def Rule.Before (after : OpenNodes → Prop) (nodes : OpenNodes) : Rule → Prop
  | .type rule => rule.Before after nodes
  | .expression rule => rule.Before after nodes
  | .statement rule => rule.Before after nodes
  | .declaration rule => rule.Before after nodes

/-- What has to hold of the open nodes before an item; an item that cannot be done needs nothing. -/
def Item.Before (after : OpenNodes → Prop) (nodes : OpenNodes) : Item → Prop
  | .mark _ | .anyMark _ | .literal | .stringLiteral _ =>
    ∀ inner outer, nodes = inner :: outer → ∀ child, after ((child :: inner) :: outer)
  | .markAs _ kind _ | .name kind _ => isBuilt kind [] ∧
    ∀ inner outer, nodes = inner :: outer → ∀ child, after ((child :: inner) :: outer)
  | .terminator => after nodes
  | .enter => after ([] :: nodes)
  | .wrap field => ∀ last inner outer, nodes = (last :: inner) :: outer →
    after ([inField field last] :: inner :: outer)
  | .leave closing => ∀ children inner outer, nodes = children :: inner :: outer →
    closing.isMet children ∧ ∀ node, closing.build? children.reverse = some node →
      after ((node :: inner) :: outer)
  | .dissolve => ∀ children inner outer, nodes = children :: inner :: outer →
    after ((children ++ inner) :: outer)
  | .label field => ∀ last inner outer, nodes = (last :: inner) :: outer →
    after ((inField (some field) last :: inner) :: outer)
  | .moveField _ _ => ∀ children outer, nodes = children :: outer →
    ∀ moved, after (moved :: outer)
  | .retype => ∀ last inner outer, nodes = (last :: inner) :: outer →
    ∀ type, after ((type :: inner) :: outer)
  | .rule expanded => expanded.Before after nodes

/-- What has to hold of the open nodes before several items. -/
def BeforeAll (after : OpenNodes → Prop) : OpenNodes → List Item → Prop
  | nodes, [] => after nodes
  | nodes, item :: rest => item.Before (fun nodes => BeforeAll after nodes rest) nodes

section

variable {after : OpenNodes → Prop} {nodes outer : OpenNodes} {inner children : List Concrete}
  {rest : List Item} {text kind name : String} {field : Option String}

theorem forall_cons_iff {holds : List Concrete → OpenNodes → Prop} :
    (∀ first others, inner :: outer = first :: others → holds first others) ↔
      holds inner outer := by
  constructor
  · intro all
    exact all inner outer rfl
  · rintro here _ _ ⟨⟩
    exact here

theorem forall_cons_cons_iff {holds : Concrete → List Concrete → OpenNodes → Prop} :
    (∀ last inner others, children :: outer = (last :: inner) :: others → holds last inner others) ↔
      ∀ last inner, children = last :: inner → holds last inner outer := by
  constructor
  · rintro all last inner rfl
    exact all last inner outer rfl
  · rintro all last inner _ ⟨⟩
    exact all last inner rfl

theorem forall_two_iff {holds : List Concrete → List Concrete → OpenNodes → Prop} :
    (∀ first second others, children :: inner :: outer = first :: second :: others →
      holds first second others) ↔ holds children inner outer := by
  constructor
  · intro all
    exact all children inner outer rfl
  · rintro here _ _ _ ⟨⟩
    exact here

@[simp] theorem beforeAll_nil : BeforeAll after nodes [] ↔ after nodes := Iff.rfl

@[simp] theorem beforeAll_mark : BeforeAll after (inner :: outer) (.mark text :: rest) ↔
    ∀ child, BeforeAll after ((child :: inner) :: outer) rest :=
  forall_cons_iff

@[simp] theorem beforeAll_anyMark : BeforeAll after (inner :: outer) (.anyMark field :: rest) ↔
    ∀ child, BeforeAll after ((child :: inner) :: outer) rest :=
  forall_cons_iff

@[simp] theorem beforeAll_literal : BeforeAll after (inner :: outer) (.literal :: rest) ↔
    ∀ child, BeforeAll after ((child :: inner) :: outer) rest :=
  forall_cons_iff

@[simp] theorem beforeAll_stringLiteral :
    BeforeAll after (inner :: outer) (.stringLiteral field :: rest) ↔
      ∀ child, BeforeAll after ((child :: inner) :: outer) rest :=
  forall_cons_iff

@[simp] theorem beforeAll_markAs :
    BeforeAll after (inner :: outer) (.markAs text kind field :: rest) ↔
      isBuilt kind [] ∧ ∀ child, BeforeAll after ((child :: inner) :: outer) rest :=
  and_congr_right fun _ => forall_cons_iff

@[simp] theorem beforeAll_name : BeforeAll after (inner :: outer) (.name kind field :: rest) ↔
    isBuilt kind [] ∧ ∀ child, BeforeAll after ((child :: inner) :: outer) rest :=
  and_congr_right fun _ => forall_cons_iff

@[simp] theorem beforeAll_terminator :
    BeforeAll after nodes (.terminator :: rest) ↔ BeforeAll after nodes rest := Iff.rfl

@[simp] theorem beforeAll_enter :
    BeforeAll after nodes (.enter :: rest) ↔ BeforeAll after ([] :: nodes) rest := Iff.rfl

@[simp] theorem beforeAll_wrap : BeforeAll after (children :: outer) (.wrap field :: rest) ↔
    ∀ last inner, children = last :: inner →
      BeforeAll after ([inField field last] :: inner :: outer) rest :=
  forall_cons_cons_iff

@[simp] theorem beforeAll_leave {closing : Closing} :
    BeforeAll after (children :: inner :: outer) (.leave closing :: rest) ↔
      closing.isMet children ∧ ∀ node, closing.build? children.reverse = some node →
        BeforeAll after ((node :: inner) :: outer) rest :=
  forall_two_iff

@[simp] theorem beforeAll_dissolve :
    BeforeAll after (children :: inner :: outer) (.dissolve :: rest) ↔
      BeforeAll after ((children ++ inner) :: outer) rest :=
  forall_two_iff

@[simp] theorem beforeAll_label : BeforeAll after (children :: outer) (.label name :: rest) ↔
    ∀ last inner, children = last :: inner →
      BeforeAll after ((inField (some name) last :: inner) :: outer) rest :=
  forall_cons_cons_iff

@[simp] theorem beforeAll_moveField {source target : String} :
    BeforeAll after (children :: outer) (.moveField source target :: rest) ↔
      ∀ moved, BeforeAll after (moved :: outer) rest :=
  forall_cons_iff

@[simp] theorem beforeAll_retype : BeforeAll after (children :: outer) (.retype :: rest) ↔
    ∀ last inner, children = last :: inner →
      ∀ type, BeforeAll after ((type :: inner) :: outer) rest :=
  forall_cons_cons_iff

@[simp] theorem beforeAll_rule {rule : Rule} : BeforeAll after nodes (.rule rule :: rest) ↔
    rule.Before (fun nodes => BeforeAll after nodes rest) nodes := Iff.rfl

end

/-! ## Expansions -/

attribute [simp] Item.node Item.expr Item.exprIn Item.type Item.typeIn Item.ty Item.ex Item.st
  Item.decl Item.close Closing.isMet Closing.build? isBuilt literalKinds

@[simp] theorem fills_inField (field : String) (other : Option String) (tree : Concrete) :
    fills field (inField other tree) = (other == some field) := by
  cases tree
  rfl

@[simp] theorem fills_nodeAround (field kind : String) (other : Option String)
    (children : List Concrete) :
    fills field (nodeAround kind other children) = (other == some field) := rfl

@[simp] theorem isPart_inField (field : Option String) (tree : Concrete) :
    (inField field tree).isPart = tree.isPart := by
  cases tree
  rfl

theorem isBuilt_of_mem_constantNames {name : String} (constant : constantNames.contains name) :
    isBuilt name [] := by
  simp only [constantNames, List.contains_iff_mem, List.mem_cons, List.not_mem_nil, or_false]
    at constant
  rcases constant with rfl | rfl | rfl | rfl <;> rfl

section

variable {after : OpenNodes → Prop} {ahead : List Token} {nodes : OpenNodes}

theorem TypeRule.beforeAll_items {rule : TypeRule} (fits : rule.Before after nodes) :
    ∀ items ∈ rule.items ahead, BeforeAll after nodes items := by
  cases rule with
  | whole context =>
    obtain ⟨inner, outer, rfl, before⟩ := fits.elim
    simp only [TypeRule.items, typeItems]
    split <;> try split_ifs
    all_goals simp [before]
  | arguments context =>
    obtain ⟨last, inner, outer, rfl, before⟩ := fits.elim
    simp only [TypeRule.items]
    split_ifs <;> simp [before]
  | union kind field context =>
    obtain ⟨inner, outer, rfl, before⟩ := fits.2.elim
    simp [TypeRule.items, fits.1, before, -isBuilt]
  | fieldEntry =>
    obtain ⟨inner, outer, rfl, before⟩ := fits.elim
    simp only [TypeRule.items, fieldItems]
    split <;> try split_ifs
    all_goals simp [before, embeddedField, namedField]
  | parameter =>
    obtain ⟨inner, outer, rfl, before⟩ := fits.elim
    simp only [TypeRule.items, parameterItems]
    split <;> try split_ifs
    all_goals simp [before, bareParameter]
  | _ =>
    obtain ⟨inner, outer, rfl, before⟩ := fits.elim
    simp only [TypeRule.items]
    try split_ifs
    all_goals simp [before]

theorem ExpressionRule.beforeAll_items {rule : ExpressionRule} {last : Option Concrete}
    (fits : rule.Before after nodes) :
    ∀ items ∈ rule.items ahead last, BeforeAll after nodes items := by
  cases rule with
  | whole context =>
    obtain ⟨inner, outer, rfl, before⟩ := fits.elim
    simpa [ExpressionRule.items] using before
  | operators context level =>
    obtain ⟨operand, inner, outer, rfl, before⟩ := fits.elim
    simp only [ExpressionRule.items]
    split <;> try split_ifs
    all_goals simp [before]
  | unary context =>
    obtain ⟨inner, outer, rfl, before⟩ := fits.elim
    simp only [ExpressionRule.items]
    split <;> try split_ifs
    all_goals simp [before]
  | operand =>
    obtain ⟨inner, outer, rfl, before⟩ := fits.elim
    simp only [ExpressionRule.items, operandItems]
    split
    · simp [before]
    · split_ifs with allocates constant
      · simp [before]
      · simp [before, isBuilt_of_mem_constantNames constant, -isBuilt]
      · simp [before]
    all_goals try split_ifs
    all_goals simp [before]
  | afterSignature =>
    obtain ⟨children, inner, outer, rfl, _, before⟩ := fits.elim
    simp only [ExpressionRule.items]
    split_ifs <;> simp [before]
  | suffixes context =>
    obtain ⟨operand, inner, outer, rfl, before⟩ := fits.elim
    simp only [ExpressionRule.items]
    split
    · simp
    · split_ifs
      · simp only [typeSuffixItems]
        split_ifs <;> simp [before, conversion, composite]
      · simp only [suffixItems]
        split <;> try split_ifs
        all_goals simp [before, composite]
  | list context field =>
    obtain ⟨inner, outer, rfl, before⟩ := fits.elim
    simp [ExpressionRule.items, before]
  | element =>
    obtain ⟨inner, outer, rfl, before⟩ := fits.elim
    have made (children : List Concrete) :
        after ((nodeAround "literal_element" none children :: inner) :: outer) := before _ rfl
    simp [ExpressionRule.items, made]
  | afterElement =>
    obtain ⟨inner, outer, rfl, before⟩ := fits.elim
    simp only [ExpressionRule.items]
    split_ifs <;> simp +contextual [before]
  | _ =>
    obtain ⟨inner, outer, rfl, before⟩ := fits.elim
    simp only [ExpressionRule.items]
    try split_ifs
    all_goals simp [before]

theorem beforeAll_keywordItems {inner : List Concrete} {outer : OpenNodes} (text : String)
    (before : ∀ changed, after (changed :: outer)) :
    ∀ items ∈ keywordItems text, BeforeAll after (inner :: outer) items := by
  unfold keywordItems
  split <;> simp [before, caseBlock]

theorem StatementRule.beforeAll_items {rule : StatementRule} {last : Option Concrete}
    (fits : rule.Before after nodes) :
    ∀ items ∈ rule.items ahead last, BeforeAll after nodes items := by
  cases rule with
  | whole =>
    obtain ⟨inner, outer, rfl, before⟩ := fits.elim
    have simple : BeforeAll after (inner :: outer) (simpleItems .statement false) := by
      simp [simpleItems, before]
    simp only [StatementRule.items, statementItems, Option.mem_some_iff, forall_eq']
    split
    · next text _ =>
      cases keyword : keywordItems text with
      | none => exact simple
      | some items => exact beforeAll_keywordItems text before items keyword
    · split_ifs
      · simp [before]
      · exact simple
    · exact simple
  | jumpLabel =>
    obtain ⟨inner, outer, rfl, before⟩ := fits.elim
    simp only [StatementRule.items]
    split <;> simp [before]
  | simple context ranges =>
    obtain ⟨children, inner, outer, rfl, _, before⟩ := fits.elim
    simp only [StatementRule.items, afterExpressionItems]
    split_ifs <;> simp [before, listAfterFirst]
  | assigned context ranges =>
    obtain ⟨children, inner, outer, rfl, left, before⟩ := fits.elim
    simp only [HasLeft] at left
    simp only [StatementRule.items, assignedItems]
    split_ifs <;> simp [before, left]
  | condition =>
    obtain ⟨children, inner, outer, rfl, before⟩ := fits.elim
    simp only [StatementRule.items]
    split_ifs <;> simp [before]
  | afterLoopExpression =>
    obtain ⟨children, inner, outer, rfl, before⟩ := fits.elim
    simp only [StatementRule.items]
    split_ifs <;> simp [before]
  | loopClause =>
    obtain ⟨children, inner, outer, rfl, _, before⟩ := fits.elim
    simp [StatementRule.items, before]
  | switchHeader =>
    obtain ⟨children, inner, outer, rfl, _, before⟩ := fits.elim
    simp only [StatementRule.items]
    split_ifs <;> simp [before, switchBlock, caseBlock]
  | switchExpression first =>
    obtain ⟨children, middle, inner, outer, rfl, _, before⟩ := fits.elim
    simp only [StatementRule.items, switchItems]
    split_ifs <;> simp [before, switchBlock, caseBlock, listAfterFirst]
  | switchNames first =>
    obtain ⟨children, middle, inner, outer, rfl, left, before⟩ := fits.elim
    simp only [HasLeft] at left
    simp only [StatementRule.items]
    split_ifs <;> simp [before, left]
  | switchDefinition first =>
    obtain ⟨children, middle, inner, outer, rfl, left, before⟩ := fits.elim
    simp only [HasLeft] at left
    simp only [StatementRule.items]
    split_ifs
    · simp [before]
    · -- The expression read last becomes the right side, so the left side stands before it.
      have supplied (last : Concrete) (rest : List Concrete) (same : children = last :: rest) :
          ∃ child ∈ rest, fills "left" child := by simpa [same] using left
      simpa [before, listAfterFirst] using supplied
    · simp
  | switchValue =>
    obtain ⟨children, inner, outer, rfl, _, before⟩ := fits.elim
    simp only [StatementRule.items]
    split_ifs <;> simp [before, switchBlock, caseBlock]
  | typeSwitch =>
    obtain ⟨children, inner, outer, rfl, _, before⟩ := fits.elim
    simp [StatementRule.items, before, caseBlock]
  | communication =>
    obtain ⟨children, inner, outer, rfl, _, before⟩ := fits.elim
    simp only [StatementRule.items]
    split_ifs <;> simp [before, listAfterFirst]
  | received =>
    obtain ⟨children, inner, outer, rfl, _, before⟩ := fits.elim
    simp only [StatementRule.items]
    split_ifs <;> simp [before]
  | _ =>
    obtain ⟨inner, outer, rfl, before⟩ := fits.elim
    simp only [StatementRule.items]
    try split_ifs
    all_goals simp [before, defaultCase, simpleItems]

theorem DeclarationRule.beforeAll_items {rule : DeclarationRule}
    (fits : rule.Before after nodes) :
    ∀ items ∈ rule.items ahead, BeforeAll after nodes items := by
  cases rule with
  | file =>
    obtain ⟨inner, outer, rfl, before⟩ := fits.elim
    simp only [DeclarationRule.items]
    split_ifs
    · simp [before]
    · unfold topLevelItems
      split <;> try split_ifs
      all_goals simp [before, functionItems, methodItems]
  | declaration kind =>
    obtain ⟨inner, outer, rfl, before⟩ := fits.elim
    simp only [DeclarationRule.items]
    cases kind <;> split_ifs <;>
      simp [before, groupItems, DeclarationKind.nodeKind]
  | spec kind =>
    obtain ⟨inner, outer, rfl, before⟩ := fits.elim
    cases kind <;> simp [DeclarationRule.items, before, specItems]
  | typeDefinition =>
    obtain ⟨children, inner, outer, rfl, _, before⟩ := fits.elim
    simp only [DeclarationRule.items]
    split_ifs <;> simp [before]
  | importName =>
    obtain ⟨inner, outer, rfl, before⟩ := fits.elim
    simp only [DeclarationRule.items]
    split <;> simp [before]
  | _ =>
    obtain ⟨inner, outer, rfl, before⟩ := fits.elim
    simp only [DeclarationRule.items]
    try split_ifs
    all_goals simp [before, valueItems]

/-- A rule may be replaced by the items that it expands to. -/
theorem Rule.beforeAll_items {rule : Rule} {last : Option Concrete} {items : List Item}
    (fits : rule.Before after nodes) (produced : Parser.items ahead last rule = some items) :
    BeforeAll after nodes items := by
  cases rule with
  | type rule => exact TypeRule.beforeAll_items fits items produced
  | expression rule => exact ExpressionRule.beforeAll_items fits items produced
  | statement rule => exact StatementRule.beforeAll_items fits items produced
  | declaration rule => exact DeclarationRule.beforeAll_items fits items produced

theorem beforeAll_append {items rest : List Item} :
    BeforeAll after nodes (items ++ rest) ↔
      BeforeAll (fun nodes => BeforeAll after nodes rest) nodes items := by
  induction items generalizing nodes with
  | nil => rfl
  | cons item items ih =>
    simp only [List.cons_append, BeforeAll]
    simp only [ih]

end

/-! ## The machine -/

/-- The nodes that a token can become are sound. -/
def TokenSound (source : ByteArray) (token : Token) : Prop :=
  ∀ kind, token.kind = .mark kind ∨ token.kind = .literal kind →
    ∀ named field, (Parser.leaf token kind named field).Sound source

namespace Parser

/-- The tokens ahead and the nodes made are sound, and the items still to be done fit the open
nodes. -/
structure Sound (source : ByteArray) (parser : Parser) : Prop where
  tokens : ∀ token ∈ parser.ahead, TokenSound source token
  nodes : ∀ children ∈ parser.nodes, ∀ child ∈ children, child.Sound source
  control : BeforeAll (fun _ => True) parser.nodes parser.control

variable {source : ByteArray} {ahead : List Token} {nodes : OpenNodes} {control : List Item}
  {next : Parser}

theorem sound_leaf {token : Token} {kind : String} (built : isBuilt kind []) (named : Bool)
    (field : Option String) : (leaf token kind named field).Sound source :=
  .built built (List.forall_mem_nil _)

/-- Taking a token as a child keeps the parser sound if the child is sound. -/
theorem sound_of_take {child? : Token → Option Concrete}
    (tokens : ∀ token ∈ ahead, TokenSound source token)
    (made : ∀ children ∈ nodes, ∀ child ∈ children, child.Sound source)
    (fits : ∀ inner outer, nodes = inner :: outer →
      ∀ child, BeforeAll (fun _ => True) ((child :: inner) :: outer) control)
    (leaves : ∀ token, TokenSound source token → ∀ child, child? token = some child →
      child.Sound source)
    (done : take ⟨ahead, control, nodes⟩ child? = some next) : next.Sound source := by
  unfold take at done
  split at done
  · next token ahead inner outer seen stack =>
    obtain ⟨child, taken, rfl⟩ := Option.map_eq_some_iff.mp done
    obtain rfl : _ = token :: ahead := seen
    obtain rfl : _ = inner :: outer := stack
    rw [List.forall_mem_cons] at tokens made
    refine ⟨tokens.2, ?_, fits inner outer rfl child⟩
    simp only [List.forall_mem_cons]
    exact ⟨⟨leaves token tokens.1 child taken, made.1⟩, made.2⟩
  · cases done

/-- Changing the last node made keeps the parser sound if the changed node is sound. -/
theorem sound_of_changeLast {change? : Concrete → Option Concrete}
    (tokens : ∀ token ∈ ahead, TokenSound source token)
    (made : ∀ children ∈ nodes, ∀ child ∈ children, child.Sound source)
    (fits : ∀ last inner outer, nodes = (last :: inner) :: outer →
      ∀ child, change? last = some child →
        BeforeAll (fun _ => True) ((child :: inner) :: outer) control)
    (changes : ∀ last, last.Sound source → ∀ child, change? last = some child →
      child.Sound source)
    (done : changeLast ⟨ahead, control, nodes⟩ change? = some next) : next.Sound source := by
  unfold changeLast at done
  split at done
  · next last inner outer stack =>
    obtain ⟨child, changed, rfl⟩ := Option.map_eq_some_iff.mp done
    obtain rfl : _ = (last :: inner) :: outer := stack
    simp only [List.forall_mem_cons] at made
    refine ⟨tokens, ?_, fits last inner outer rfl child changed⟩
    simp only [List.forall_mem_cons]
    exact ⟨⟨changes last made.1.1 child changed, made.1.2⟩, made.2⟩
  · cases done

/-- Doing an item that fits the open nodes keeps the parser sound. -/
theorem sound_of_perform {item : Item} (tokens : ∀ token ∈ ahead, TokenSound source token)
    (made : ∀ children ∈ nodes, ∀ child ∈ children, child.Sound source)
    (fits : item.Before (fun nodes => BeforeAll (fun _ => True) nodes control) nodes)
    (done : perform ⟨ahead, control, nodes⟩ item = some next) : next.Sound source := by
  cases item with
  | mark text =>
    refine sound_of_take tokens made fits ?_ done
    intro token sound child taken
    obtain ⟨marked, ⟨⟩⟩ := Option.ite_none_right_eq_some.mp taken
    exact sound text (.inl marked) false none
  | anyMark field =>
    refine sound_of_take tokens made fits ?_ done
    intro token sound child taken
    split at taken
    · next text marked =>
      cases taken
      exact sound text (.inl marked) false field
    · cases taken
  | markAs text kind field =>
    refine sound_of_take tokens made fits.2 ?_ done
    intro token _ child taken
    obtain ⟨_, ⟨⟩⟩ := Option.ite_none_right_eq_some.mp taken
    exact sound_leaf fits.1 true field
  | name kind field =>
    refine sound_of_take tokens made fits.2 ?_ done
    intro token _ child taken
    split at taken
    · cases taken
      exact sound_leaf fits.1 true field
    · cases taken
  | literal =>
    refine sound_of_take tokens made fits ?_ done
    intro token sound child taken
    split at taken
    · next kind literal =>
      cases taken
      exact sound kind (.inr literal) true none
    · cases taken
  | stringLiteral field =>
    refine sound_of_take tokens made fits ?_ done
    intro token sound child taken
    split at taken
    · next kind literal =>
      obtain ⟨_, ⟨⟩⟩ := Option.ite_none_right_eq_some.mp taken
      exact sound kind (.inr literal) true field
    · cases taken
  | terminator =>
    simp only [perform] at done
    split at done
    · cases done
    · next token rest =>
      rw [List.forall_mem_cons] at tokens
      split_ifs at done
      · cases done
        exact ⟨List.forall_mem_cons.mpr tokens, made, fits⟩
      · cases done
        exact ⟨tokens.2, made, fits⟩
      · cases done
        exact ⟨List.forall_mem_cons.mpr tokens, made, fits⟩
  | enter =>
    cases done
    exact ⟨tokens, List.forall_mem_cons.mpr ⟨List.forall_mem_nil _, made⟩, fits⟩
  | wrap field =>
    simp only [perform] at done
    split at done
    · next last inner outer =>
      cases done
      refine ⟨tokens, ?_, fits last inner outer rfl⟩
      simp only [List.forall_mem_cons] at made ⊢
      exact ⟨⟨sound_inField made.1.1 field, List.forall_mem_nil _⟩, made.1.2, made.2⟩
    · cases done
  | leave closing =>
    simp only [perform] at done
    split at done
    · next children inner outer =>
      obtain ⟨node, built, rfl⟩ := Option.map_eq_some_iff.mp done
      obtain ⟨met, later⟩ := fits children inner outer rfl
      simp only [List.forall_mem_cons] at made
      have below : ∀ child ∈ children.reverse, child.Sound source :=
        fun child member => made.1 child (List.mem_reverse.mp member)
      rw [← closing.isMet_reverse] at met
      refine ⟨tokens, ?_, later node built⟩
      simp only [List.forall_mem_cons]
      exact ⟨⟨sound_of_build? below met built, made.2.1⟩, made.2.2⟩
    · cases done
  | dissolve =>
    simp only [perform] at done
    split at done
    · next children inner outer =>
      cases done
      refine ⟨tokens, ?_, fits children inner outer rfl⟩
      simp only [List.forall_mem_cons, List.forall_mem_append] at made ⊢
      exact ⟨⟨made.1, made.2.1⟩, made.2.2⟩
    · cases done
  | label field =>
    refine sound_of_changeLast tokens made ?_ ?_ done
    · rintro last inner outer stack child ⟨⟩
      exact fits last inner outer stack
    · rintro last sound child ⟨⟩
      exact sound_inField sound _
  | moveField field target =>
    simp only [perform] at done
    split at done
    · next children outer =>
      cases done
      refine ⟨tokens, ?_, fits children outer rfl _⟩
      rw [List.forall_mem_cons] at made ⊢
      refine ⟨?_, made.2⟩
      intro child member
      obtain ⟨tree, inside, rfl⟩ := List.mem_map.mp member
      split_ifs
      · exact sound_inField (made.1 tree inside) _
      · exact made.1 tree inside
    · cases done
  | retype =>
    refine sound_of_changeLast tokens made ?_ ?_ done
    · intro last inner outer stack child _
      exact fits last inner outer stack child
    · intro last sound child read
      exact sound_of_typeOf? sound read
  | rule rule =>
    obtain ⟨items, produced, rfl⟩ := Option.map_eq_some_iff.mp done
    exact ⟨tokens, made, beforeAll_append.mpr (Rule.beforeAll_items fits produced)⟩

theorem sound_of_run {parser : Parser} {fuel : Nat} {children : List Concrete}
    (sound : parser.Sound source)
    (ended : parser.run fuel = some children) : ∀ child ∈ children, child.Sound source := by
  induction fuel generalizing parser with
  | zero => cases ended
  | succ fuel ih =>
    rw [run] at ended
    split at ended
    · obtain ⟨inner, first, rfl⟩ := Option.map_eq_some_iff.mp ended
      intro child member
      exact sound.nodes inner (List.mem_of_mem_head? first) child (List.mem_reverse.mp member)
    · next item control first =>
      split at ended
      · next performed =>
        have fits := sound.control
        rw [first] at fits
        exact ih (sound_of_perform sound.tokens sound.nodes fits performed) ended
      · cases ended

end Parser

end AssetRefs.Go
