import AssetRefs.Proofs.LoweringLaws
import AssetRefs.Proofs.ScopeLaws

/-! # Lowerings of similar trees

One level of the lowering does to a tree what it does to a similar one, as far as the nodes below
are lowered alike. What "alike" means is left open: equality gives that a lowering depends on the
nodes below and nothing else, and other relations are kept as well if every step keeps them. See
`LoweringCongruence` and `LoweringCongruence.related_lowerShape`.
-/

namespace AssetRefs

open Lowering

/-! ## Similar trees -/

/-- The shape with other trees in the place of those that it refers to. -/
def Shape.map (f : Concrete → Concrete) : Shape → Shape
  | name => name
  | literal => literal
  | call callee arguments => call (callee.map f) (arguments.map f)
  | selector operand member => selector (operand.map f) (member.map f)
  | composite type elements => composite (type.map f) (elements.map f)
  | wrapper inner => wrapper (f inner)
  | keyed parts => keyed (parts.map f)
  | closure => closure
  | statement inner => statement (f inner)
  | define left right => define (left.map f) (right.map f)
  | assign left right => assign (left.map f) (right.map f)
  | block statements => block (statements.map f)
  | binder marker left right => binder marker (left.map f) (right.map f)
  | typeSwitch bound value parts => typeSwitch (bound.map f) (value.map f) (parts.map f)
  | packageClause names => packageClause (names.map f)
  | group specs => group (specs.map f)
  | valueSpec constant names type value =>
    valueSpec constant (names.map f) (type.map f) (value.map f)
  | function declares spelling signature body =>
    function declares (spelling.map f) (signature.map f) (body.map (List.map f))
  | parameter names type => parameter (names.map f) (type.map f)
  | shapeless => shapeless

theorem Shape.map_id (shape : Shape) : shape.map id = shape := by
  cases shape <;> simp [Shape.map]

/-- The function changes no label and goes from the parts of a tree to those of its image. -/
structure KeepsParts (f : Concrete → Concrete) : Prop where
  label : ∀ tree, (f tree).label = tree.label
  parts : ∀ tree, (f tree).parts = tree.parts.map f

theorem KeepsParts.id : KeepsParts id := ⟨fun _ => rfl, fun _ => (List.map_id _).symm⟩

namespace KeepsParts

variable {f : Concrete → Concrete} (keeps : KeepsParts f) (tree : Concrete)

include keeps

theorem kind : (f tree).kind = tree.kind := congrArg Concrete.Label.kind (keeps.label tree)

theorem site : (f tree).site = tree.site := by
  simp only [Concrete.site, keeps.kind, keeps.label]

theorem text (source : ByteArray) : (f tree).text source = tree.text source := by
  simp only [Concrete.text, keeps.label]

theorem identNode (source : ByteArray) : (f tree).identNode source = tree.identNode source := by
  simp only [Concrete.identNode, keeps.site, keeps.text, keeps.label]

theorem isShapeless : (f tree).isShapeless = tree.isShapeless := by
  simp only [Concrete.isShapeless, keeps.kind]

theorem opensScope : (f tree).opensScope = tree.opensScope := by
  simp only [Concrete.opensScope, keeps.kind]

theorem sameAs (other : Concrete) : (f tree).sameAs (f other) = tree.sameAs other := by
  simp only [Concrete.sameAs, keeps.kind, keeps.label]

theorem any_sameAs (other : Option Concrete) :
    (other.map f).any (f tree).sameAs = other.any tree.sameAs := by
  cases other with
  | none => rfl
  | some other => exact keeps.sameAs tree other

theorem listed : (f tree).listed = tree.listed.map f := by
  simp only [Concrete.listed, keeps.kind, keeps.parts]
  split_ifs <;> rfl

theorem listed_option (list : Option Concrete) :
    ((list.map f).map Concrete.listed).getD [] =
      ((list.map Concrete.listed).getD []).map f := by
  cases list with
  | none => rfl
  | some tree => exact keeps.listed tree

theorem parts_option (list : Option Concrete) :
    ((list.map f).map Concrete.parts).getD [] = ((list.map Concrete.parts).getD []).map f := by
  cases list with
  | none => rfl
  | some tree => exact keeps.parts tree

theorem unwrapped : (f tree).unwrapped = f tree.unwrapped := by
  simp only [Concrete.unwrapped, keeps.kind, keeps.parts]
  split_ifs
  · rcases tree.parts with _ | ⟨inner, _ | _⟩ <;> rfl
  · rfl

end KeepsParts

/-! ## Relations that every step keeps -/

/-- A relation between lowerings of trees at two places that every step of a lowering and the
sequences of steps keep. Events at one place are related to events at the other. -/
structure LoweringCongruence where
  Related : {α : Type} → Lowering α → Lowering α → Prop
  /-- Where the second lowering has what the first one has at a place. -/
  move : Address → Address
  move_cons : ∀ position place, move (position :: place) = position :: move place
  value : ∀ {α : Type} (result : α), Related (pure result) (pure result)
  failure : ∀ {α : Type} (error : LowerError), Related (fail error : Lowering α) (fail error)
  event : ∀ event : ScopeEvent, Related (emit event) (emit (event.relocate move))
  bind : ∀ {α β : Type} {first second : Lowering α} {next other : α → Lowering β},
    Related first second → (∀ value, Related (next value) (other value)) →
      Related (first >>= next) (second >>= other)

/-- Equal lowerings. -/
def LoweringCongruence.equality : LoweringCongruence where
  Related first second := first = second
  move := id
  move_cons _ _ := rfl
  value _ := rfl
  failure _ := rfl
  event event := by rw [event.relocate_id]
  bind same next := by rw [same, funext next]

namespace LoweringCongruence

variable (congruence : LoweringCongruence) {f : Concrete → Concrete} (keeps : KeepsParts f)
  {first second : Address → Concrete → Lowering Node} {place : Address}

/-- The two ways to lower nodes are related at a tree and its image. -/
def Agree (f : Concrete → Concrete) (first second : Address → Concrete → Lowering Node)
    (tree : Concrete) : Prop :=
  ∀ place, congruence.Related (first place (f tree)) (second (congruence.move place) tree)

variable {congruence}

theorem Agree.child {tree : Concrete} (agree : congruence.Agree f first second tree)
    (position : Nat) : congruence.Related (first (position :: place) (f tree))
      (second (position :: congruence.move place) tree) := by
  rw [← congruence.move_cons]
  exact agree _

theorem related_emitIf (condition : Bool) (event : ScopeEvent) :
    congruence.Related (emitIf condition event)
      (emitIf condition (event.relocate congruence.move)) := by
  cases condition with
  | false => exact congruence.value ()
  | true => exact congruence.event event

theorem related_forM {α : Type} {step other : α → Lowering Unit} (items : List α)
    (related : ∀ item, congruence.Related (step item) (other item)) :
    congruence.Related (items.forM step) (items.forM other) := by
  induction items with
  | nil => exact congruence.value _
  | cons item rest ih => exact congruence.bind (related item) fun _ => ih

theorem related_declareNode (declaration : Declaration) (node : Node) :
    congruence.Related (declareNode (.declaration place declaration) node)
      (declareNode (.declaration (congruence.move place) declaration) node) := by
  cases node with
  | ident site name offset => exact congruence.event _
  | _ => exact congruence.value _

theorem related_lowerAll {start : Nat} {trees : List Concrete}
    (agree : ∀ part ∈ trees, congruence.Agree f first second part) :
    congruence.Related (lowerAll first place start (trees.map f))
      (lowerAll second (congruence.move place) start trees) := by
  induction trees generalizing start with
  | nil => exact congruence.value _
  | cons part rest ih =>
    rw [List.forall_mem_cons] at agree
    refine congruence.bind (agree.1.child _) fun node => ?_
    exact congruence.bind (ih agree.2) fun nodes => congruence.value _

theorem related_lowerOption {position : Nat} {tree : Option Concrete}
    (agree : ∀ part ∈ tree.toList, congruence.Agree f first second part) :
    congruence.Related (lowerOption first (position :: place) (tree.map f))
      (lowerOption second (position :: congruence.move place) tree) := by
  cases tree with
  | none => exact congruence.value _
  | some tree =>
    exact congruence.bind ((agree tree (by simp)).child _) fun node => congruence.value _

theorem related_lowerRequired {position : Nat} {tree : Option Concrete} {β : Type}
    {next other : Node → Lowering β}
    (agree : ∀ part ∈ tree.toList, congruence.Agree f first second part)
    (later : ∀ node, congruence.Related (next node) (other node)) :
    congruence.Related
      (required (tree.map f) >>= fun tree => first (position :: place) tree >>= next)
      (required tree >>= fun tree =>
        second (position :: congruence.move place) tree >>= other) := by
  cases tree with
  | none => exact congruence.failure _
  | some tree =>
    simp only [Option.map_some, required, pure_bind]
    exact congruence.bind ((agree tree (by simp)).child _) later

theorem agree_of_mem_listed {tree : Concrete} {list : Option Concrete}
    (agree : ∀ part, tree.Encloses part → congruence.Agree f first second part)
    (enclosed : ∀ part ∈ list.toList, tree.Encloses part) :
    ∀ part ∈ (list.map Concrete.listed).getD [], congruence.Agree f first second part :=
  fun part member => agree part (Concrete.encloses_of_mem_listed enclosed part member)

section

include keeps

theorem related_lowerTargets {source : ByteArray} {start : Nat} {trees : List Concrete}
    (agree : ∀ part ∈ trees, congruence.Agree f first second part) :
    congruence.Related (lowerTargets source first place start (trees.map f))
      (lowerTargets source second (congruence.move place) start trees) := by
  induction trees generalizing start with
  | nil => exact congruence.value _
  | cons part rest ih =>
    rw [List.forall_mem_cons] at agree
    simp only [List.map_cons, lowerTargets, keeps.kind, keeps.identNode]
    split_ifs
    · refine congruence.bind (congruence.value _) fun node => ?_
      exact congruence.bind (ih agree.2) fun nodes => congruence.value _
    · refine congruence.bind (agree.1.child _) fun node => ?_
      exact congruence.bind (ih agree.2) fun nodes => congruence.value _

theorem related_lowerMarked {source : ByteArray} {marker : Marker} {start : Nat}
    {trees : List Concrete} (agree : ∀ part ∈ trees, congruence.Agree f first second part) :
    congruence.Related (lowerMarked source marker first place start (trees.map f))
      (lowerMarked source marker second (congruence.move place) start trees) := by
  induction trees generalizing start with
  | nil => exact congruence.value _
  | cons part rest ih =>
    rw [List.forall_mem_cons] at agree
    simp only [List.map_cons, lowerMarked, keeps.kind, keeps.identNode, keeps.text,
      keeps.label]
    split_ifs
    · refine congruence.bind (congruence.event _) fun told => ?_
      refine congruence.bind (congruence.value _) fun node => ?_
      exact congruence.bind (ih agree.2) fun nodes => congruence.value _
    · refine congruence.bind (agree.1.child _) fun node => ?_
      exact congruence.bind (ih agree.2) fun nodes => congruence.value _

theorem related_lowerParameters (source : ByteArray) (trees : List Concrete) :
    congruence.Related (lowerParameters source (trees.map f)) (lowerParameters source trees) := by
  induction trees with
  | nil => exact congruence.value _
  | cons tree rest ih =>
    simp only [List.map_cons, lowerParameters, keeps.identNode, keeps.text, keeps.label]
    refine congruence.bind (congruence.event _) fun told => ?_
    exact congruence.bind ih fun nodes => congruence.value _

theorem related_lowerKey {source : ByteArray} {position : Nat} {tree : Concrete}
    (agree : congruence.Agree f first second tree.unwrapped) :
    congruence.Related (lowerKey source first (position :: place) (f tree))
      (lowerKey source second (position :: congruence.move place) tree) := by
  simp only [lowerKey, keeps.unwrapped, keeps.kind, keeps.identNode]
  split_ifs
  · exact congruence.value _
  · exact agree.child _

theorem related_lowerSwitch {source : ByteArray} {bound value : Option Concrete} {start : Nat}
    {trees : List Concrete} (agree : ∀ part ∈ trees, congruence.Agree f first second part)
    (names : ∀ part ∈ (bound.map Concrete.listed).getD [], congruence.Agree f first second part) :
    congruence.Related
      (lowerSwitch source (bound.map f) (value.map f) first place start (trees.map f))
      (lowerSwitch source bound value second (congruence.move place) start trees) := by
  induction trees generalizing start with
  | nil => exact congruence.value _
  | cons part rest ih =>
    rw [List.forall_mem_cons] at agree
    simp only [List.map_cons, lowerSwitch, keeps.any_sameAs, keeps.listed_option]
    split_ifs
    · exact ih agree.2
    · refine congruence.bind (agree.1.child _) fun node => ?_
      refine congruence.bind (related_lowerMarked keeps names) fun marked => ?_
      exact congruence.bind (ih agree.2) fun nodes => congruence.value _
    · refine congruence.bind (agree.1.child _) fun node => ?_
      refine congruence.bind (congruence.value _) fun marked => ?_
      exact congruence.bind (ih agree.2) fun nodes => congruence.value _

theorem related_lowerGeneric {tree : Concrete}
    (agree : ∀ part, tree.Encloses part → congruence.Agree f first second part) :
    congruence.Related (lowerGeneric first place (f tree))
      (lowerGeneric second (congruence.move place) tree) := by
  induction size : tree.weight using Nat.strongRecOn generalizing tree place with
  | ind size ih =>
    subst size
    have parts : ∀ part ∈ tree.parts,
        congruence.Agree f (lowerPart first) (lowerPart second) part := by
      intro part member place
      have enclosed := Concrete.encloses_of_mem_parts member
      simp only [lowerPart, keeps.isShapeless]
      split_ifs
      · refine ih part.weight enclosed.weight_lt (fun inner below => ?_) rfl
        exact agree inner (enclosed.trans below.contains)
      · exact agree part enclosed place
    simp only [lowerGeneric_eq, keeps.opensScope, keeps.parts, keeps.site]
    refine congruence.bind (related_emitIf _ _) fun _ => ?_
    refine congruence.bind (related_lowerAll parts) fun nodes => ?_
    exact congruence.bind (related_emitIf _ _) fun _ => congruence.value _

variable (congruence) in
/-- One level of the lowering keeps the relation. -/
theorem related_lowerShape {source : ByteArray} {tree : Concrete}
    (shaped : (f tree).shape = tree.shape.map f)
    (agree : ∀ part, tree.Encloses part → congruence.Agree f first second part) :
    congruence.Related (lowerShape source first place (f tree))
      (lowerShape source second (congruence.move place) tree) := by
  have enclosed : ∀ part ∈ tree.shape.members, tree.Encloses part :=
    fun _ => Concrete.encloses_of_mem_shape
  have inside : ∀ part ∈ tree.shape.members, congruence.Agree f first second part :=
    fun part member => agree part (enclosed part member)
  have generic : congruence.Related (lowerGeneric first place (f tree))
      (lowerGeneric second (congruence.move place) tree) := related_lowerGeneric keeps agree
  have done {α : Type} (result : α) := congruence.value result
  have scope {α : Type} {step other : Lowering α} (related : congruence.Related step other)
      (node : α → Node) : congruence.Related
        (do emit .opened; let inner ← step; emit .closed; return node inner)
        (do emit .opened; let inner ← other; emit .closed; return node inner) := by
    refine congruence.bind (congruence.event .opened) fun _ => ?_
    refine congruence.bind related fun inner => ?_
    exact congruence.bind (congruence.event .closed) fun _ => done _
  unfold lowerShape
  rw [shaped]
  generalize tree.shape = shape at enclosed inside ⊢
  cases shape with
  | name =>
    simp only [Shape.map, keeps.text, keeps.label, keeps.identNode]
    exact congruence.bind (congruence.event _) fun _ => done _
  | literal =>
    simp only [Shape.map, keeps.text, keeps.site]
    exact done _
  | call callee arguments =>
    simp only [Shape.members, List.forall_mem_append] at inside
    simp only [Shape.map, keeps.site]
    refine related_lowerRequired inside.1 fun callee => ?_
    exact congruence.bind (related_lowerAll inside.2) fun arguments => done _
  | selector operand member =>
    simp only [Shape.members, List.forall_mem_append] at inside
    have spelled : ((member.map f).map (·.text source)) = member.map (·.text source) := by
      simp [Function.comp_def, keeps.text]
    simp only [Shape.map, keeps.site, spelled]
    exact related_lowerRequired inside.1 fun operand => done _
  | composite type elements =>
    simp only [Shape.members, List.forall_mem_append] at inside
    simp only [Shape.map, keeps.site]
    refine congruence.bind (related_lowerOption inside.1) fun type => ?_
    exact congruence.bind (related_lowerAll inside.2) fun elements => done _
  | wrapper inner => exact inside inner (List.mem_singleton_self inner) place
  | keyed parts =>
    simp only [Shape.map, keeps.site, List.head?_map, List.getLast?_map]
    cases first : parts.head? with
    | none => exact congruence.failure _
    | some key =>
      cases last : parts.getLast? with
      | none => exact congruence.failure _
      | some value =>
        have here := enclosed key (List.mem_of_mem_head? first)
        have unwrapped := agree key.unwrapped (here.trans key.contains_unwrapped)
        have listed := inside value (List.mem_of_getLast? last)
        refine congruence.bind (related_lowerKey keeps unwrapped) fun key => ?_
        exact congruence.bind (listed.child _) fun value => done _
  | closure => exact scope generic fun node => node
  | statement inner =>
    simp only [Shape.map, keeps.site]
    have expression := inside inner (List.mem_singleton_self inner)
    exact congruence.bind (expression.child _) fun node => done _
  | define left right =>
    simp only [Shape.members, List.forall_mem_append] at enclosed
    simp only [Shape.map, keeps.site, keeps.listed_option, List.length_map]
    have targets := agree_of_mem_listed agree enclosed.1
    refine congruence.bind (related_lowerAll (agree_of_mem_listed agree enclosed.2)) fun right => ?_
    cases left with
    | none => exact congruence.failure _
    | some left =>
      simp only [Option.map_some, required, pure_bind]
      refine congruence.bind (related_lowerTargets keeps targets) fun left => ?_
      exact congruence.bind (related_forM left (related_declareNode _)) fun _ => done _
  | assign left right =>
    simp only [Shape.members, List.forall_mem_append] at enclosed
    simp only [Shape.map, keeps.site, keeps.listed_option]
    refine congruence.bind (related_lowerAll (agree_of_mem_listed agree enclosed.1)) fun left => ?_
    refine congruence.bind (related_lowerAll (agree_of_mem_listed agree enclosed.2)) fun right => ?_
    exact done _
  | block statements =>
    simp only [Shape.map, keeps.site]
    exact scope (related_lowerAll inside) _
  | binder marker left right =>
    simp only [Shape.members, List.forall_mem_append] at enclosed inside
    simp only [Shape.map, keeps.site, keeps.listed_option, List.length_map]
    refine related_lowerRequired inside.2 fun right => ?_
    have names := agree_of_mem_listed agree enclosed.1
    exact congruence.bind (related_lowerMarked keeps names) fun left => done _
  | typeSwitch bound value parts =>
    simp only [Shape.members, List.forall_mem_append] at enclosed inside
    simp only [Shape.map, keeps.site]
    have names := agree_of_mem_listed agree enclosed.1.1
    exact scope (related_lowerSwitch keeps inside.2 names) _
  | packageClause names =>
    simp only [Shape.map, List.forM_eq_forM, List.forM_map, keeps.text]
    exact congruence.bind (related_forM names fun name => congruence.event _) fun _ => generic
  | group specs =>
    simp only [Shape.map, keeps.site]
    exact congruence.bind (related_lowerAll inside) fun specs => done _
  | valueSpec constant names type value =>
    simp only [Shape.members, List.forall_mem_append] at enclosed inside
    have spelled : (names.map f).map (·.identNode source) = names.map (·.identNode source) := by
      simp [keeps.identNode]
    simp only [Shape.map, keeps.site, keeps.listed_option, List.length_map, spelled]
    have values := agree_of_mem_listed agree enclosed.2
    refine congruence.bind (related_lowerOption inside.1.2) fun type => ?_
    refine congruence.bind (related_lowerAll values) fun values => ?_
    exact congruence.bind (related_forM _ (related_declareNode _)) fun _ => done _
  | function declares name signature body =>
    simp only [Shape.members, List.forall_mem_append] at inside
    have spelled : (name.map f).map (·.text source) = name.map (·.text source) := by
      simp [Function.comp_def, keeps.text]
    simp only [Shape.map, keeps.site, spelled]
    generalize (name.map (·.text source)).getD "" = spelling
    cases name
    case' some name =>
      simp only [Option.map_some, keeps.text, keeps.label]
      refine congruence.bind (related_emitIf _ _) fun _ => ?_
    -- What is left is the scope of the signature and the body.
    all_goals
      refine congruence.bind (congruence.event _) fun _ => ?_
      refine congruence.bind (related_lowerAll inside.1.2) fun nodes => ?_
      have closing (body : Option (List Node)) := congruence.bind (congruence.event .closed)
        fun _ => done (Node.function tree.site spelling nodes body)
      cases body with
      | none => exact closing none
      | some statements =>
        simp only [Option.map_some, map_eq_pure_bind]
        refine congruence.bind ?_ closing
        exact congruence.bind (related_lowerAll inside.2) fun nodes => done _
  | parameter names type =>
    simp only [Shape.members, List.forall_mem_append] at inside
    simp only [Shape.map, keeps.site]
    refine congruence.bind (related_lowerParameters keeps source names) fun names => ?_
    exact congruence.bind (related_lowerOption inside.2) fun type => done _
  | shapeless => exact generic

end

end LoweringCongruence

end AssetRefs
