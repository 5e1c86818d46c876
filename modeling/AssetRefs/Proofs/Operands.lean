import AssetRefs.Proofs.Layout
import AssetRefs.Proofs.PlainRecursion
import Mathlib.Data.List.Forall2

/-! # What a node is lowered from

The children of a lowered node come one for one and in order from nodes of the concrete tree, its
operands: see `Concrete.operands`. A node that has all the parts which its shape needs is lowered if
its operands are, and what is known of each operand and its lowered node is known of the children:
see `yields_lowerFully`.
-/

namespace AssetRefs

namespace Concrete

/-- The nodes that the children of a lowered type switch come from: the bound name does not stay
where it stands, it follows the switched value. -/
def switchOperands (bound value : Option Concrete) : List Concrete → List Concrete
  | [] => []
  | part :: rest =>
    if bound.any part.sameAs then switchOperands bound value rest
    else
      part :: (if value.any part.sameAs then (bound.map listed).getD [] else []) ++
        switchOperands bound value rest

/-- The nodes that the children of the lowered node come from. For a node that stands for its only
part, it is that part. -/
def operands (tree : Concrete) : List Concrete :=
  match tree.shape with
  | .name | .literal => []
  | .call callee arguments => callee.toList ++ arguments
  | .selector operand _ => operand.toList
  | .composite type elements => type.toList ++ elements
  | .wrapper inner | .statement inner => [inner]
  | .keyed parts => parts.head?.toList.map unwrapped ++ parts.getLast?.toList
  | .define left right | .assign left right =>
    (left.map listed).getD [] ++ (right.map listed).getD []
  | .block nodes | .group nodes => nodes
  | .binder _ left right => (left.map listed).getD [] ++ right.toList
  | .typeSwitch bound value parts => switchOperands bound value parts
  | .valueSpec _ names type value => names ++ type.toList ++ (value.map listed).getD []
  | .function _ _ signature body => signature ++ body.getD []
  | .parameter names type => names ++ type.toList
  | .closure | .packageClause _ | .shapeless => tree.parts

theorem mem_of_mem_switchOperands {bound value : Option Concrete} {parts : List Concrete}
    {part : Concrete} (member : part ∈ switchOperands bound value parts) :
    part ∈ parts ∨ part ∈ (bound.map listed).getD [] := by
  induction parts with
  | nil => cases member
  | cons first rest ih =>
    unfold switchOperands at member
    split_ifs at member <;> grind

theorem encloses_of_mem_operands {tree part : Concrete} (member : part ∈ tree.operands) :
    tree.Encloses part := by
  have inside : ∀ part ∈ tree.shape.members, tree.Encloses part :=
    fun _ => encloses_of_mem_shape
  have parts : part ∈ tree.parts → tree.Encloses part := encloses_of_mem_parts
  unfold operands at member
  generalize tree.shape = shape at inside member
  cases shape with
  | keyed pair =>
    rcases List.mem_append.mp member with member | member
    · obtain ⟨key, first, rfl⟩ := List.mem_map.mp member
      have here := inside key (List.mem_of_mem_head? (Option.mem_toList.mp first))
      exact here.trans key.contains_unwrapped
    · exact inside part (List.mem_of_getLast? (Option.mem_toList.mp member))
  | typeSwitch bound value parts =>
    simp only [Shape.members, List.forall_mem_append] at inside
    rcases mem_of_mem_switchOperands member with member | member
    · exact inside.2 part member
    · exact encloses_of_mem_listed inside.1.1 part member
  | _ => grind [Shape.members, encloses_of_mem_listed]

/-- The part may become a name of the lowered node instead of being lowered. -/
def TakesForName (tree part : Concrete) : Prop :=
  part.kind = "identifier" ∨ part.kind = "field_identifier" ∨ part ∈ tree.shape.names

/-- The place of a call. -/
def callSite? (tree : Concrete) : Option Site :=
  if tree.kind = "call_expression" then some tree.site else none

theorem kind_of_shape_call {tree : Concrete} {callee : Option Concrete}
    {arguments : List Concrete} (shaped : tree.shape = .call callee arguments) :
    tree.kind = "call_expression" := by
  cases Shaped.of_eq shaped with
  | call kind => exact kind

theorem callSite?_eq (tree : Concrete) :
    tree.callSite? = match tree.shape with
      | .call .. => some tree.site
      | _ => none := by
  by_cases kind : tree.kind = "call_expression"
  · simp only [callSite?, shape, kind, if_true]
  · rw [callSite?, if_neg kind]
    split
    · next shaped => exact absurd (kind_of_shape_call shaped) kind
    · rfl

end Concrete

/-- Whether the shape has the parts without which there is no lowered node. -/
def Shape.isComplete : Shape → Bool
  | call callee _ => callee.isSome
  | selector operand _ => operand.isSome
  | keyed parts => !parts.isEmpty
  | define left _ => left.isSome
  | binder _ _ right => right.isSome
  | _ => true

/-- The place of a call. -/
def Node.callSite? : Node → Option Site
  | call site .. => some site
  | _ => none

namespace Lowering

variable {α β : Type}

/-- The lowering succeeds with a result that has the property. -/
def Yields (step : Lowering α) (holds : α → Prop) : Prop :=
  ∃ value events, step.Gives value events ∧ holds value

theorem yields_pure {holds : α → Prop} {value : α} (here : holds value) :
    (pure value : Lowering α).Yields holds :=
  ⟨value, [], rfl, here⟩

theorem Yields.bind {step : Lowering α} {next : α → Lowering β} {holds : α → Prop}
    {after : β → Prop} (first : step.Yields holds)
    (second : ∀ value, holds value → (next value).Yields after) : (step >>= next).Yields after := by
  obtain ⟨value, told, given, here⟩ := first
  obtain ⟨result, later, ended, there⟩ := second value here
  exact ⟨result, _, gives_bind_iff.mpr ⟨value, told, later, given, ended, rfl⟩, there⟩

theorem Yields.mono {step : Lowering α} {holds after : α → Prop} (first : step.Yields holds)
    (weaker : ∀ value, holds value → after value) : step.Yields after := by
  obtain ⟨value, events, given, here⟩ := first
  exact ⟨value, events, given, weaker value here⟩

theorem yields_emit (event : ScopeEvent) : (emit event).Yields fun _ => True :=
  ⟨(), [event], rfl, trivial⟩

theorem yields_emitIf (condition : Bool) (event : ScopeEvent) :
    (emitIf condition event).Yields fun _ => True :=
  ⟨(), _, gives_emitIf_iff.mpr rfl, trivial⟩

theorem yields_forM {step : α → Lowering Unit} (tells : ∀ value, (step value).Yields fun _ => True)
    (values : List α) : (values.forM step).Yields fun _ => True := by
  induction values with
  | nil => exact yields_pure trivial
  | cons value rest ih => exact (tells value).bind fun _ _ => ih

theorem yields_declareNode (target : Binding) (node : Node) :
    (declareNode target node).Yields fun _ => True :=
  ⟨(), _, gives_declareNode target node, trivial⟩

end Lowering

open Lowering

/-! ## Rows of children -/

section

variable {Related : Concrete → Node → Prop} {source : ByteArray}
  {lower : Address → Concrete → Lowering Node} {place : Address}

theorem yields_lowerAll {first : Nat} {trees : List Concrete}
    (lowered : ∀ part ∈ trees, ∀ place, (lower place part).Yields (Related part)) :
    (lowerAll lower place first trees).Yields (List.Forall₂ Related trees) := by
  induction trees generalizing first with
  | nil => exact yields_pure .nil
  | cons part rest ih =>
    rw [List.forall_mem_cons] at lowered
    refine (lowered.1 _).bind fun node here => ?_
    exact (ih lowered.2).bind fun nodes later => yields_pure (.cons here later)

theorem yields_lowerOption {tree : Option Concrete}
    (lowered : ∀ part ∈ tree.toList, ∀ place, (lower place part).Yields (Related part)) :
    (lowerOption lower place tree).Yields fun node =>
      List.Forall₂ Related tree.toList node.toList := by
  cases tree with
  | none => exact yields_pure .nil
  | some tree =>
    exact (lowered tree (by simp) _).bind fun node here => yields_pure (.cons here .nil)

theorem yields_lowerTargets {first : Nat} {trees : List Concrete}
    (lowered : ∀ part ∈ trees, ∀ place, (lower place part).Yields (Related part))
    (spelled : ∀ part ∈ trees, part.kind = "identifier" → Related part (part.identNode source)) :
    (lowerTargets source lower place first trees).Yields (List.Forall₂ Related trees) := by
  induction trees generalizing first with
  | nil => exact yields_pure .nil
  | cons part rest ih =>
    rw [List.forall_mem_cons] at lowered spelled
    have later (node : Node) (here : Related part node) :
        (lowerTargets source lower place (first + 1) rest >>= fun nodes =>
          pure (node :: nodes)).Yields (List.Forall₂ Related (part :: rest)) :=
      (ih lowered.2 spelled.2).bind fun nodes later => yields_pure (.cons here later)
    unfold lowerTargets
    split_ifs with named
    · exact (yields_pure (spelled.1 named)).bind later
    · exact (lowered.1 _).bind later

theorem yields_lowerMarked {marker : Marker} {first : Nat} {trees : List Concrete}
    (lowered : ∀ part ∈ trees, ∀ place, (lower place part).Yields (Related part))
    (spelled : ∀ part ∈ trees, part.kind = "identifier" → Related part (part.identNode source)) :
    (lowerMarked source marker lower place first trees).Yields (List.Forall₂ Related trees) := by
  induction trees generalizing first with
  | nil => exact yields_pure .nil
  | cons part rest ih =>
    rw [List.forall_mem_cons] at lowered spelled
    have later (node : Node) (here : Related part node) :
        (lowerMarked source marker lower place (first + 1) rest >>= fun nodes =>
          pure (node :: nodes)).Yields (List.Forall₂ Related (part :: rest)) :=
      (ih lowered.2 spelled.2).bind fun nodes later => yields_pure (.cons here later)
    unfold lowerMarked
    split_ifs with named
    · exact (yields_emit _).bind fun _ _ => (yields_pure (spelled.1 named)).bind later
    · exact (lowered.1 _).bind later

theorem yields_lowerParameters {trees : List Concrete}
    (spelled : ∀ part ∈ trees, Related part (part.identNode source)) :
    (lowerParameters source trees).Yields (List.Forall₂ Related trees) := by
  induction trees with
  | nil => exact yields_pure .nil
  | cons part rest ih =>
    rw [List.forall_mem_cons] at spelled
    refine (yields_emit _).bind fun _ _ => ?_
    exact (ih spelled.2).bind fun nodes later => yields_pure (.cons spelled.1 later)

theorem yields_lowerKey {tree : Concrete}
    (lowered : ∀ place, (lower place tree.unwrapped).Yields (Related tree.unwrapped))
    (spelled : tree.unwrapped.kind = "identifier" ∨ tree.unwrapped.kind = "field_identifier" →
      Related tree.unwrapped (tree.unwrapped.identNode source)) :
    (lowerKey source lower place tree).Yields (Related tree.unwrapped) := by
  simp only [lowerKey, Bool.or_eq_true, decide_eq_true_eq]
  split_ifs with named
  · exact yields_pure (spelled named)
  · exact lowered place

theorem yields_lowerSwitch {bound value : Option Concrete} {first : Nat} {trees : List Concrete}
    (lowered : ∀ part ∈ Concrete.switchOperands bound value trees, ∀ place,
      (lower place part).Yields (Related part))
    (spelled : ∀ part ∈ Concrete.switchOperands bound value trees, part.kind = "identifier" →
      Related part (part.identNode source)) :
    (lowerSwitch source bound value lower place first trees).Yields
      (List.Forall₂ Related (Concrete.switchOperands bound value trees)) := by
  induction trees generalizing first with
  | nil => exact yields_pure .nil
  | cons part rest ih =>
    unfold Concrete.switchOperands at lowered spelled ⊢
    unfold lowerSwitch
    by_cases skipped : bound.any part.sameAs
    · rw [if_pos skipped] at lowered spelled ⊢
      rw [if_pos skipped]
      exact ih lowered spelled
    · rw [if_neg skipped] at lowered spelled ⊢
      rw [if_neg skipped]
      simp only [List.cons_append, List.forall_mem_cons, List.forall_mem_append] at lowered spelled
      refine (lowered.1 _).bind fun node here => ?_
      split_ifs with switched
      · rw [if_pos switched] at lowered spelled
        refine (yields_lowerMarked lowered.2.1 spelled.2.1).bind fun names marked => ?_
        refine (ih lowered.2.2 spelled.2.2).bind fun nodes later => yields_pure ?_
        exact .cons here (List.rel_append marked later)
      · rw [if_neg switched] at lowered spelled
        rw [pure_bind]
        exact (ih lowered.2.2 spelled.2.2).bind fun nodes later => yields_pure (.cons here later)

end

/-! ## One level of the lowering -/

/-- The node is the one that a tree has instead of its own, or its children come from the operands
of the tree, and it is a call if the tree is. -/
def Assembled (Related : Concrete → Node → Prop) (tree : Concrete) (node : Node) : Prop :=
  (∃ inner, tree.shape = .wrapper inner ∧ Related inner node) ∨
    node.callSite? = tree.callSite? ∧ List.Forall₂ Related tree.operands node.children

theorem yields_lowerGeneric {Related : Concrete → Node → Prop} {source : ByteArray}
    {place : Address} {tree : Concrete}
    (lowered : ∀ part ∈ tree.parts, ∀ place,
      (lowerFully source place part).Yields (Related part)) :
    (lowerGeneric (lowerFully source) place tree).Yields fun node =>
      node.callSite? = none ∧ List.Forall₂ Related tree.parts node.children := by
  rw [lowerGeneric_eq, lowerPart_lowerFully]
  refine (yields_emitIf ..).bind fun _ _ => ?_
  refine (yields_lowerAll lowered).bind fun nodes here => ?_
  exact (yields_emitIf ..).bind fun _ _ => yields_pure ⟨rfl, here⟩

/-- A tree with the parts that it needs is lowered if its operands are, and its node is assembled
from theirs. -/
theorem yields_lowerFully {Related : Concrete → Node → Prop} {source : ByteArray}
    (place : Address) {tree : Concrete} (complete : tree.shape.isComplete)
    (lowered : ∀ part ∈ tree.operands, ∀ place,
      (lowerFully source place part).Yields (Related part))
    (spelled : ∀ part ∈ tree.operands, tree.TakesForName part →
      Related part (part.identNode source)) :
    (lowerFully source place tree).Yields (Assembled Related tree) := by
  have generic : tree.operands = tree.parts →
      (lowerGeneric (lowerFully source) place tree).Yields fun node =>
        node.callSite? = none ∧ List.Forall₂ Related tree.operands node.children := by
    intro same
    rw [same] at lowered ⊢
    exact yields_lowerGeneric lowered
  unfold Assembled
  rw [lowerFully_eq, lowerShape, tree.callSite?_eq]
  simp only [Concrete.operands, Concrete.TakesForName] at lowered spelled generic ⊢
  generalize tree.shape = shape at complete lowered spelled generic ⊢
  cases shape with
  | name =>
    refine (yields_emit _).bind fun _ _ => yields_pure ?_
    exact .inr ⟨rfl, .nil⟩
  | literal => exact yields_pure (.inr ⟨rfl, .nil⟩)
  | call callee arguments =>
    obtain ⟨callee, rfl⟩ := Option.isSome_iff_exists.mp complete
    simp only [Option.toList_some, List.singleton_append, List.forall_mem_cons] at lowered
    simp only [required, pure_bind]
    refine (lowered.1 _).bind fun function called => ?_
    refine (yields_lowerAll lowered.2).bind fun nodes passed => yields_pure ?_
    exact .inr ⟨rfl, .cons called passed⟩
  | selector operand member =>
    obtain ⟨operand, rfl⟩ := Option.isSome_iff_exists.mp complete
    simp only [required, pure_bind]
    refine (lowered operand (by simp) _).bind fun inner here => yields_pure ?_
    exact .inr ⟨rfl, .cons here .nil⟩
  | composite type elements =>
    rw [List.forall_mem_append] at lowered
    refine (yields_lowerOption lowered.1).bind fun typed here => ?_
    refine (yields_lowerAll lowered.2).bind fun nodes later => yields_pure ?_
    exact .inr ⟨rfl, List.rel_append here later⟩
  | wrapper inner =>
    refine (lowered inner (by simp) _).mono fun node here => ?_
    exact .inl ⟨inner, rfl, here⟩
  | keyed parts =>
    have filled : parts ≠ [] := by simpa [Shape.isComplete] using complete
    have first := List.head?_eq_some_head filled
    have last := List.getLast?_eq_some_getLast filled
    generalize parts.head filled = key at first
    generalize parts.getLast filled = value at last
    simp only [first, last, Option.toList_some, List.map_singleton, List.singleton_append,
      List.forall_mem_cons] at lowered spelled ⊢
    have named : key.unwrapped.kind = "identifier" ∨ key.unwrapped.kind = "field_identifier" →
        Related key.unwrapped (key.unwrapped.identNode source) := by
      rintro (kind | kind)
      · exact spelled.1 (.inl kind)
      · exact spelled.1 (.inr (.inl kind))
    refine (yields_lowerKey lowered.1 named).bind fun keyNode here => ?_
    refine (lowered.2.1 _).bind fun valueNode later => yields_pure ?_
    exact .inr ⟨rfl, .cons here (.cons later .nil)⟩
  | closure =>
    refine (yields_emit _).bind fun _ _ => ?_
    refine (generic rfl).bind fun node here => ?_
    exact (yields_emit _).bind fun _ _ => yields_pure (.inr here)
  | statement inner =>
    refine (lowered inner (by simp) _).bind fun node here => yields_pure ?_
    exact .inr ⟨rfl, .cons here .nil⟩
  | define left right =>
    obtain ⟨left, rfl⟩ := Option.isSome_iff_exists.mp complete
    simp only [List.forall_mem_append] at lowered spelled
    simp only [required, pure_bind]
    refine (yields_lowerAll lowered.2).bind fun values valued => ?_
    refine (yields_lowerTargets lowered.1 fun part member kind =>
      spelled.1 part member (.inl kind)).bind fun targets targeted => ?_
    refine (yields_forM (yields_declareNode _) _).bind fun _ _ => yields_pure ?_
    exact .inr ⟨rfl, List.rel_append targeted valued⟩
  | assign left right =>
    rw [List.forall_mem_append] at lowered
    refine (yields_lowerAll lowered.1).bind fun targets targeted => ?_
    refine (yields_lowerAll lowered.2).bind fun values valued => yields_pure ?_
    exact .inr ⟨rfl, List.rel_append targeted valued⟩
  | block statements =>
    refine (yields_emit _).bind fun _ _ => ?_
    refine (yields_lowerAll lowered).bind fun nodes here => ?_
    exact (yields_emit _).bind fun _ _ => yields_pure (.inr ⟨rfl, here⟩)
  | binder marker left right =>
    obtain ⟨right, rfl⟩ := Option.isSome_iff_exists.mp complete
    simp only [List.forall_mem_append] at lowered spelled
    simp only [required, pure_bind]
    refine (lowered.2 right (by simp) _).bind fun value valued => ?_
    refine (yields_lowerMarked lowered.1 fun part member kind =>
      spelled.1 part member (.inl kind)).bind fun names marked => yields_pure ?_
    exact .inr ⟨rfl, List.rel_append marked (.cons valued .nil)⟩
  | typeSwitch bound value parts =>
    refine (yields_emit _).bind fun _ _ => ?_
    refine (yields_lowerSwitch lowered fun part member kind =>
      spelled part member (.inl kind)).bind fun nodes here => ?_
    exact (yields_emit _).bind fun _ _ => yields_pure (.inr ⟨rfl, here⟩)
  | packageClause names =>
    refine (yields_forM (fun name => yields_emit _) _).bind fun _ _ => ?_
    exact (generic rfl).mono fun node here => .inr here
  | group specs =>
    refine (yields_lowerAll lowered).bind fun nodes here => yields_pure ?_
    exact .inr ⟨rfl, here⟩
  | valueSpec constant names type value =>
    simp only [List.forall_mem_append] at lowered spelled
    refine (yields_lowerOption lowered.1.2).bind fun typed typing => ?_
    refine (yields_lowerAll lowered.2).bind fun values valued => ?_
    refine (yields_forM (yields_declareNode _) _).bind fun _ _ => yields_pure ?_
    have named : List.Forall₂ Related names (names.map (·.identNode source)) :=
      List.forall₂_map_right_iff.mpr (List.forall₂_same.mpr fun name member =>
        spelled.1.1 name member (.inr (.inr member)))
    exact .inr ⟨rfl, List.rel_append (List.rel_append named typing) valued⟩
  | function declares name signature body =>
    rw [List.forall_mem_append] at lowered
    cases name
    case' some name => refine (yields_emitIf ..).bind fun _ _ => ?_
    -- What is left is the scope of the signature and the body.
    all_goals
      refine (yields_emit _).bind fun _ _ => ?_
      refine (yields_lowerAll lowered.1).bind fun nodes signed => ?_
      cases body with
      | none =>
        rw [pure_bind]
        refine (yields_emit _).bind fun _ _ => yields_pure ?_
        exact .inr ⟨rfl, List.rel_append signed .nil⟩
      | some statements =>
        simp only [map_eq_pure_bind, bind_assoc, pure_bind]
        refine (yields_lowerAll lowered.2).bind fun block stated => ?_
        refine (yields_emit _).bind fun _ _ => yields_pure ?_
        exact .inr ⟨rfl, List.rel_append signed stated⟩
  | parameter names type =>
    simp only [List.forall_mem_append] at lowered spelled
    refine (yields_lowerParameters fun name member =>
      spelled.1 name member (.inr (.inr member))).bind fun nodes named => ?_
    refine (yields_lowerOption lowered.2).bind fun typed typing => yields_pure ?_
    exact .inr ⟨rfl, List.rel_append named typing⟩
  | shapeless => exact (generic rfl).mono fun node here => .inr here

end AssetRefs
