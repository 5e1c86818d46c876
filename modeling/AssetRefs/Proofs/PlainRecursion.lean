import AssetRefs.Proofs.LoweringCongruence

/-! # Lowering as plain recursion

The lowering has a limit on how deep nodes with a shape are nested, and a stack for the nodes
without one. Neither is visible in what it gives. `lowerFully` has no limit: it is the fixed point
of one level of the lowering (`lowerFully_eq`), and a limit cuts it off or makes no difference
(`lower_cutOff`). `lowerPlainly` has no stack, and the stack gives the same result and the same
state as it does: see `stack_agrees_with_recursion`.
-/

namespace AssetRefs

open Lowering

/-! ## Without the limit -/

/-- Lowers a tree however deep its nodes are nested. -/
def lowerFully (source : ByteArray) (place : Address) (tree : Concrete) : Lowering Node :=
  lower source tree.weight place tree

section

variable {source : ByteArray} {place : Address} {tree : Concrete}

/-- One level of the lowering depends on how the nodes below are lowered and on nothing else. -/
theorem lowerShape_congr {first second : Address → Concrete → Lowering Node}
    (agree : ∀ part, tree.Encloses part → ∀ place, first place part = second place part) :
    lowerShape source first place tree = lowerShape source second place tree :=
  LoweringCongruence.equality.related_lowerShape .id tree.shape.map_id.symm agree

/-- A limit that leaves room for all nodes may as well be higher. -/
theorem lower_succ_of_weight_le {limit : Nat} (fits : tree.weight ≤ limit) :
    lower source (limit + 1) place tree = lower source limit place tree := by
  induction limit generalizing place tree with
  | zero =>
    have positive := tree.weight_eq
    omega
  | succ limit ih =>
    refine lowerShape_congr fun part enclosed place => ih ?_
    have smaller := enclosed.weight_lt
    omega

theorem lower_of_weight_le {limit : Nat} (fits : tree.weight ≤ limit) :
    lower source limit place tree = lowerFully source place tree := by
  obtain ⟨room, rfl⟩ := Nat.exists_eq_add_of_le fits
  clear fits
  induction room with
  | zero => rfl
  | succ room ih => exact (lower_succ_of_weight_le (Nat.le_add_right ..)).trans ih

/-- The nodes below are lowered in the same way. -/
theorem lowerFully_eq (source : ByteArray) (place : Address) (tree : Concrete) :
    lowerFully source place tree = lowerShape source (lowerFully source) place tree := by
  have roomy : lowerFully source place tree = lower source (tree.weight + 1) place tree :=
    (lower_of_weight_le (Nat.le_succ _)).symm
  rw [roomy]
  refine lowerShape_congr fun part enclosed place => ?_
  exact lower_of_weight_le (Nat.le_of_lt enclosed.weight_lt)

theorem lowerFully_of_isShapeless (shapeless : tree.isShapeless) :
    lowerFully source place tree = lowerGeneric (lowerFully source) place tree := by
  rw [lowerFully_eq, lowerShape, tree.shape_of_isShapeless shapeless]

theorem lowerPart_lowerFully (source : ByteArray) :
    lowerPart (lowerFully source) = lowerFully source := by
  funext place tree
  unfold lowerPart
  split_ifs with shapeless
  · exact (lowerFully_of_isShapeless shapeless).symm
  · rfl

end

/-- The first lowering is the second one, unless it ends at the limit. -/
def Lowering.CutOff {α : Type} (first second : Lowering α) : Prop :=
  first = fail .tooDeep ∨ first = second

/-- Lowerings that may end at the limit. -/
def LoweringCongruence.cuttingOff : LoweringCongruence where
  Related := Lowering.CutOff
  move := id
  move_cons := equality.move_cons
  value _ := .inr rfl
  failure _ := .inr rfl
  event event := .inr (by rw [event.relocate_id])
  bind := by
    rintro α β first _ next other (rfl | rfl) later
    · exact .inl rfl
    · rcases first with error | ⟨value, events⟩
      · exact .inr rfl
      · rcases later value with ended | same
        · refine .inl ?_
          simp only [Bind.bind, ended, fail]
          rfl
        · refine .inr ?_
          simp only [Bind.bind, same]

/-- A limit cuts a lowering off or makes no difference. -/
theorem lower_cutOff (source : ByteArray) (limit : Nat) (place : Address) (tree : Concrete) :
    (lower source limit place tree).CutOff (lowerFully source place tree) := by
  induction limit generalizing place tree with
  | zero => exact .inl rfl
  | succ limit ih =>
    rw [lowerFully_eq]
    exact LoweringCongruence.cuttingOff.related_lowerShape .id tree.shape.map_id.symm
      fun part _ place => ih place part

/-! ## Without the stack -/

/-- Lowers the parts of a node in order, in a scope if it opens one, and puts them together. -/
def lowerParts (lower : Address → Concrete → Lowering Node) (place : Address)
    (tree : Concrete) : Lowering Node := do
  emitIf tree.opensScope .opened
  let nodes ← lowerAll lower place 0 tree.parts
  emitIf tree.opensScope .closed
  return .generic tree.site nodes

mutual

/-- Lowers a node as one that only carries its parts, the shapeless ones among them by recursion. -/
def lowerPlainly (lower : Address → Concrete → Lowering Node) :
    Address → Concrete → Lowering Node
  | place, .node label children => do
    emitIf (Concrete.node label children).opensScope .opened
    let nodes ← lowerPlainlyAll lower place 0 children
    emitIf (Concrete.node label children).opensScope .closed
    return .generic (Concrete.node label children).site nodes

/-- Lowers the named children that are no comments. -/
def lowerPlainlyAll (lower : Address → Concrete → Lowering Node) :
    Address → (first : Nat) → List Concrete → Lowering (List Node)
  | _, _, [] => pure []
  | place, first, child :: rest =>
    if child.label.named && child.kind != "comment" then do
      let node ← (if child.isShapeless then lowerPlainly lower (first :: place) child
        else lower (first :: place) child)
      let nodes ← lowerPlainlyAll lower place (first + 1) rest
      return node :: nodes
    else lowerPlainlyAll lower place first rest

end

theorem lowerPlainlyAll_eq {lower : Address → Concrete → Lowering Node} {place : Address}
    {first : Nat} {children : List Concrete}
    (below : ∀ child ∈ children, ∀ place,
      lowerGeneric lower place child = lowerPlainly lower place child) :
    lowerPlainlyAll lower place first children =
      lowerAll (lowerPart lower) place first
        (children.filter fun child => child.label.named && child.kind != "comment") := by
  induction children generalizing first with
  | nil => rfl
  | cons child rest ih =>
    rw [List.forall_mem_cons] at below
    rw [lowerPlainlyAll, List.filter_cons]
    by_cases counted : (child.label.named && child.kind != "comment") = true
    · rw [if_pos counted, if_pos counted]
      simp only [lowerAll, lowerPart, below.1, ih below.2]
    · rw [if_neg counted, if_neg counted]
      exact ih below.2

/-- A stack of frames does what recursion does. -/
theorem lowerGeneric_eq_lowerPlainly (lower : Address → Concrete → Lowering Node)
    (place : Address) (tree : Concrete) :
    lowerGeneric lower place tree = lowerPlainly lower place tree := by
  induction size : tree.weight using Nat.strongRecOn generalizing tree place with
  | ind size ih =>
    subst size
    obtain ⟨label, children⟩ := tree
    have below : ∀ child ∈ children, ∀ place,
        lowerGeneric lower place child = lowerPlainly lower place child := by
      intro child member place
      have enclosed : (Concrete.node label children).Encloses child := ⟨child, member, .self⟩
      exact ih child.weight enclosed.weight_lt place child rfl
    rw [lowerGeneric_eq, lowerPlainly, lowerPlainlyAll_eq below]
    rfl

/-! ## The same state -/

/-- What a lowering makes of a state: its result and the state after its events. -/
def Lowering.runIn {α : Type} (step : Lowering α) (state : NameState) :
    Except LowerError (α × NameState) :=
  match step with
  | .error error => .error error
  | .ok (value, events) => .ok (value, state.replay events)

/-- The stack for shapeless nodes agrees with recursion, in the result and in the whole state
afterwards. With no limit, recursion leaves every part to the lowering itself. With a limit, it
goes through any number of nested shapeless nodes and leaves only the nodes with a shape to the
lowering, at the same limit. -/
theorem stack_agrees_with_recursion (source : ByteArray) (place : Address) (tree : Concrete)
    (state : NameState) :
    (lowerGeneric (lowerFully source) place tree).runIn state =
      (lowerParts (lowerFully source) place tree).runIn state ∧
    ∀ limit, (lowerGeneric (lower source limit) place tree).runIn state =
      (lowerPlainly (lower source limit) place tree).runIn state := by
  constructor
  · rw [lowerGeneric_eq, lowerPart_lowerFully, lowerParts]
  · intro limit
    rw [lowerGeneric_eq_lowerPlainly]

end AssetRefs
