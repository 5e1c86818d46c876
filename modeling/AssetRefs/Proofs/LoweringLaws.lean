import AssetRefs.Proofs.ConcreteShapes

/-! # Laws of lowering

A lowering either fails or gives a result and the scope events on the way to it. What it gives is
taken apart step by step: see `Lowering.gives_bind_iff`.

Runs of shapeless nodes are lowered with a stack of frames. `lowerGeneric_eq` is the equation that
plain recursion over the parts of a node would satisfy, so nothing else needs to know the stack.
-/

namespace AssetRefs

namespace Lowering

variable {α β : Type} {events : List ScopeEvent}

/-- The lowering succeeds with a result and the given events. -/
def Gives (step : Lowering α) (value : α) (events : List ScopeEvent) : Prop :=
  step = .ok (value, events)

theorem gives_pure_iff {value result : α} :
    (pure value : Lowering α).Gives result events ↔ result = value ∧ events = [] := by
  constructor
  · rintro ⟨⟩
    exact ⟨rfl, rfl⟩
  · rintro ⟨rfl, rfl⟩
    rfl

theorem gives_bind_iff {step : Lowering α} {next : α → Lowering β} {result : β} :
    (step >>= next).Gives result events ↔
      ∃ value first second, step.Gives value first ∧ (next value).Gives result second ∧
        events = first ++ second := by
  constructor
  · intro gives
    rcases step with _ | ⟨value, first⟩
    · cases gives
    · simp only [Gives, bind] at gives
      split at gives
      · cases gives
      · next second ended =>
        cases gives
        exact ⟨value, first, second, rfl, ended, rfl⟩
  · rintro ⟨value, first, second, given, ended, rfl⟩
    simp only [Gives] at given ended
    subst given
    simp only [Gives, bind, ended]
    rfl

theorem gives_emit_iff {event : ScopeEvent} {done : Unit} :
    (emit event).Gives done events ↔ events = [event] := by
  constructor
  · rintro ⟨⟩
    rfl
  · rintro rfl
    rfl

theorem gives_emitIf_iff {condition : Bool} {event : ScopeEvent} {done : Unit} :
    (emitIf condition event).Gives done events ↔ events = if condition then [event] else [] := by
  cases condition with
  | false => exact gives_pure_iff.trans (by simp)
  | true => exact gives_emit_iff

theorem gives_required_iff {child : Option Concrete} {tree : Concrete} :
    (required child).Gives tree events ↔ child = some tree ∧ events = [] := by
  cases child with
  | none =>
    constructor
    · rintro ⟨⟩
    · rintro ⟨⟨⟩, _⟩
  | some child =>
    rw [required, gives_pure_iff, Option.some.injEq]
    exact and_congr_left fun _ => eq_comm

theorem gives_cons_iff {step : Lowering α} {others : Lowering (List α)} {results : List α} :
    (step >>= fun value => others >>= fun values => pure (value :: values)).Gives results events ↔
      ∃ value told values later, step.Gives value told ∧ others.Gives values later ∧
        results = value :: values ∧ events = told ++ later := by
  simp only [gives_bind_iff, gives_pure_iff]
  constructor
  · rintro ⟨value, told, _, given, ⟨values, later, _, followed, ⟨rfl, rfl⟩, rfl⟩, rfl⟩
    rw [List.append_nil]
    exact ⟨value, told, values, later, given, followed, rfl, rfl⟩
  · rintro ⟨value, told, values, later, given, followed, rfl, rfl⟩
    exact ⟨value, told, later, given, ⟨values, later, [], followed, ⟨rfl, rfl⟩, by simp⟩, rfl⟩

theorem gives_scope_iff {step : Lowering α} {next : α → β} {result : β} :
    (emit .opened >>= fun _ => step >>= fun value => emit .closed >>= fun _ =>
        pure (next value)).Gives result events ↔
      ∃ value told, step.Gives value told ∧ result = next value ∧
        events = .opened :: (told ++ [.closed]) := by
  simp only [gives_bind_iff, gives_emit_iff, gives_pure_iff]
  constructor
  · rintro ⟨_, _, _, rfl, ⟨value, told, _, given, ⟨_, _, _, rfl, ⟨rfl, rfl⟩, rfl⟩, rfl⟩, rfl⟩
    exact ⟨value, told, given, rfl, rfl⟩
  · rintro ⟨value, told, given, rfl, rfl⟩
    exact ⟨(), _, _, rfl, ⟨value, told, _, given, ⟨(), _, _, rfl, ⟨rfl, rfl⟩, rfl⟩, rfl⟩, rfl⟩

/-- Steps that only tell something are told one after the other. -/
theorem gives_forM_iff {step : α → Lowering Unit} {told : α → List ScopeEvent}
    (tells : ∀ value, (step value).Gives () (told value)) {values : List α} {done : Unit} :
    (values.forM step).Gives done events ↔ events = values.flatMap told := by
  induction values generalizing events with
  | nil => exact gives_pure_iff.trans (by simp)
  | cons value rest ih =>
    change (step value >>= fun _ => rest.forM step).Gives done events ↔ _
    rw [gives_bind_iff, List.flatMap_cons]
    constructor
    · rintro ⟨_, first, second, given, ended, rfl⟩
      cases (tells value).symm.trans given
      rw [ih.mp ended]
    · rintro rfl
      exact ⟨(), _, _, tells value, ih.mpr rfl, rfl⟩

instance : LawfulMonad Lowering := LawfulMonad.mk' Lowering
  (by
    rintro α (_ | ⟨value, events⟩)
    · rfl
    · exact congrArg (fun told => Except.ok (value, told)) (List.append_nil events))
  (by
    intro α β value next
    simp only [bind, pure]
    rcases next value with _ | ⟨result, events⟩
    · rfl
    · rfl)
  (by
    rintro α β γ (_ | ⟨value, first⟩) next last
    · rfl
    · simp only [bind]
      rcases next value with _ | ⟨middle, second⟩
      · rfl
      · simp only
        rcases last middle with _ | ⟨result, third⟩
        · rfl
        · exact congrArg (fun told => Except.ok (result, told)) (List.append_assoc ..))

end Lowering

open Lowering

/-! ## Shapeless nodes -/

/-- Lowers a part of a shapeless node: one that is shapeless itself is not left to `lower`. -/
def lowerPart (lower : Address → Concrete → Lowering Node) (place : Address) (tree : Concrete) :
    Lowering Node :=
  if tree.isShapeless then lowerGeneric lower place tree else lower place tree

/-- What is left to do when the node of a frame is complete. -/
def resumeFrames (lower : Address → Concrete → Lowering Node) (node : Node) :
    List Frame → Lowering Node
  | [] => pure node
  | parent :: rest => lowerFrames lower { parent with done := node :: parent.done } rest

/-- A stack of frames lowers the parts that are left in its first frame and goes on with the frames
around it. -/
theorem lowerFrames_eq (lower : Address → Concrete → Lowering Node) (frame : Frame)
    (stack : List Frame) :
    lowerFrames lower frame stack = (do
      let nodes ← lowerAll (lowerPart lower) frame.place frame.taken frame.pending
      emitIf frame.hasScope .closed
      resumeFrames lower (.generic frame.site (frame.done.reverse ++ nodes)) stack) := by
  induction size : frame.weight + Frame.weights stack using Nat.strongRecOn
    generalizing frame stack with
  | ind size ih =>
    obtain ⟨site, place, hasScope, pending, done, taken⟩ := frame
    subst size
    rw [lowerFrames.eq_def]
    cases pending with
    | nil =>
      simp only [lowerAll, pure_bind, List.append_nil]
      cases stack <;> rfl
    | cons part rest =>
      -- The frame without the part, whatever node the part gives.
      have later (node : Node) := ih _ (by
        have positive := part.weight_eq
        simp only [Frame.weight, Concrete.weights]
        omega) ⟨site, place, hasScope, rest, node :: done, taken + 1⟩ stack rfl
      simp only [lowerAll, bind_assoc, pure_bind]
      split_ifs with shapeless
      · have entered := Frame.weight_enter_lt (taken :: place) part
        have alone := ih _ (by
          simp only [Frame.weight, Frame.weights, Concrete.weights] at entered ⊢
          omega) (.enter (taken :: place) part) [] rfl
        have stacked := ih _ (by
          simp only [Frame.weight, Frame.weights, Concrete.weights] at entered ⊢
          omega) (.enter (taken :: place) part)
            (⟨site, place, hasScope, rest, done, taken + 1⟩ :: stack) rfl
        rw [stacked, lowerPart, if_pos shapeless, lowerGeneric, alone]
        simp only [bind_assoc, pure_bind, resumeFrames, later, List.reverse_cons, List.append_assoc,
          List.singleton_append]
      · simp only [lowerPart, shapeless, Bool.false_eq_true, ↓reduceIte, later, List.reverse_cons,
          List.append_assoc, List.singleton_append]

/-- Lowering a shapeless node is lowering its parts, in a scope if it opens one. -/
theorem lowerGeneric_eq (lower : Address → Concrete → Lowering Node) (place : Address)
    (tree : Concrete) :
    lowerGeneric lower place tree = (do
      emitIf tree.opensScope .opened
      let nodes ← lowerAll (lowerPart lower) place 0 tree.parts
      emitIf tree.opensScope .closed
      return .generic tree.site nodes) := by
  rw [lowerGeneric, lowerFrames_eq]
  rfl

theorem lower_of_isShapeless (source : ByteArray) (limit : Nat) (place : Address) {tree : Concrete}
    (shapeless : tree.isShapeless) :
    lower source (limit + 1) place tree = lowerGeneric (lower source limit) place tree := by
  rw [lower, lowerShape, tree.shape_of_isShapeless shapeless]

theorem lowerAll_lowerPart {lower : Address → Concrete → Lowering Node} {trees : List Concrete}
    (shaped : ∀ part ∈ trees, part.isShapeless = false) (place : Address) (first : Nat) :
    lowerAll (lowerPart lower) place first trees = lowerAll lower place first trees := by
  induction trees generalizing first with
  | nil => rfl
  | cons part rest ih =>
    rw [List.forall_mem_cons] at shaped
    simp only [lowerAll, lowerPart, shaped.1, Bool.false_eq_true, ↓reduceIte, ih shaped.2]

end AssetRefs
