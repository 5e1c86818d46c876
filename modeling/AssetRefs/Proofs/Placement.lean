import AssetRefs.Proofs.LoweringCongruence
import Mathlib.Data.List.Forall2

/-! # Lowerings at other places

A node is lowered in the same way wherever it stands. Only the places of the declarations in its
events change with it: see `lower_append`. So what the lowering of a file gives is put together from
what its parts give when each is lowered for itself: see `gives_sourceFile_iff`.
-/

namespace AssetRefs

open Lowering

/-- The lowering with the declarations of its events at other places. -/
def Lowering.relocate {α : Type} (move : Address → Address) (step : Lowering α) : Lowering α :=
  match step with
  | .error error => .error error
  | .ok (value, events) => .ok (value, events.map (ScopeEvent.relocate move))

theorem Lowering.gives_relocate_iff {α : Type} {move : Address → Address} {step : Lowering α}
    {value : α} {events : List ScopeEvent} :
    (step.relocate move).Gives value events ↔
      ∃ own, step.Gives value own ∧ events = own.map (ScopeEvent.relocate move) := by
  constructor
  · intro gives
    rcases step with _ | ⟨result, own⟩
    · cases gives
    · cases gives
      exact ⟨own, rfl, rfl⟩
  · rintro ⟨own, given, rfl⟩
    cases given
    rfl

section

variable {α β : Type} (move : Address → Address)

theorem Lowering.relocate_pure (value : α) :
    (pure value : Lowering α).relocate move = pure value := rfl

theorem Lowering.relocate_fail (error : LowerError) :
    (fail error : Lowering α).relocate move = fail error := rfl

theorem Lowering.relocate_emit (event : ScopeEvent) :
    (emit event).relocate move = emit (event.relocate move) := rfl

theorem Lowering.relocate_bind (step : Lowering α) (next : α → Lowering β) :
    (step >>= next).relocate move =
      step.relocate move >>= fun value => (next value).relocate move := by
  rcases step with error | ⟨value, events⟩
  · rfl
  · simp only [Bind.bind, Lowering.relocate]
    rcases next value with error | ⟨result, rest⟩
    · rfl
    · simp only [List.map_append]
      rfl

end

/-- A lowering and the same one with all places inside another place. -/
def LoweringCongruence.relocation (outer : Address) : LoweringCongruence where
  Related first second := second = first.relocate (· ++ outer)
  move place := place ++ outer
  move_cons _ _ := rfl
  value value := (relocate_pure _ value).symm
  failure error := (relocate_fail _ error).symm
  event event := (relocate_emit _ event).symm
  bind := by
    rintro α β first _ next other rfl later
    rw [relocate_bind]
    exact congrArg _ (funext later)

/-- A node further inside is lowered in the same way. -/
theorem lower_append (source : ByteArray) (limit : Nat) (place outer : Address)
    (tree : Concrete) :
    lower source limit (place ++ outer) tree =
      (lower source limit place tree).relocate (· ++ outer) := by
  induction limit generalizing place tree with
  | zero => rfl
  | succ limit ih =>
    exact (LoweringCongruence.relocation outer).related_lowerShape .id tree.shape.map_id.symm
      fun part _ place => ih place part

/-! ## Files -/

/-- The events of blocks that are lowered one after the other, the first one as the child at
position `first` of the root. -/
def placedFrom (first : Nat) (blocks : List (List ScopeEvent)) : List ScopeEvent :=
  (blocks.zipIdx first).flatMap fun entry =>
    entry.1.map (ScopeEvent.relocate (· ++ [entry.2]))

theorem gives_lowerAll_iff {lower : Address → Concrete → Lowering Node} {parts : List Concrete}
    (moves : ∀ part ∈ parts, ∀ position,
      lower [position] part = (lower [] part).relocate (· ++ [position]))
    {first : Nat} {nodes : List Node} {events : List ScopeEvent} :
    (lowerAll lower [] first parts).Gives nodes events ↔
      ∃ pieces : List (Node × List ScopeEvent),
        List.Forall₂ (fun part piece => (lower [] part).Gives piece.1 piece.2) parts pieces ∧
        nodes = pieces.map Prod.fst ∧ events = placedFrom first (pieces.map Prod.snd) := by
  induction parts generalizing first nodes events with
  | nil =>
    rw [lowerAll, gives_pure_iff]
    constructor
    · rintro ⟨rfl, rfl⟩
      exact ⟨[], .nil, rfl, rfl⟩
    · rintro ⟨_, ⟨⟩, rfl, rfl⟩
      exact ⟨rfl, rfl⟩
  | cons part rest ih =>
    rw [List.forall_mem_cons] at moves
    simp only [lowerAll, gives_cons_iff, moves.1, gives_relocate_iff, ih moves.2]
    constructor
    · rintro ⟨node, _, _, _, ⟨own, given, rfl⟩, ⟨pieces, lowered, rfl, rfl⟩, rfl, rfl⟩
      exact ⟨(node, own) :: pieces, .cons given lowered, rfl, rfl⟩
    · rintro ⟨_, lowered, rfl, rfl⟩
      cases lowered with
      | cons given lowered =>
        exact ⟨_, _, _, _, ⟨_, given, rfl⟩, ⟨_, lowered, rfl, rfl⟩, rfl, rfl⟩

/-- A part of a file is lowered with as much room for nesting as it needs. -/
theorem exists_lowerPart_eq (source : ByteArray) (limit : Nat) (part : Concrete) :
    ∃ room, ∀ place, lowerPart (lower source limit) place part = lower source room place part := by
  unfold lowerPart
  split_ifs with shapeless
  · exact ⟨limit + 1, fun place => (lower_of_isShapeless source limit place shapeless).symm⟩
  · exact ⟨limit, fun _ => rfl⟩

/-- What the lowering of a file gives is what its parts give, at their positions. -/
theorem gives_sourceFile_iff {source : ByteArray} {limit : Nat} {root : Concrete}
    (kind : root.kind = "source_file") {node : Node} {events : List ScopeEvent} :
    (lower source (limit + 1) [] root).Gives node events ↔
      ∃ pieces : List (Node × List ScopeEvent),
        List.Forall₂ (fun part piece =>
          (lowerPart (lower source limit) [] part).Gives piece.1 piece.2) root.parts pieces ∧
        node = .generic root.site (pieces.map Prod.fst) ∧
        events = placedFrom 0 (pieces.map Prod.snd) := by
  have shapeless : root.isShapeless := by
    rw [Concrete.isShapeless, kind]
    decide
  have scopeless : root.opensScope = false := by
    rw [Concrete.opensScope, kind]
    decide
  have moves : ∀ part ∈ root.parts, ∀ position, lowerPart (lower source limit) [position] part =
      (lowerPart (lower source limit) [] part).relocate (· ++ [position]) := by
    intro part _ position
    obtain ⟨room, same⟩ := exists_lowerPart_eq source limit part
    rw [same, same]
    exact lower_append source room [] [position] part
  rw [lower_of_isShapeless _ _ _ shapeless, lowerGeneric_eq, scopeless]
  simp only [emitIf, Bool.false_eq_true, ↓reduceIte, pure_bind, gives_bind_iff, gives_pure_iff,
    gives_lowerAll_iff moves]
  constructor
  · rintro ⟨_, _, _, ⟨pieces, lowered, rfl, rfl⟩, ⟨rfl, rfl⟩, rfl⟩
    exact ⟨pieces, lowered, rfl, List.append_nil _⟩
  · rintro ⟨pieces, lowered, rfl, rfl⟩
    exact ⟨_, _, [], ⟨pieces, lowered, rfl, rfl⟩, ⟨rfl, rfl⟩, (List.append_nil _).symm⟩

end AssetRefs
