import AssetRefs.Proofs.SignatureScopes
import Mathlib.Data.List.Basic

/-! # Scope discipline

A lowering leaves the scopes as it found them, except that the innermost one may have more names:
see `NameState.Grows`. Blocks, function literals, methods, type switches and the other nodes with a
scope of their own tell everything between the opening and the closing of it, so not even that
happens, and a function adds its own name at most: see `lowerings_keep_scopes`.
-/

namespace AssetRefs

open Lowering

/-! ## Scopes with more names -/

/-- The scope is another one with more names, each added once. -/
def Scope.Extends (scope before : Scope) : Prop :=
  ∃ added : Scope, scope = added ++ before ∧ (added.map Prod.fst).Nodup ∧
    ∀ entry ∈ added, before.find? entry.1 = none

namespace Scope.Extends

variable {scope before : Scope}

theorem refl (scope : Scope) : scope.Extends scope :=
  ⟨[], rfl, List.nodup_nil, by simp⟩

/-- A name that was there keeps its target. -/
theorem find?_eq (extended : scope.Extends before) {name : String} {target : Binding}
    (found : before.find? name = some target) : scope.find? name = some target := by
  obtain ⟨added, rfl, _, fresh⟩ := extended
  have absent : added.lookup name = none := by
    refine List.lookup_eq_none_iff.mpr fun entry member => ?_
    have unknown := fresh entry member
    by_contra same
    rw [bne_iff_ne, ne_eq, not_not] at same
    rw [← same, found] at unknown
    cases unknown
  rw [Scope.find?, List.lookup_append, absent]
  exact found

theorem add (extended : scope.Extends before) (name : String) (target : Binding) :
    (scope.add name target).Extends before := by
  unfold Scope.add
  split
  · exact extended
  · next unknown =>
    obtain ⟨added, rfl, distinct, fresh⟩ := extended
    rw [Scope.find?, List.lookup_append, Option.or_eq_none_iff] at unknown
    refine ⟨(name, target) :: added, rfl, ?_, ?_⟩
    · rw [List.map_cons, List.nodup_cons]
      refine ⟨fun member => ?_, distinct⟩
      obtain ⟨entry, listed, same⟩ := List.mem_map.mp member
      have other := List.lookup_eq_none_iff.mp unknown.1 entry listed
      rw [same] at other
      simp at other
    · rw [List.forall_mem_cons]
      exact ⟨unknown.2, fresh⟩

theorem addAll (scope : Scope) (entries : List (String × Binding)) :
    (scope.addAll entries).Extends scope := by
  suffices ∀ grown : Scope, grown.Extends scope → (grown.addAll entries).Extends scope from
    this scope (refl scope)
  induction entries with
  | nil => exact fun grown extended => extended
  | cons entry rest ih =>
    intro grown extended
    refine ih _ ?_
    dsimp only
    split_ifs
    · exact extended
    · exact extended.add entry.1 entry.2

end Scope.Extends

/-- A single name is added or not. -/
theorem Scope.addAll_single (scope : Scope) (name : String) (target : Binding) :
    scope.addAll [(name, target)] = scope ∨
      scope.addAll [(name, target)] = (name, target) :: scope := by
  simp only [Scope.addAll, List.foldl_cons, List.foldl_nil, Scope.add]
  split_ifs
  · exact .inl rfl
  · split
    · exact .inl rfl
    · exact .inr rfl

namespace NameState

/-- The state has the scopes of another one, the innermost one with more names. -/
structure Grows (state before : NameState) : Prop where
  height : state.locals.length = before.locals.length
  outer : state.locals.tail = before.locals.tail
  package : before.locals ≠ [] → state.package = before.package
  innermost : state.innermost.Extends before.innermost

section

variable {state before : NameState} {entries : List (String × Binding)}
  (scopes : state.scopes = before.exposing entries)

include scopes

theorem innermost_of_scopes : state.innermost = before.innermost.addAll entries := by
  obtain ⟨locals, package, bindings, waiting, packageName⟩ := state
  obtain ⟨former, formerPackage, _, _, _⟩ := before
  cases former <;> cases scopes <;> rfl

theorem grows_of_scopes : state.Grows before := by
  have innermost : state.innermost.Extends before.innermost := by
    rw [innermost_of_scopes scopes]
    exact .addAll before.innermost entries
  obtain ⟨locals, package, bindings, waiting, packageName⟩ := state
  obtain ⟨former, formerPackage, _, _, _⟩ := before
  cases former with
  | nil =>
    cases scopes
    exact ⟨rfl, rfl, fun inside => (inside rfl).elim, innermost⟩
  | cons scope outer =>
    cases scopes
    exact ⟨rfl, rfl, fun _ => rfl, innermost⟩

end

end NameState

/-! ## Nodes with a scope of their own -/

/-- The kinds of nodes that keep all their names to themselves. -/
def Concrete.enclosingKinds : List String :=
  ["block", "func_literal", "method_declaration", "type_switch_statement"] ++ scopeKinds

/-- Everything that happens is inside one scope. -/
def Enclosed (events : List ScopeEvent) : Prop :=
  ∃ told, Balanced told ∧ events = .opened :: (told ++ [.closed])

theorem Enclosed.exposed_eq_nil {events : List ScopeEvent} (enclosed : Enclosed events) :
    exposed events = [] := by
  obtain ⟨told, balanced, rfl⟩ := enclosed
  exact balanced.exposed_scope []

section

variable {source : ByteArray} {limit : Nat} {place : Address} {tree : Concrete} {node : Node}
  {events : List ScopeEvent}

theorem Row.balanced {nodes : List Node}
    (row : Row (fun _ _ _ => Balanced) source place tree 0 nodes events) : Balanced events :=
  (row (.generic tree.site nodes) [] [] rfl (by simp [Node.children])).balanced

theorem balanced_of_lowerAll {first : Nat} {trees : List Concrete} {nodes : List Node}
    (gives : (lowerAll (lower source limit) place first trees).Gives nodes events) :
    Balanced events := by
  induction trees generalizing first nodes events with
  | nil =>
    obtain ⟨rfl, rfl⟩ := gives_pure_iff.mp gives
    exact .nil
  | cons part rest ih =>
    rw [lowerAll, gives_cons_iff] at gives
    obtain ⟨child, told, nodes, later, lowered, followed, rfl, rfl⟩ := gives
    exact (lower_balanced source limit part _ _ _ lowered).append (ih followed)

/-- A function tells of its name before it opens its scope. -/
theorem enclosed_of_function {declares : Bool} {name : Option Concrete}
    {signature : List Concrete} {body : Option (List Concrete)}
    (shaped : tree.shape = .function declares name signature body)
    (gives : (lower source limit place tree).Gives node events) :
    ∃ inside, Enclosed inside ∧
      events = (name.toList.filter fun _ => declares).map (fun name =>
        .declared (name.text source) name.label.start (.marker .func)) ++ inside := by
  cases limit with
  | zero => cases gives
  | succ limit =>
    obtain ⟨_, _, told, later, lowered, stated, _, rfl⟩ := gives_function source shaped gives
    refine ⟨_, ⟨told ++ later, ?_, rfl⟩, rfl⟩
    exact (balanced_of_lowerAll lowered).append (balanced_of_lowerAll stated)

theorem enclosed_of_scopeKind (kind : tree.kind ∈ Concrete.scopeKinds)
    (gives : (lower source limit place tree).Gives node events) : Enclosed events := by
  have shapeless : tree.isShapeless := by
    have all : ∀ kind ∈ Concrete.scopeKinds, !Concrete.shapedKinds.contains kind := by decide
    exact all tree.kind kind
  have opens : tree.opensScope = true := List.elem_eq_true_of_mem kind
  cases limit with
  | zero => cases gives
  | succ limit =>
    rw [lower_of_isShapeless _ _ _ shapeless, lowerGeneric_eq, opens] at gives
    obtain ⟨nodes, told, lowered, _, rfl⟩ := gives_scope_iff.mp gives
    have covers := covers_lowerPart source Layout.balanced (lower_balanced source limit)
    have row := row_of_lowerAll source (fun _ => Concrete.contains_of_mem_parts)
      (fun part _ => covers part) lowered
    exact ⟨told, row.balanced, rfl⟩

/-- A node with a scope of its own tells everything inside it. -/
theorem enclosed_of_lower (kind : tree.kind ∈ Concrete.enclosingKinds)
    (gives : (lower source limit place tree).Gives node events) : Enclosed events := by
  rcases List.mem_append.mp kind with kind | kind
  · have balanced := lower_balanced source
    cases limit with
    | zero => cases gives
    | succ limit =>
      simp only [List.mem_cons, List.not_mem_nil, or_false] at kind
      rcases kind with kind | kind | kind | kind
      · have shaped : tree.shape = .block tree.statements := by simp only [Concrete.shape, kind]
        rw [lower, lowerShape, shaped] at gives
        obtain ⟨nodes, told, lowered, _, rfl⟩ := gives_scope_iff.mp gives
        exact ⟨told, balanced_of_lowerAll lowered, rfl⟩
      · have shaped : tree.shape = .closure := by simp only [Concrete.shape, kind]
        rw [lower, lowerShape, shaped] at gives
        obtain ⟨nodes, told, lowered, _, rfl⟩ := gives_scope_iff.mp gives
        have covers := covers_lowerPart source Layout.balanced (balanced limit)
        exact ⟨told, (tells_of_lowerGeneric source (fun part _ => covers part) lowered).2.balanced,
          rfl⟩
      · have shaped : tree.shape = tree.functionShape false := by simp only [Concrete.shape, kind]
        obtain ⟨inside, enclosed, rfl⟩ := enclosed_of_function shaped gives
        simpa using enclosed
      · have shaped : tree.shape =
            .typeSwitch (tree.child? "alias") (tree.child? "value") tree.parts := by
          simp only [Concrete.shape, kind]
        have inside : ∀ part ∈ tree.shape.members, tree.Contains part :=
          fun _ => Concrete.contains_of_mem_shape
        simp only [shaped, Shape.members, List.forall_mem_append] at inside
        rw [lower, lowerShape, shaped] at gives
        obtain ⟨nodes, told, lowered, _, rfl⟩ := gives_scope_iff.mp gives
        have row := row_of_lowerSwitch source (balanced limit) inside.2
          (contains_of_mem_listed inside.1.1) lowered
        exact ⟨told, row.balanced, rfl⟩
  · exact enclosed_of_scopeKind kind gives

/-- A function exposes its own name at most. -/
theorem exposed_of_function (kind : tree.kind = "function_declaration")
    (gives : (lower source limit place tree).Gives node events) :
    exposed events =
      (tree.child? "name").toList.map fun name => (name.text source, .marker .func) := by
  have shaped : tree.shape = tree.functionShape true := by simp only [Concrete.shape, kind]
  obtain ⟨inside, enclosed, rfl⟩ := enclosed_of_function shaped gives
  have hidden : exposedFrom 0 inside = [] := enclosed.exposed_eq_nil
  cases tree.child? "name" with
  | none => simpa [exposed] using hidden
  | some name => simp [exposed, exposedFrom, hidden]

/-- A lowering keeps the open scopes and the package scope, except that it may add names to the
innermost one. A node with a scope of its own adds none, and a function adds its own name at
most. -/
theorem lowerings_keep_scopes (lowers : lower source limit place tree = .ok (node, events))
    (state : NameState) :
    (state.replay events).Grows state ∧
    (∀ name target, state.innermost.find? name = some target →
      (state.replay events).innermost.find? name = some target) ∧
    (tree.kind ∈ Concrete.enclosingKinds →
      (state.replay events).locals = state.locals ∧
        (state.replay events).package = state.package) ∧
    (tree.kind = "function_declaration" →
      (state.replay events).innermost = state.innermost ∨
        ∃ name, tree.child? "name" = some name ∧ (state.replay events).innermost =
          (name.text source, .marker .func) :: state.innermost) := by
  have scopes := state.scopes_replay (lower_balanced source limit tree place node events lowers)
  have grows : (state.replay events).Grows state := NameState.grows_of_scopes scopes
  refine ⟨grows, fun name target => grows.innermost.find?_eq, fun kind => ?_, fun kind => ?_⟩
  · rw [(enclosed_of_lower kind lowers).exposed_eq_nil, NameState.exposing_nil] at scopes
    exact ⟨congrArg Prod.fst scopes, congrArg Prod.snd scopes⟩
  · have innermost := NameState.innermost_of_scopes scopes
    rw [exposed_of_function kind lowers] at innermost
    cases named : tree.child? "name" with
    | none =>
      rw [named] at innermost
      exact .inl innermost
    | some name =>
      rw [named] at innermost
      rcases Scope.addAll_single state.innermost (name.text source) (.marker .func) with
        same | added
      · exact .inl (innermost.trans same)
      · exact .inr ⟨name, rfl, innermost.trans added⟩

end

/-- The source of a function with a variable of its name in it. -/
def counterSource : ByteArray := "func n() { n := 1 }".toUTF8

/-- The body of the function of `counterSource`. -/
def counterBody : Concrete :=
  .node { kind := "block", field := some "body", start := 9, stop := 19 }
    [.node { kind := "short_var_declaration", start := 11, stop := 17 }
      [.leaf "identifier" "left" 11 12, .leaf "int_literal" "right" 16 17]]

/-- The tree of `counterSource`. -/
def counterFunction : Concrete :=
  .node { kind := "function_declaration", stop := 19 } [.leaf "identifier" "name" 5 6, counterBody]

/-- Two open scopes, of which the outer one has the name of the function. -/
def counterState : NameState :=
  { locals := [[("limit", .marker .param)], [("n", .marker .range)]]
    package := [("main", .marker .func)] }

/-- The declaration `n := 1`. -/
def counterVariable : Declaration :=
  .assignment ⟨"short_var_declaration", 1, 1⟩ [.ident ⟨"identifier", 1, 12⟩ "n" 11]
    [.literal ⟨"int_literal", 1, 17⟩ "1"] true

theorem lower_counterBody :
    lower counterSource nestingLimit [] counterBody =
      .ok (.generic ⟨"block", 1, 1⟩ [counterVariable.node],
        [.opened, .declared "n" 11 (.declaration [0] counterVariable), .closed]) := by
  with_unfolding_all rfl

theorem lower_counterFunction :
    lower counterSource nestingLimit [] counterFunction =
      .ok (.function ⟨"function_declaration", 1, 1⟩ "n" [] (some [counterVariable.node]),
        [.declared "n" 5 (.marker .func), .opened,
          .declared "n" 11 (.declaration [0] counterVariable), .closed]) := by
  with_unfolding_all rfl

/-- The variable in the body stays in the scope of the function, and the name of the function does
not go beyond the innermost scope. -/
theorem lowerings_keep_scopes_counter :
    (∃ node events, lower counterSource nestingLimit [] counterFunction = .ok (node, events) ∧
      (counterState.replay events).Grows counterState ∧
      (counterState.replay events).innermost.find? "limit" = some (.marker .param) ∧
      ((counterState.replay events).innermost = counterState.innermost ∨
        ∃ name, counterFunction.child? "name" = some name ∧
          (counterState.replay events).innermost =
            (name.text counterSource, .marker .func) :: counterState.innermost)) ∧
    ∃ node events, lower counterSource nestingLimit [] counterBody = .ok (node, events) ∧
      (counterState.replay events).locals = counterState.locals ∧
      (counterState.replay events).package = counterState.package := by
  obtain ⟨grows, kept, _, own⟩ := lowerings_keep_scopes lower_counterFunction counterState
  obtain ⟨_, _, enclosed, _⟩ := lowerings_keep_scopes lower_counterBody counterState
  exact ⟨⟨_, _, lower_counterFunction, grows, kept "limit" _ rfl, own rfl⟩,
    _, _, lower_counterBody, enclosed (by decide)⟩

end AssetRefs
