import AssetRefs.Proofs.EventOrigins

/-! # Scopes around a signature

A lowering closes the scopes that it opens, so it changes no scope but the innermost one, and that
one only by the names that the tree declares outside scopes of its own: see
`NameState.scopes_replay`. A function type or the method of an interface opens no scope for its
parameters, so they are such names: see `signatures_expose_their_parameters`.
-/

namespace AssetRefs

open Lowering

/-- Every scope that is opened is closed. -/
inductive Balanced : List ScopeEvent → Prop where
  | nil : Balanced []
  | declared {name : String} {offset : Nat} {target : Binding} {rest : List ScopeEvent} :
      Balanced rest → Balanced (.declared name offset target :: rest)
  | used {name : String} {offset : Nat} {rest : List ScopeEvent} :
      Balanced rest → Balanced (.used name offset :: rest)
  | package {name : String} {rest : List ScopeEvent} :
      Balanced rest → Balanced (.package name :: rest)
  | scope {inner rest : List ScopeEvent} : Balanced inner → Balanced rest →
      Balanced (.opened :: (inner ++ .closed :: rest))

/-- The names that events declare in the scope that is `depth` scopes out from where they start. -/
def exposedFrom : (depth : Nat) → List ScopeEvent → List (String × Binding)
  | _, [] => []
  | 0, .declared name _ target :: rest => (name, target) :: exposedFrom 0 rest
  | depth, .opened :: rest => exposedFrom (depth + 1) rest
  | depth, .closed :: rest => exposedFrom (depth - 1) rest
  | depth, _ :: rest => exposedFrom depth rest

/-- The names that events declare outside the scopes that they open. -/
def exposed (events : List ScopeEvent) : List (String × Binding) := exposedFrom 0 events

namespace Balanced

variable {first second : List ScopeEvent}

theorem append (earlier : Balanced first) (later : Balanced second) :
    Balanced (first ++ second) := by
  induction earlier with
  | nil => exact later
  | declared _ ih => exact .declared ih
  | used _ ih => exact .used ih
  | package _ ih => exact .package ih
  | scope inner _ _ ih =>
    rw [List.cons_append, List.append_assoc, List.cons_append]
    exact .scope inner ih

/-- Balanced events end at the depth where they start. -/
theorem exposedFrom_append (balanced : Balanced first) (depth : Nat) (rest : List ScopeEvent) :
    exposedFrom depth (first ++ rest) = exposedFrom depth first ++ exposedFrom depth rest := by
  induction balanced generalizing depth rest with
  | nil => cases depth <;> rfl
  | declared _ ih => cases depth <;> simp [exposedFrom, ih]
  | used _ ih => cases depth <;> simp [exposedFrom, ih]
  | package _ ih => cases depth <;> simp [exposedFrom, ih]
  | @scope inner after _ _ within ih =>
    simp only [List.cons_append, List.append_assoc]
    cases depth <;> simp [exposedFrom, within, ih]

theorem exposedFrom_succ (balanced : Balanced first) (depth : Nat) :
    exposedFrom (depth + 1) first = [] := by
  induction balanced generalizing depth with
  | nil => rfl
  | declared _ ih => simp [exposedFrom, ih]
  | used _ ih => simp [exposedFrom, ih]
  | package _ ih => simp [exposedFrom, ih]
  | scope inner _ within ih =>
    simp [exposedFrom, inner.exposedFrom_append, within, ih]

/-- Nothing is exposed from inside a scope. -/
theorem exposed_scope (balanced : Balanced first) (rest : List ScopeEvent) :
    exposed (.opened :: (first ++ .closed :: rest)) = exposed rest := by
  simp [exposed, exposedFrom, balanced.exposedFrom_append, balanced.exposedFrom_succ]

end Balanced

theorem Tells.balanced {source : ByteArray} {place : Address} {tree : Concrete} {node : Node}
    {events : List ScopeEvent}
    (tells : Tells (fun _ _ _ => Balanced) source place tree node events) : Balanced events := by
  induction tells with
  | nil => exact .nil
  | own event _ ih =>
    cases event with
    | package => exact .package ih
    | marked => exact .declared ih
    | bound => exact .declared ih
  | part _ _ lowers _ ih => exact lowers.append ih
  | scope _ _ inner rest => exact .scope inner rest

theorem Layout.balanced {source : ByteArray} {place : Address} {tree : Concrete} {node : Node}
    {events : List ScopeEvent}
    (layout : Layout (fun _ _ _ => Balanced) source place tree node events) : Balanced events := by
  cases layout with
  | wrapper _ lowers => exact lowers
  | name _ => exact .used .nil
  | compound _ tells => exact tells.balanced

/-- Every lowering closes the scopes that it opens. -/
theorem lower_balanced (source : ByteArray) (limit : Nat) (tree : Concrete) :
    Covers (fun _ _ _ => Balanced) tree (lower source limit) :=
  lower_induction Layout.balanced limit tree

/-! ## What balanced events do to scopes -/

/-- The scope with several names, those that it has already and `_` left out. -/
def Scope.addAll (scope : Scope) (entries : List (String × Binding)) : Scope :=
  entries.foldl
    (fun scope entry => if entry.1 = "_" then scope else scope.add entry.1 entry.2) scope

/-- The open scopes and the package scope after names are declared in the innermost one. -/
def NameState.exposing (state : NameState) (entries : List (String × Binding)) :
    List Scope × Scope :=
  match state.locals with
  | [] => ([], state.package.addAll entries)
  | scope :: outer => (scope.addAll entries :: outer, state.package)

namespace NameState

/-- The open scopes and the package scope. -/
def scopes (state : NameState) : List Scope × Scope := (state.locals, state.package)

theorem exposing_nil (state : NameState) : state.exposing [] = state.scopes := by
  obtain ⟨locals, package, bindings, waiting, packageName⟩ := state
  cases locals <;> rfl

theorem scopes_declare (state : NameState) (name : String) (offset : Nat) (target : Binding)
    (entries : List (String × Binding)) :
    (state.declare name offset target).exposing entries =
      state.exposing ((name, target) :: entries) := by
  by_cases plain : name = "_"
  · subst plain
    obtain ⟨locals, package, bindings, waiting, packageName⟩ := state
    cases locals <;> rfl
  · rw [state.declare_eq offset target plain]
    obtain ⟨locals, package, bindings, waiting, packageName⟩ := state
    cases locals <;> simp [exposing, Scope.addAll, plain]

theorem exposing_congr {state other : NameState} (same : state.scopes = other.scopes)
    (entries : List (String × Binding)) : state.exposing entries = other.exposing entries := by
  obtain ⟨locals, package, bindings, waiting, packageName⟩ := state
  obtain ⟨locals', package', bindings', waiting', packageName'⟩ := other
  cases same
  rfl

/-- Balanced events change the innermost scope only, by the names that they expose. -/
theorem scopes_replay {events : List ScopeEvent} (balanced : Balanced events) (state : NameState) :
    (state.replay events).scopes = state.exposing (exposed events) := by
  induction balanced generalizing state with
  | nil => exact state.exposing_nil.symm
  | @declared name offset target rest _ ih =>
    change ((state.declare name offset target).replay rest).scopes = _
    rw [ih, scopes_declare]
    rfl
  | @used name offset rest _ ih =>
    change ((state.use name offset).replay rest).scopes = _
    rw [ih]
    refine exposing_congr ?_ _
    rw [scopes, use_locals, use_package, scopes]
  | @package name rest _ ih => exact ih { state with packageName := some name }
  | @scope inner rest enclosed _ within ih =>
    have entered := within { state with locals := [] :: state.locals }
    generalize middle : replay { state with locals := [] :: state.locals } inner = inside at entered
    have left : (inside.step .closed).scopes = state.scopes := by
      obtain ⟨locals, package, bindings, waiting, packageName⟩ := inside
      cases entered
      rfl
    have split : state.replay (.opened :: (inner ++ .closed :: rest)) =
        (inside.step .closed).replay rest := by
      rw [← middle]
      simp [replay, step]
    rw [split, ih, enclosed.exposed_scope, exposing_congr left]

end NameState

theorem Scope.length_le_addAll (scope : Scope) (entries : List (String × Binding)) :
    scope.length ≤ (scope.addAll entries).length := by
  induction entries generalizing scope with
  | nil => exact Nat.le_refl _
  | cons entry rest ih =>
    refine Nat.le_trans ?_ (ih _)
    dsimp only
    split_ifs
    · exact Nat.le_refl _
    · unfold Scope.add
      split
      · exact Nat.le_refl _
      · exact Nat.le_succ _

/-- A scope stays as it is if and only if it has all the names already. -/
theorem Scope.addAll_eq_self_iff {scope : Scope} {entries : List (String × Binding)} :
    scope.addAll entries = scope ↔
      ∀ entry ∈ entries, entry.1 = "_" ∨ (scope.find? entry.1).isSome := by
  induction entries with
  | nil => simp [Scope.addAll]
  | cons entry rest ih =>
    obtain ⟨name, target⟩ := entry
    rw [List.forall_mem_cons, ← ih]
    change (if name = "_" then scope else scope.add name target).addAll rest = scope ↔ _
    unfold Scope.add
    by_cases plain : name = "_"
    · simp [plain]
    · cases found : scope.find? name with
      | some known => simp [plain]
      | none =>
        have longer := Scope.length_le_addAll ((name, target) :: scope) rest
        have grown : Scope.addAll ((name, target) :: scope) rest ≠ scope := by
          intro same
          rw [same, List.length_cons] at longer
          omega
        simp [plain, grown]

/-- The scopes stay as they are if and only if the innermost one has all the names already. -/
theorem NameState.exposing_eq_scopes_iff {state : NameState} {entries : List (String × Binding)} :
    state.exposing entries = state.scopes ↔
      ∀ entry ∈ entries, entry.1 = "_" ∨ (state.innermost.find? entry.1).isSome := by
  rw [← Scope.addAll_eq_self_iff]
  obtain ⟨locals, package, bindings, waiting, packageName⟩ := state
  cases locals <;> simp [exposing, scopes, innermost]

/-! ## Parameters of a signature -/

/-- The node is the name of a parameter of the signature. -/
inductive Concrete.HasParameter (signature name : Concrete) : Prop where
  | intro {list parameter : Concrete} : list ∈ signature.parts → list.kind = "parameter_list" →
      parameter ∈ list.parts →
      parameter.kind = "parameter_declaration" ∨
        parameter.kind = "variadic_parameter_declaration" →
      name ∈ parameter.childrenIn "name" → HasParameter signature name

section

variable {lower : Address → Concrete → Lowering Node} {place : Address}

/-- What the parts of a row expose, the row exposes. -/
theorem exposed_subset_of_lowerAll {first : Nat} {trees : List Concrete} {nodes : List Node}
    {events : List ScopeEvent}
    (balanced : ∀ part ∈ trees, Covers (fun _ _ _ => Balanced) part lower)
    (gives : (lowerAll lower place first trees).Gives nodes events) {part : Concrete}
    (member : part ∈ trees) :
    ∃ place child told, (lower place part).Gives child told ∧ exposed told ⊆ exposed events := by
  induction trees generalizing first nodes events with
  | nil => cases member
  | cons tree rest ih =>
    rw [lowerAll, gives_cons_iff] at gives
    obtain ⟨child, told, nodes, later, lowered, followed, rfl, rfl⟩ := gives
    rw [List.forall_mem_cons] at balanced
    have split : exposed (told ++ later) = exposed told ++ exposed later :=
      (balanced.1 _ _ _ lowered).exposedFrom_append 0 later
    rw [split]
    rcases List.mem_cons.mp member with rfl | member
    · exact ⟨_, child, told, lowered, List.subset_append_left ..⟩
    · obtain ⟨place, child, inner, lowered, exposes⟩ := ih balanced.2 followed member
      exact ⟨place, child, inner, lowered, List.subset_append_of_subset_right _ exposes⟩

/-- What the parts of a shapeless node expose, the node exposes unless it opens a scope. -/
theorem exposed_subset_of_lowerGeneric {tree : Concrete} {node : Node} {events : List ScopeEvent}
    (balanced : ∀ part, Covers (fun _ _ _ => Balanced) part (lowerPart lower))
    (flat : tree.opensScope = false) (gives : (lowerGeneric lower place tree).Gives node events)
    {part : Concrete} (member : part ∈ tree.parts) :
    ∃ place child told, (lowerPart lower place part).Gives child told ∧
      exposed told ⊆ exposed events := by
  simp only [lowerGeneric_eq, flat, gives_bind_iff, gives_emitIf_iff, gives_pure_iff,
    Bool.false_eq_true, ↓reduceIte] at gives
  obtain ⟨_, _, _, rfl, ⟨nodes, told, _, lowered, ⟨_, _, _, rfl, ⟨rfl, rfl⟩, rfl⟩, rfl⟩, rfl⟩ :=
    gives
  rw [List.append_nil, List.append_nil, List.nil_append]
  exact exposed_subset_of_lowerAll (fun part _ => balanced part) lowered member

end

theorem exposed_of_lowerParameters {source : ByteArray} {names : List Concrete} {nodes : List Node}
    {events : List ScopeEvent} (gives : (lowerParameters source names).Gives nodes events)
    (rest : List ScopeEvent) :
    exposed (events ++ rest) =
      names.map (fun name => (name.text source, .marker .param)) ++ exposed rest := by
  induction names generalizing nodes events with
  | nil =>
    obtain ⟨rfl, rfl⟩ := gives_pure_iff.mp gives
    rfl
  | cons name names ih =>
    simp only [lowerParameters, gives_bind_iff, gives_emit_iff, gives_pure_iff] at gives
    obtain ⟨_, _, _, rfl, ⟨nodes, later, _, followed, ⟨rfl, rfl⟩, rfl⟩, rfl⟩ := gives
    simpa [exposed, exposedFrom] using ih followed

/-- A parameter exposes its names. -/
theorem exposed_of_parameter {source : ByteArray} {limit : Nat} {place : Address}
    {parameter name : Concrete} {node : Node} {events : List ScopeEvent}
    (kind : parameter.kind = "parameter_declaration" ∨
      parameter.kind = "variadic_parameter_declaration")
    (named : name ∈ parameter.childrenIn "name")
    (gives : (lower source limit place parameter).Gives node events) :
    (name.text source, .marker .param) ∈ exposed events := by
  have shaped : parameter.shape =
      .parameter (parameter.childrenIn "name") (parameter.child? "type") := by
    rcases kind with kind | kind <;> simp only [Concrete.shape, kind]
  cases limit with
  | zero => cases gives
  | succ limit =>
    simp only [lower, lowerShape, shaped, gives_bind_iff, gives_pure_iff] at gives
    obtain ⟨nodes, told, _, listed, ⟨typed, later, _, typing, ⟨rfl, rfl⟩, rfl⟩, rfl⟩ := gives
    rw [exposed_of_lowerParameters listed]
    exact List.mem_append_left _ (List.mem_map_of_mem named)

theorem exposed_of_hasParameter {source : ByteArray} {limit : Nat} {place : Address}
    {tree name : Concrete} {node : Node} {events : List ScopeEvent}
    (signature : tree.kind = "function_type" ∨ tree.kind = "method_elem")
    (parameter : tree.HasParameter name)
    (gives : (lower source limit place tree).Gives node events) :
    (name.text source, .marker .param) ∈ exposed events := by
  cases limit with
  | zero => cases gives
  | succ limit =>
    have balanced := covers_lowerPart source Layout.balanced (lower_balanced source limit)
    obtain @⟨list, parameter, listed, isList, inside, isParameter, named⟩ := parameter
    have flat : tree.isShapeless ∧ tree.opensScope = false := by
      rcases signature with kind | kind <;>
        simp only [Concrete.isShapeless, Concrete.opensScope, kind] <;> decide
    have flatList : list.isShapeless ∧ list.opensScope = false := by
      simp only [Concrete.isShapeless, Concrete.opensScope, isList]
      decide
    have shaped : ¬ parameter.isShapeless := by
      rcases isParameter with kind | kind <;> simp only [Concrete.isShapeless, kind] <;> decide
    rw [lower_of_isShapeless _ _ _ flat.1] at gives
    obtain ⟨_, _, _, lowered, outer⟩ :=
      exposed_subset_of_lowerGeneric balanced flat.2 gives listed
    rw [lowerPart, if_pos flatList.1] at lowered
    obtain ⟨_, _, _, lowered, inner⟩ :=
      exposed_subset_of_lowerGeneric balanced flatList.2 lowered inside
    rw [lowerPart, if_neg shaped] at lowered
    exact outer (inner (exposed_of_parameter isParameter named lowered))

theorem declared_of_mem_exposedFrom {depth : Nat} {events : List ScopeEvent}
    {entry : String × Binding} (member : entry ∈ exposedFrom depth events) :
    ∃ offset, .declared entry.1 offset entry.2 ∈ events := by
  fun_induction exposedFrom depth events with
  | case1 => cases member
  | case2 name offset target rest ih =>
    rcases List.mem_cons.mp member with rfl | member
    · exact ⟨offset, List.mem_cons_self⟩
    · obtain ⟨offset, told⟩ := ih member
      exact ⟨offset, List.mem_cons_of_mem _ told⟩
  | case3 | case4 | case5 =>
    rename_i ih
    obtain ⟨offset, told⟩ := ih member
    exact ⟨offset, List.mem_cons_of_mem _ told⟩

/-- A function type or the method of an interface leaves all scopes as they are but the innermost
one, and that one has more names afterwards unless it had them before. The names are spelled in the
signature, and its parameters are among them. -/
theorem signatures_expose_their_parameters {source : ByteArray} {limit : Nat} {place : Address}
    {tree : Concrete} {node : Node} {events : List ScopeEvent}
    (signature : tree.kind = "function_type" ∨ tree.kind = "method_elem")
    (lowers : lower source limit place tree = .ok (node, events)) (state : NameState) :
    (state.replay events).scopes = state.exposing (exposed events) ∧
    ((state.replay events).scopes = state.scopes ↔
      ∀ entry ∈ exposed events, entry.1 = "_" ∨ (state.innermost.find? entry.1).isSome) ∧
    (∀ name, tree.HasParameter name → (name.text source, .marker .param) ∈ exposed events) ∧
    ∀ entry ∈ exposed events, ∃ part, tree.HasIdentifier part ∧ part.text source = entry.1 := by
  have scopes := state.scopes_replay (lower_balanced source limit tree place node events lowers)
  refine ⟨scopes, ?_, fun name parameter => ?_, fun entry member => ?_⟩
  · rw [scopes, NameState.exposing_eq_scopes_iff]
  · exact exposed_of_hasParameter signature parameter lowers
  · obtain ⟨offset, told⟩ := declared_of_mem_exposedFrom member
    have mentioned : Mentions events entry.1 offset := .inr ⟨entry.2, told⟩
    obtain ⟨part, identifier, _, spelled⟩ := mentioned.identifier (lower_hasOrigins lowers)
    exact ⟨part, identifier, spelled⟩

/-- The source of a function type. -/
def loaderSource : ByteArray := "func(page string)".toUTF8

/-- The parameter of `loaderSource`. -/
def loaderParameter : Concrete :=
  .node { kind := "parameter_declaration" }
    [.leaf "identifier" "name" 5 9, .leaf "type_identifier" "type" 10 16]

/-- The tree of `loaderSource`. -/
def loaderType : Concrete :=
  .node { kind := "function_type" }
    [.node { kind := "parameter_list", field := some "parameters" } [loaderParameter]]

/-- A shapeless node with one part stands around the node of that part. -/
theorem lowerGeneric_single (lower : Address → Concrete → Lowering Node) (place : Address)
    {tree part : Concrete} (flat : tree.opensScope = false) (only : tree.parts = [part]) :
    lowerGeneric lower place tree = (do
      let node ← lowerPart lower (0 :: place) part
      return .generic tree.site [node]) := by
  simp [lowerGeneric_eq, flat, only, emitIf, lowerAll]

theorem lower_loaderParameter (limit : Nat) (place : Address) :
    lower loaderSource (limit + 2) place loaderParameter =
      .ok (.generic ⟨"parameter_declaration", 1, 1⟩ [.ident ⟨"identifier", 1, 6⟩ "page" 5,
        .generic ⟨"type_identifier", 1, 11⟩ []], [.declared "page" 5 (.marker .param)]) := by
  have typed (place : Address) :
      lower loaderSource (limit + 1) place (.leaf "type_identifier" "type" 10 16) =
        .ok (.generic ⟨"type_identifier", 1, 11⟩ [], []) := by
    rw [lower_of_isShapeless _ _ _ (by decide), lowerGeneric_eq]
    rfl
  have shaped : loaderParameter.shape = .parameter [.leaf "identifier" "name" 5 9]
      (some (.leaf "type_identifier" "type" 10 16)) := rfl
  rw [lower, lowerShape, shaped]
  simp only [lowerParameters, lowerOption, typed]
  with_unfolding_all rfl

theorem lower_loaderType :
    lower loaderSource nestingLimit [] loaderType =
      .ok (.generic ⟨"function_type", 1, 1⟩ [.generic ⟨"parameter_list", 1, 1⟩
        [.generic ⟨"parameter_declaration", 1, 1⟩ [.ident ⟨"identifier", 1, 6⟩ "page" 5,
          .generic ⟨"type_identifier", 1, 11⟩ []]]], [.declared "page" 5 (.marker .param)]) := by
  rw [nestingLimit, lower_of_isShapeless _ _ _ (by decide), lowerGeneric_single _ _ (by decide) rfl,
    lowerPart, if_pos (by decide), lowerGeneric_single _ _ (by decide) rfl, lowerPart,
    if_neg (by decide), lower_loaderParameter]
  rfl

/-- The package scope has the parameter of the function type afterwards. -/
theorem signatures_expose_their_parameters_loader :
    (loaderType.kind = "function_type" ∨ loaderType.kind = "method_elem") ∧
      ∃ node events, lower loaderSource nestingLimit [] loaderType = .ok (node, events) ∧
        (NameState.replay {} events).scopes = NameState.exposing {} (exposed events) ∧
        ("page", .marker .param) ∈ exposed events := by
  have signature : loaderType.kind = "function_type" ∨ loaderType.kind = "method_elem" := .inl rfl
  obtain ⟨scopes, _, exposes, _⟩ := signatures_expose_their_parameters signature lower_loaderType {}
  have parameter : loaderType.HasParameter (.leaf "identifier" "name" 5 9) :=
    .intro (List.mem_singleton_self _) rfl (List.mem_singleton_self loaderParameter) (.inl rfl)
      (List.mem_singleton_self _)
  have spelled : Concrete.text loaderSource (.leaf "identifier" "name" 5 9) = "page" := by
    decide +kernel
  have page := exposes _ parameter
  rw [spelled] at page
  exact ⟨signature, _, _, lower_loaderType, scopes, page⟩

/-- A function type changes a scope around it. -/
theorem signatures_change_scopes :
    ¬ ∀ (source : ByteArray) (limit : Nat) (place : Address) (tree : Concrete) (node : Node)
      (events : List ScopeEvent) (state : NameState),
      tree.kind = "function_type" ∨ tree.kind = "method_elem" →
      lower source limit place tree = .ok (node, events) →
      (state.replay events).scopes = state.scopes := by
  intro unchanged
  cases unchanged _ _ _ _ _ _ {} (.inl rfl) lower_loaderType

end AssetRefs
