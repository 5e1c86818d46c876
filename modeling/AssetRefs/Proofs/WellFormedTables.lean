import AssetRefs.Proofs.EventOrigins

/-! # Well-formed tables

Every declaration in the binding table of a file is a node of its lowered tree, and it declares a
name that is spelled like the names that refer to it: see `bindings_are_well_formed`. Names and
their targets stay together from the event that declares them on, whichever way an entry is made: by
declaring, by redeclaring, by looking up or at the end of the file. `NameState.Traced` is the
invariant.
-/

namespace AssetRefs

/-- Some event declares a name with the given target. -/
def Declares (events : List ScopeEvent) (name : String) (target : Binding) : Prop :=
  ∃ offset, .declared name offset target ∈ events

/-- What a table has for an offset is declared by the name there. -/
def BindingTable.Traced (table : BindingTable) (events : List ScopeEvent) : Prop :=
  table.DrawnFrom (Told events) ∧ ∀ offset target, table.find? offset = some target →
    ∃ name, Mentions events name offset ∧ Declares events name target

/-- What a scope has for a name is declared by that name. -/
def Scope.Traced (scope : Scope) (events : List ScopeEvent) : Prop :=
  ∀ name target, scope.find? name = some target → Declares events name target

/-- All that a state has comes from events. -/
structure NameState.Traced (state : NameState) (events : List ScopeEvent) : Prop where
  locals : ∀ scope ∈ state.locals, scope.Traced events
  package : state.package.Traced events
  bindings : state.bindings.Traced events
  waiting : ∀ entry ∈ state.waiting, Mentions events entry.2 entry.1

variable {events : List ScopeEvent} {name : String} {target : Binding} {offset : Nat}

theorem Declares.told (declares : Declares events name target) : Told events target :=
  ⟨name, declares⟩

theorem BindingTable.Traced.insert {table : BindingTable} (traced : table.Traced events)
    (coherent : Coherent (Told events)) (mentioned : Mentions events name offset)
    (declares : Declares events name target) : (table.insert offset target).Traced events := by
  refine ⟨traced.1.insert offset declares.told, fun other found known => ?_⟩
  rw [find?_insert coherent traced.1 offset declares.told] at known
  split_ifs at known with same
  · cases known
    rw [← same]
    exact ⟨name, mentioned, declares⟩
  · exact traced.2 other found known

theorem Scope.Traced.add {scope : Scope} (traced : scope.Traced events)
    (declares : Declares events name target) : (scope.add name target).Traced events := by
  unfold Scope.add
  cases missing : scope.find? name with
  | some known => exact traced
  | none =>
    intro other found known
    rw [Scope.find?, List.lookup_cons] at known
    split at known
    · next same =>
      cases known
      rw [eq_of_beq same]
      exact declares
    · exact traced other found known

namespace NameState.Traced

variable {state : NameState}

theorem initial (events : List ScopeEvent) : Traced {} events where
  locals := by simp
  package name target found := by cases found
  bindings := ⟨BindingTable.drawnFrom_empty _, by simp [BindingTable.find?_empty]⟩
  waiting := by simp

theorem innermost (traced : state.Traced events) : state.innermost.Traced events := by
  unfold NameState.innermost
  cases first : state.locals.head? with
  | none => exact traced.package
  | some scope => exact traced.locals scope (List.mem_of_mem_head? first)

theorem declare (traced : state.Traced events) (coherent : Coherent (Told events))
    (told : .declared name offset target ∈ events) :
    (state.declare name offset target).Traced events := by
  by_cases plain : name = "_"
  · rwa [NameState.declare, if_pos plain]
  · have own : Declares events name target := ⟨offset, told⟩
    have first : Declares events name ((state.innermost.find? name).getD target) := by
      cases found : state.innermost.find? name with
      | none => exact own
      | some known => exact traced.innermost name known found
    have bindings := traced.bindings.insert coherent (.inr ⟨target, told⟩) first
    rw [state.declare_eq offset target plain]
    obtain ⟨locals, package, table, waiting, packageName⟩ := state
    cases locals with
    | nil => exact ⟨traced.locals, traced.package.add own, bindings, traced.waiting⟩
    | cons scope outer =>
      obtain ⟨inner, rest⟩ := List.forall_mem_cons.mp traced.locals
      exact ⟨List.forall_mem_cons.mpr ⟨inner.add own, rest⟩, traced.package, bindings,
        traced.waiting⟩

theorem use (traced : state.Traced events) (coherent : Coherent (Told events))
    (told : .used name offset ∈ events) : (state.use name offset).Traced events := by
  unfold NameState.use
  cases found : state.locals.findSome? (·.find? name) with
  | some target =>
    obtain ⟨scope, member, known⟩ := List.exists_of_findSome?_eq_some found
    have bindings := traced.bindings.insert coherent (.inl told)
      (traced.locals scope member name target known)
    exact ⟨traced.locals, traced.package, bindings, traced.waiting⟩
  | none =>
    exact ⟨traced.locals, traced.package, traced.bindings,
      List.forall_mem_cons.mpr ⟨.inl told, traced.waiting⟩⟩

theorem step (traced : state.Traced events) (coherent : Coherent (Told events))
    {event : ScopeEvent} (told : event ∈ events) : (state.step event).Traced events := by
  cases event with
  | opened =>
    refine ⟨List.forall_mem_cons.mpr ⟨?_, traced.locals⟩, traced.package, traced.bindings,
      traced.waiting⟩
    intro name target found
    cases found
  | closed =>
    exact ⟨fun scope member => traced.locals scope (List.mem_of_mem_tail member), traced.package,
      traced.bindings, traced.waiting⟩
  | declared name offset target => exact traced.declare coherent told
  | used name offset => exact traced.use coherent told
  | package name => exact ⟨traced.locals, traced.package, traced.bindings, traced.waiting⟩

theorem replay (traced : state.Traced events) (coherent : Coherent (Told events))
    {rest : List ScopeEvent} (told : ∀ event ∈ rest, event ∈ events) :
    (state.replay rest).Traced events := by
  induction rest generalizing state with
  | nil => exact traced
  | cons event rest ih =>
    rw [List.forall_mem_cons] at told
    exact ih (traced.step coherent told.1) told.2

theorem finish (traced : state.Traced events) (coherent : Coherent (Told events)) :
    state.finish.Traced events := by
  have waiting : ∀ entry ∈ state.waiting.reverse, Mentions events entry.2 entry.1 :=
    fun entry member => traced.waiting entry (List.mem_reverse.mp member)
  change (state.waiting.reverse.foldl state.package.answer state.bindings).Traced events
  have bindings := traced.bindings
  generalize state.waiting.reverse = entries at waiting
  generalize state.bindings = table at bindings
  induction entries generalizing table with
  | nil => exact bindings
  | cons entry rest ih =>
    rw [List.forall_mem_cons] at waiting
    refine ih waiting.2 _ ?_
    unfold Scope.answer
    cases found : state.package.find? entry.2 with
    | none => exact bindings
    | some target =>
      exact bindings.insert coherent waiting.1 (traced.package entry.2 target found)

end NameState.Traced

/-- The binding table of a file is well formed, provided that identifiers with one start are spelled
alike. A declaration that a name refers to is the node at its place in the tree, and it brings its
names into being. There is an identifier at the name's offset, and it is spelled like one of the
names on the left-hand side of the declaration. -/
theorem bindings_are_well_formed {source : ByteArray} {path : String} {root : Concrete}
    {limit : Nat} {tree : SyntaxTree} (lowered : lowerFile source path root limit = .ok tree)
    (unambiguous : ∀ first second, root.HasIdentifier first → root.HasIdentifier second →
      first.label.start = second.label.start → first.text source = second.text source)
    {offset : Nat} {place : Address} {declaration : Declaration}
    (found : tree.bindings.find? offset = some (.declaration place declaration)) :
    (declaration.node ∈ tree.root.walk ∧ tree.root.at? place = some declaration.node) ∧
    declaration.Defines ∧
    (∃ part, root.HasIdentifier part ∧ part.label.start = offset) ∧
    ∀ part, root.HasIdentifier part → part.label.start = offset →
      ∃ site start, .ident site (part.text source) start ∈ declaration.names := by
  unfold lowerFile at lowered
  split at lowered
  · cases lowered
  · next node events lowers =>
    cases lowered
    have coherent := coherent_of_lower lowers
    have traced := (NameState.Traced.initial events).replay coherent fun _ member => member
    obtain ⟨name, mentioned, start, told⟩ := (traced.finish coherent).2 _ _ found
    obtain ⟨placed, defines, site, listed⟩ := declaration_of_told lowers told
    obtain ⟨part, identifier, starts, spelled⟩ := mentioned.identifier (lower_hasOrigins lowers)
    refine ⟨⟨Node.mem_walk_iff.mpr (Node.contains_of_at? placed), placed⟩, defines,
      ⟨part, identifier, starts⟩, fun other identified at' => ?_⟩
    rw [unambiguous other part identified identifier (at'.trans starts.symm), spelled]
    exact ⟨site, start, listed⟩

/-- The declaration `x := 1`. -/
def definedName : Declaration :=
  .assignment ⟨"short_var_declaration", 1, 1⟩ [.ident ⟨"identifier", 1, 3⟩ "x" 2]
    [.literal ⟨"int_literal", 1, 8⟩ "1"] true

/-- The tree of `{ x := 1; x }`. -/
def definedBlock : Concrete :=
  .node { kind := "block" }
    [.node { kind := "short_var_declaration" }
      [.leaf "identifier" "left" 2 3, .leaf "int_literal" "right" 7 8],
    .leaf "identifier" "" 10 11]

theorem mem_of_contains_definedBlock {part : Concrete} (contained : definedBlock.Contains part) :
    part ∈ [definedBlock,
      .node { kind := "short_var_declaration" }
        [.leaf "identifier" "left" 2 3, .leaf "int_literal" "right" 7 8],
      .leaf "identifier" "left" 2 3, .leaf "int_literal" "right" 7 8,
      .leaf "identifier" "" 10 11] := by
  simp only [definedBlock, Concrete.leaf, Concrete.contains_node_iff, List.mem_cons,
    List.not_mem_nil, or_false, exists_eq_or_imp, exists_eq_left, false_and, exists_false]
    at contained ⊢
  simpa only [or_assoc] using contained

theorem hasIdentifier_definedBlock {part : Concrete}
    (identifier : definedBlock.HasIdentifier part) :
    part = .leaf "identifier" "left" 2 3 ∨ part = .leaf "identifier" "" 10 11 := by
  cases identifier with
  | plain contained shaped =>
    have listed := mem_of_contains_definedBlock contained
    simp only [List.mem_cons, List.not_mem_nil, or_false] at listed
    rcases listed with rfl | rfl | rfl | rfl | rfl
    · cases shaped
    · cases shaped
    · exact .inl rfl
    · cases shaped
    · exact .inr rfl
  | named contained member =>
    have listed := mem_of_contains_definedBlock contained
    simp only [List.mem_cons, List.not_mem_nil, or_false] at listed
    rcases listed with rfl | rfl | rfl | rfl | rfl
    all_goals cases member

theorem bindings_are_well_formed_defined :
    ∃ tree, lowerFile "{ x := 1; x }".toUTF8 "main.go" definedBlock = .ok tree ∧
      tree.bindings.find? 10 = some (.declaration [0] definedName) ∧
      definedName.node ∈ tree.root.walk ∧ definedName.Defines ∧
      ∃ site start, .ident site "x" start ∈ definedName.names := by
  have lowered : lowerFile "{ x := 1; x }".toUTF8 "main.go" definedBlock = .ok
      { path := "main.go"
        root := .generic ⟨"block", 1, 1⟩ [definedName.node, .ident ⟨"identifier", 1, 11⟩ "x" 10]
        package := none
        bindings := (BindingTable.empty.insert 2 (.declaration [0] definedName)).insert 10
          (.declaration [0] definedName) } := by
    with_unfolding_all rfl
  have found : ((BindingTable.empty.insert 2 (.declaration [0] definedName)).insert 10
      (.declaration [0] definedName)).find? 10 = some (.declaration [0] definedName) := rfl
  have spelled (part : Concrete) (identifier : definedBlock.HasIdentifier part) :
      part.text "{ x := 1; x }".toUTF8 = "x" := by
    rcases hasIdentifier_definedBlock identifier with rfl | rfl <;> decide +kernel
  have unambiguous (first second : Concrete) (here : definedBlock.HasIdentifier first)
      (there : definedBlock.HasIdentifier second) (_ : first.label.start = second.label.start) :=
    (spelled first here).trans (spelled second there).symm
  obtain ⟨⟨walked, _⟩, defines, ⟨part, identifier, starts⟩, named⟩ :=
    bindings_are_well_formed lowered unambiguous found
  refine ⟨_, lowered, found, walked, defines, ?_⟩
  rw [← spelled part identifier]
  exact named part identifier starts

end AssetRefs
