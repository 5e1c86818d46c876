import AssetRefs.Syntax.Scope
import Mathlib.Tactic.SplitIfs

/-! # Binding tables and name states

A table keeps a declaration once for all names that refer to it. As long as bindings with one place
are one binding, this is not visible from outside: see `BindingTable.find?_insert`.

A declaration changes the innermost scope only (`NameState.declare_eq`) and a use changes no scope.
At the end of the file the package scope answers the uses that wait, each one independently of the
others (`Scope.find?_foldl_answer`).
-/

namespace AssetRefs

/-- What a table keeps for a name with the binding. -/
def Binding.reference : Binding → Reference
  | marker kind => .marker kind
  | declaration place _ => .declaration place

/-- The declaration that the binding has at a place. -/
def Binding.declarationAt (place : Address) : Binding → Option Declaration
  | marker _ => none
  | declaration other target => if other = place then some target else none

/-- The binding with its declaration at another place. -/
def Binding.relocate (move : Address → Address) : Binding → Binding
  | marker kind => .marker kind
  | declaration place target => .declaration (move place) target

/-- The event with its declaration at another place. -/
def ScopeEvent.relocate (move : Address → Address) : ScopeEvent → ScopeEvent
  | declared name offset target => .declared name offset (target.relocate move)
  | opened => .opened
  | closed => .closed
  | used name offset => .used name offset
  | package name => .package name

theorem Binding.relocate_id (target : Binding) : target.relocate id = target := by
  cases target <;> rfl

theorem Binding.map_relocate_id (found : Option Binding) :
    found.map (Binding.relocate id) = found := by
  cases found with
  | none => rfl
  | some target => rw [Option.map_some, target.relocate_id]

theorem ScopeEvent.relocate_id (event : ScopeEvent) : event.relocate id = event := by
  cases event with
  | declared name offset target => rw [relocate, target.relocate_id]
  | _ => rfl

/-- Bindings of which no two are about one place. -/
def Coherent (known : Binding → Prop) : Prop :=
  ∀ ⦃place : Address⦄ ⦃first second : Declaration⦄, known (.declaration place first) →
    known (.declaration place second) → first = second

namespace BindingTable

/-- The table has only bindings from a given stock, and it stores every declaration that it refers
to. -/
structure DrawnFrom (table : BindingTable) (known : Binding → Prop) : Prop where
  stored : ∀ ⦃place : Address⦄ ⦃declaration : Declaration⦄,
    table.declarations[place]? = some declaration → known (.declaration place declaration)
  complete : ∀ ⦃offset : Nat⦄ ⦃place : Address⦄,
    table.references[offset]? = some (.declaration place) →
    ∃ declaration, table.declarations[place]? = some declaration

variable {table : BindingTable} {known : Binding → Prop} {target : Binding}

theorem references_insert (table : BindingTable) (offset : Nat) (target : Binding) (other : Nat) :
    (table.insert offset target).references[other]? =
      if offset = other then some target.reference else table.references[other]? := by
  cases target <;>
    simp [BindingTable.insert, Binding.reference, Std.TreeMap.getElem?_insert]

theorem declarations_insert (table : BindingTable) (offset : Nat) (target : Binding)
    (place : Address) :
    (table.insert offset target).declarations[place]? =
      table.declarations[place]?.or (target.declarationAt place) := by
  cases target with
  | marker marker => simp [BindingTable.insert, Binding.declarationAt]
  | declaration other declaration =>
    simp only [BindingTable.insert, Binding.declarationAt, Std.TreeMap.getElem?_insertIfNew,
      Std.LawfulEqCmp.compare_eq_iff_eq]
    by_cases same : other = place
    · subst same
      by_cases stored : other ∈ table.declarations
      · simp [stored]
      · simp [stored]
    · simp [same]

theorem drawnFrom_empty (known : Binding → Prop) : empty.DrawnFrom known := by
  constructor <;> simp [empty]

theorem find?_empty (offset : Nat) : empty.find? offset = none := by
  simp [empty, find?]

theorem DrawnFrom.insert (drawn : table.DrawnFrom known) (offset : Nat) (listed : known target) :
    (table.insert offset target).DrawnFrom known := by
  constructor
  · intro place declaration stored
    rw [declarations_insert, Option.or_eq_some_iff] at stored
    rcases stored with stored | ⟨_, added⟩
    · exact drawn.stored stored
    · cases target with
      | marker marker => cases added
      | declaration other declaration =>
        simp only [Binding.declarationAt] at added
        split_ifs at added with same
        cases added
        rwa [← same]
  · intro other place refers
    rw [references_insert] at refers
    rw [declarations_insert]
    split_ifs at refers
    · cases target with
      | marker marker => cases refers
      | declaration place declaration =>
        cases refers
        cases table.declarations[place]? <;> simp [Binding.declarationAt]
    · obtain ⟨declaration, stored⟩ := drawn.complete refers
      exact ⟨declaration, by simp [stored]⟩

/-- A name is found with what was set for it last. -/
theorem find?_insert (coherent : Coherent known) (drawn : table.DrawnFrom known) (offset : Nat)
    (listed : known target) (other : Nat) :
    (table.insert offset target).find? other =
      if offset = other then some target else table.find? other := by
  rw [find?, references_insert]
  split_ifs with same
  · cases target with
    | marker marker => rfl
    | declaration place declaration =>
      simp only [Binding.reference, Option.bind_some, target?, declarations_insert,
        Binding.declarationAt, ↓reduceIte]
      cases stored : table.declarations[place]? with
      | none => rfl
      | some first =>
        rw [coherent (drawn.stored stored) listed]
        rfl
  · rw [find?]
    cases refers : table.references[other]? with
    | none => rfl
    | some reference =>
      cases reference with
      | marker marker => rfl
      | declaration place =>
        obtain ⟨declaration, stored⟩ := drawn.complete refers
        simp [target?, declarations_insert, stored]

end BindingTable

/-! ## Declaring a name -/

/-- The scope with a name, unless it has the name already. -/
def Scope.add (scope : Scope) (name : String) (target : Binding) : Scope :=
  match scope.find? name with
  | some _ => scope
  | none => (name, target) :: scope

/-- The scope that declarations go to. -/
def NameState.innermost (state : NameState) : Scope := state.locals.head?.getD state.package

/-- A declaration adds a name to the innermost scope and binds it to what that scope has then. -/
theorem NameState.declare_eq (state : NameState) (offset : Nat) (target : Binding)
    {name : String} (plain : name ≠ "_") :
    state.declare name offset target =
      { (match state.locals with
          | [] => { state with package := state.package.add name target }
          | scope :: outer => { state with locals := scope.add name target :: outer }) with
        bindings := state.bindings.insert offset ((state.innermost.find? name).getD target) } := by
  obtain ⟨locals, package, bindings, waiting, packageName⟩ := state
  rw [declare, if_neg plain]
  cases locals with
  | nil =>
    cases found : package.find? name <;> simp [innermost, Scope.add, found]
  | cons scope outer =>
    cases found : scope.find? name <;> simp [innermost, Scope.add, found]

theorem NameState.use_locals (state : NameState) (name : String) (offset : Nat) :
    (state.use name offset).locals = state.locals := by
  unfold use
  split <;> rfl

theorem NameState.use_package (state : NameState) (name : String) (offset : Nat) :
    (state.use name offset).package = state.package := by
  unfold use
  split <;> rfl

/-! ## The end of the file -/

theorem mem_of_lookup {name : String} {entries : List (Nat × String)} {offset : Nat}
    (found : entries.lookup offset = some name) : (offset, name) ∈ entries := by
  obtain ⟨before, after, rfl, _⟩ := List.lookup_eq_some_iff.mp found
  exact List.mem_append_right _ List.mem_cons_self

/-- The table with the answer of the package scope to a use that waits. -/
def Scope.answer (package : Scope) (table : BindingTable) (entry : Nat × String) : BindingTable :=
  match package.find? entry.2 with
  | some target => table.insert entry.1 target
  | none => table

section

variable {known : Binding → Prop} (coherent : Coherent known) {package : Scope}
  (listed : ∀ name target, package.find? name = some target → known target)

include listed

theorem Scope.answer_drawn {table : BindingTable} (drawn : table.DrawnFrom known)
    (entry : Nat × String) : (package.answer table entry).DrawnFrom known := by
  unfold answer
  cases found : package.find? entry.2 with
  | some target => exact drawn.insert entry.1 (listed _ target found)
  | none => exact drawn

include coherent

theorem Scope.find?_answer {table : BindingTable} (drawn : table.DrawnFrom known)
    (entry : Nat × String) (offset : Nat) :
    (package.answer table entry).find? offset =
      if entry.1 = offset then (package.find? entry.2).or (table.find? offset)
      else table.find? offset := by
  unfold answer
  cases found : package.find? entry.2 with
  | some target =>
    exact BindingTable.find?_insert coherent drawn entry.1 (listed _ target found) offset
  | none => simp

/-- Uses at different offsets are answered independently of each other. -/
theorem Scope.find?_foldl_answer {table : BindingTable} (drawn : table.DrawnFrom known)
    {entries : List (Nat × String)}
    (single : ∀ offset first second, (offset, first) ∈ entries → (offset, second) ∈ entries →
      first = second) (offset : Nat) :
    (entries.foldl package.answer table).find? offset =
      ((entries.lookup offset).bind package.find?).or (table.find? offset) := by
  induction entries generalizing table with
  | nil => rfl
  | cons entry rest ih =>
    obtain ⟨other, name⟩ := entry
    have later := ih (answer_drawn listed drawn (other, name)) fun offset first second here there =>
      single offset first second (List.mem_cons_of_mem _ here) (List.mem_cons_of_mem _ there)
    rw [List.foldl_cons, later, find?_answer coherent listed drawn]
    by_cases same : other = offset
    · subst same
      rw [if_pos rfl, List.lookup_cons_self]
      cases again : rest.lookup other with
      | none => simp
      | some second =>
        have waits : (other, second) ∈ rest := mem_of_lookup again
        rw [single other second name (List.mem_cons_of_mem _ waits) List.mem_cons_self,
          Option.bind_some, ← Option.or_assoc, Option.or_self]
    · have passed : (offset == other) = false := beq_false_of_ne (Ne.symm same)
      rw [if_neg same, List.lookup_cons, passed]

end

end AssetRefs
