import AssetRefs.Scan.Run
import Mathlib.Data.Set.Lattice
import Mathlib.Logic.Relation

/-! # Resolution tasks

What a resolution comes down to, as a relation between tasks: each task starts others, whether or
not a declaration is being followed at the moment. Declarations may refer to each other in a circle,
so what a task starts in the end is a matter of reachability, not of recursion.

A resolution cuts such circles. `ScanTask.reach_cut` says what that costs, which is nothing:
whatever can be reached from a declaration can be reached from its own tasks without following it
again.
-/

namespace AssetRefs

/-- Something that a resolution has to do. -/
inductive ScanTask where
  | classification (node : Node)
  | statement (node : Node)
  /-- Direct resolution of an expression. -/
  | direct (expression : Node)
  /-- Nested resolution of an expression. -/
  | nested (expression : Node)
  /-- Resolving again the declaration that the name at an offset refers to. -/
  | declaration (offset : Nat)
  /-- Looking at the arguments of the call at a site with the member that `callee` selects. -/
  | recognition (site : Site) (arguments : List Node) (callee : Node)
  /-- Registering the path that the source text of a literal denotes. -/
  | registration (text : String) (site : Site)

namespace ScanTask

/-- The tasks for the arguments of a call seen directly. If the callee selects a member, the first
call among the arguments borrows that member, and the arguments after it are not looked at. -/
def ofArguments (callee : Node) : List Node → List ScanTask
  | [] => []
  | .call site inner arguments :: rest =>
    if callee.isSelector then [recognition site arguments callee]
    else nested (.call site inner arguments) :: ofArguments callee rest
  | .composite _ _ elements :: rest => elements.map direct ++ ofArguments callee rest
  | _ :: rest => ofArguments callee rest

/-- The tasks for the callee of a nested call. -/
def ofCallee (site : Site) (arguments : List Node) : Node → List ScanTask
  | .selector place operand member => [recognition site arguments (.selector place operand member)]
  | .ident _ _ offset => [declaration offset]
  | _ => []

/-- The tasks for the declaration that a name refers to. -/
def ofDeclaration : Declaration → List ScanTask
  | .assignment site left right defines => [statement (.assignment site left right defines)]
  | .valueSpec _ _ _ values _ => values.map direct

section

variable (context : ScanContext) (table : BindingTable)

/-- The tasks for the first argument of `Walk`. -/
def ofWalked : Node → List ScanTask
  | .ident site name offset =>
    match valueOf? context (table.find? offset) site name with
    | some (.ok raw) => [registration raw site]
    | some (.error _) => []
    | none => [declaration offset]
  | .literal site text => [registration text site]
  | .call site callee arguments => [direct (.call site callee arguments)]
  | _ => []

/-- The tasks for the first argument of `Open`. -/
def ofOpened : Node → List ScanTask
  | .ident site name offset =>
    match valueOf? context (table.find? offset) site name with
    | some (.ok raw) => [registration raw site, declaration offset]
    | _ => [declaration offset]
  | .literal site text => [registration text site]
  | .call site callee arguments => [direct (.call site callee arguments)]
  | _ => []

/-- The tasks that a task starts. -/
def next : ScanTask → List ScanTask
  | classification (.call site callee arguments) => [direct (.call site callee arguments)]
  | classification (.ident _ _ offset) => [declaration offset]
  | classification (.group _ specs) => specs.map classification
  | classification (.function _ _ _ (some body)) => body.map statement
  | classification (.valueSpec _ _ _ values _) => values.map direct
  | classification _ => []
  | statement (.statement _ expression) => [direct expression]
  | statement (.assignment _ _ right _) => right.map nested
  | statement _ => []
  | direct (.call site callee arguments) =>
    ofArguments callee arguments ++
      if callee.isSelector && !arguments.any Node.isCall then
        [recognition site arguments callee] else []
  | direct (.keyed _ _ value) => [direct value]
  | direct _ => []
  | nested (.composite _ _ elements) => elements.map direct
  | nested (.call site callee arguments) =>
    ofCallee site arguments callee ++ arguments.map nested
  | nested _ => []
  | declaration offset =>
    match table.find? offset with
    | some (.declaration _ target) => ofDeclaration target
    | _ => []
  | recognition _ arguments callee =>
    match memberOf? context callee, arguments with
    | some .walk, [first, _] => ofWalked context table first
    | some .open, first :: _ => ofOpened context table first
    | _, _ => []
  | registration _ _ => []

/-- What is wrong with the value of a name. -/
def unreadable? (offset : Nat) (site : Site) (name : String) : Option Halt :=
  match valueOf? context (table.find? offset) site name with
  | some (.error reason) => some reason
  | _ => none

/-- What is wrong with a task itself. -/
def fault? : ScanTask → Option Halt
  | recognition site arguments callee =>
    match memberOf? context callee, arguments with
    | some .walk, [.ident site name offset, _] => unreadable? context table offset site name
    | some .walk, [.literal .., _] => none
    | some .walk, [.call .., _] => none
    | some .walk, [first, _] => some (context.problem first.site (.unhandled first.site.kind))
    | some .walk, _ => some (context.problem site .walkArity)
    | some .open, .ident site name offset :: _ => unreadable? context table offset site name
    | _, _ => none
  | registration text site =>
    match context.pathOf text with
    | .ok _ => none
    | .error (.path error) => some (context.problem site (.path error))
    | .error .hexDigitsMissing => some .malformedLiteral
  | _ => none

/-- The path that a task itself registers. -/
def registered? : ScanTask → Option AssetPath
  | registration text _ => (context.pathOf text).toOption
  | _ => none

/-- Neither is anything wrong with the task itself, nor does it register a path. -/
def Inert (task : ScanTask) : Prop :=
  task.fault? context table = none ∧ task.registered? context = none

/-- One task starts another. -/
def Starts (task other : ScanTask) : Prop := other ∈ task.next context table

/-- A task can be reached from another. -/
def Reachable : ScanTask → ScanTask → Prop := Relation.ReflTransGen (Starts context table)

end

end ScanTask

theorem BindingTable.references_of_find? {table : BindingTable} {offset : Nat} {place : Address}
    {target : Declaration} (found : table.find? offset = some (.declaration place target)) :
    table.references[offset]? = some (.declaration place) ∧
      table.declarations[place]? = some target := by
  obtain ⟨reference, known, stands⟩ := Option.bind_eq_some_iff.mp found
  cases reference with
  | marker => cases stands
  | declaration other =>
    obtain ⟨_, stored, same⟩ := Option.map_eq_some_iff.mp stands
    cases same
    exact ⟨known, stored⟩

/-- Names that refer to one place refer to one declaration. -/
theorem BindingTable.target_unique {table : BindingTable} {first second : Nat} {place : Address}
    {target other : Declaration} (found : table.find? first = some (.declaration place target))
    (foundOther : table.find? second = some (.declaration place other)) : target = other := by
  have stored := (references_of_find? found).2
  rw [(references_of_find? foundOther).2] at stored
  cases stored
  rfl

namespace ScanTask

/-! ## What can be reached without following some declarations -/

/-- The place of the declaration that a task resolves again. -/
def place? (table : BindingTable) : ScanTask → Option Address
  | declaration offset =>
    match table.find? offset with
    | some (.declaration place _) => some place
    | _ => none
  | _ => none

/-- The task does not resolve again one of the given declarations. -/
def Free (table : BindingTable) (active : List Address) (task : ScanTask) : Prop :=
  ∀ place, task.place? table = some place → place ∉ active

section

variable (context : ScanContext) (table : BindingTable)

/-- The tasks that can be reached from a task if the given declarations are not resolved again. -/
def reach (active : List Address) (task : ScanTask) : Set ScanTask :=
  {other | Relation.ReflTransGen
    (fun first second => first.Free table active ∧ Starts context table first second) task other}

/-- The tasks that can be reached from one of several tasks. -/
def reachAll (active : List Address) (tasks : List ScanTask) : Set ScanTask :=
  {other | ∃ task ∈ tasks, other ∈ task.reach context table active}

end

variable {context : ScanContext} {table : BindingTable} {active : List Address}

/-- A call that is the first argument of a call site is resolved directly, and that is all. -/
theorem next_recognition_call {callee first : Node} (isCall : first.isCall) (site : Site) :
    (memberOf? context callee = some .open → ∀ rest,
      (recognition site (first :: rest) callee).Inert context table ∧
        (recognition site (first :: rest) callee).next context table = [direct first]) ∧
    (memberOf? context callee = some .walk → ∀ other,
      (recognition site [first, other] callee).Inert context table ∧
        (recognition site [first, other] callee).next context table = [direct first]) := by
  cases first with
  | call =>
    constructor
    · intro selected rest
      simp [Inert, fault?, registered?, next, selected, ofOpened]
    · intro selected other
      simp [Inert, fault?, registered?, next, selected, ofWalked]
  | _ => cases isCall

theorem free_of_place?_eq_none {task : ScanTask} (none : task.place? table = none) :
    task.Free table active := by
  intro place some
  rw [none] at some
  cases some

@[simp] theorem mem_reach_nil_iff {task other : ScanTask} :
    other ∈ task.reach context table [] ↔ task.Reachable context table other := by
  have free (first : ScanTask) : first.Free table [] := fun _ _ => List.not_mem_nil
  simp only [reach, Set.mem_ofPred_eq, Reachable, free, true_and]

theorem mem_reach_self (task : ScanTask) : task ∈ task.reach context table active :=
  Relation.ReflTransGen.refl

theorem mem_reach_iff {task other : ScanTask} (free : task.Free table active) :
    other ∈ task.reach context table active ↔
      other = task ∨ other ∈ reachAll context table active (task.next context table) := by
  constructor
  · intro reached
    rcases Relation.ReflTransGen.cases_head reached with same | ⟨first, ⟨_, starts⟩, rest⟩
    · exact .inl same.symm
    · exact .inr ⟨first, starts, rest⟩
  · rintro (rfl | ⟨first, starts, rest⟩)
    · exact mem_reach_self _
    · exact Relation.ReflTransGen.head ⟨free, starts⟩ rest

@[simp] theorem reachAll_nil : reachAll context table active [] = ∅ := by
  ext other
  simp [reachAll]

@[simp] theorem reachAll_cons (task : ScanTask) (rest : List ScanTask) :
    reachAll context table active (task :: rest) =
      task.reach context table active ∪ reachAll context table active rest := by
  ext other
  simp [reachAll]

@[simp] theorem reachAll_append (first second : List ScanTask) :
    reachAll context table active (first ++ second) =
      reachAll context table active first ∪ reachAll context table active second := by
  ext other
  simp [reachAll, or_and_right, exists_or]

/-- From a declaration that is not to be resolved again nothing else can be reached. -/
theorem eq_of_mem_reach {task other : ScanTask} {place : Address}
    (resolves : task.place? table = some place) (member : place ∈ active)
    (reached : other ∈ task.reach context table active) : other = task := by
  rcases Relation.ReflTransGen.cases_head reached with same | ⟨_, ⟨free, _⟩, _⟩
  · exact same.symm
  · exact (free place resolves member).elim

theorem reach_mono {task other : ScanTask} {place : Address}
    (reached : other ∈ task.reach context table (place :: active)) :
    other ∈ task.reach context table active := by
  refine Relation.ReflTransGen.mono ?_ _ _ reached
  rintro first second ⟨free, starts⟩
  exact ⟨fun at' resolves member => free at' resolves (List.mem_cons_of_mem _ member), starts⟩

/-- A declaration to be resolved again has nothing wrong with itself. -/
theorem inert_declaration (offset : Nat) : (declaration offset).Inert context table := ⟨rfl, rfl⟩

theorem place?_eq_some_iff {task : ScanTask} {place : Address} :
    task.place? table = some place ↔
      ∃ offset target, task = declaration offset ∧
        table.find? offset = some (.declaration place target) := by
  constructor
  · intro resolves
    cases task with
    | declaration offset =>
      simp only [place?] at resolves
      split at resolves
      · next at' target found =>
        cases resolves
        exact ⟨offset, target, rfl, found⟩
      · cases resolves
    | _ => cases resolves
  · rintro ⟨offset, target, rfl, found⟩
    simp only [place?, found]

theorem next_declaration {offset : Nat} {place : Address} {target : Declaration}
    (found : table.find? offset = some (.declaration place target)) :
    (declaration offset).next context table = ofDeclaration target := by
  simp only [next, found]

/-- Cutting circles loses nothing: what can be reached from a declaration can be reached from the
tasks it starts without resolving that declaration again. -/
theorem reach_cut {offset : Nat} {place : Address}
    {target : Declaration} (found : table.find? offset = some (.declaration place target))
    {other : ScanTask} (reached : other ∈ (declaration offset).reach context table active) :
    other.place? table = some place ∨
      other ∈ reachAll context table (place :: active) (ofDeclaration target) := by
  induction reached with
  | refl => exact .inl (place?_eq_some_iff.mpr ⟨offset, target, rfl, found⟩)
  | @tail middle last _ step ih =>
    obtain ⟨free, starts⟩ := step
    by_cases again : middle.place? table = some place
    · -- The declaration comes up once more: what follows is started by its own tasks.
      obtain ⟨offset', target', rfl, found'⟩ := place?_eq_some_iff.mp again
      rw [Starts, next_declaration found', BindingTable.target_unique found' found] at starts
      exact .inr ⟨last, starts, mem_reach_self last⟩
    · obtain ⟨first, member, path⟩ := ih.resolve_left again
      refine .inr ⟨first, member, Relation.ReflTransGen.tail path ⟨?_, starts⟩⟩
      intro at' resolves blocked
      rcases List.mem_cons.mp blocked with rfl | blocked
      · exact again resolves
      · exact free at' resolves blocked

end ScanTask

end AssetRefs
