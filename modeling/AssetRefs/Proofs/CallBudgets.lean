import AssetRefs.Proofs.SessionState
import AssetRefs.Proofs.TaskSequences

/-! # Resolutions end

Names lead from one declaration to any other, also to one around them, so a resolution is no
recursion over an expression. All that stands against endless recursion is that a declaration which
is being followed is not followed again.

Here resolution is written as that plain recursion, with a budget that bounds how deep calls may be
nested and that may run out. A call is made of the tasks that it starts, one after the other, and
each of them has one less to spend. `ScanCall.within_agrees` is the induction: what a call needs is
bounded by the declarations not yet being followed together with the size of what it looks at, and
every call that it makes in turn needs less. So a budget can be computed beforehand from the sizes
of the nodes, and within it the plain recursion gives what resolution gives.
-/

namespace AssetRefs

/-- A stretch of a scan that may run out of its budget, and then gives nothing. -/
structure Attempt (α : Type) where
  run : Session → Option (Session × Except Halt α)

namespace Attempt

variable {α β : Type}

/-- The attempt whose budget has run out. -/
def exhausted : Attempt α := ⟨fun _ => none⟩

/-- A stretch of a scan that makes no calls. -/
def ofTrace (trace : Trace α) : Attempt α := ⟨fun session => some (trace.run session)⟩

/-- One attempt after another that is told how the first one ended. -/
def resume (first : Attempt α) (next : Except Halt α → Attempt β) : Attempt β :=
  ⟨fun session =>
    match first.run session with
    | none => none
    | some (session, outcome) => (next outcome).run session⟩

/-- One attempt after another, unless the first one stopped. -/
def andThen (first : Attempt α) (next : α → Attempt β) : Attempt β :=
  first.resume fun
    | .error reason => ofTrace (.halt reason)
    | .ok value => next value

/-- One attempt after another, even if the first met a problem; the problem stands at the end. -/
def deferring (first : Attempt α) (next : Unit → Attempt Unit) : Attempt Unit :=
  first.resume fun
    | .error (.problem error) => (next ()).andThen fun _ => ofTrace (.halt (.problem error))
    | .error .malformedLiteral => ofTrace (.halt .malformedLiteral)
    | .ok _ => next ()

/-- An attempt during which the declaration at a place counts as being followed, unless it is being
followed already. -/
def following (place : Address) (attempt : Attempt Unit) : Attempt Unit :=
  ⟨fun session =>
    if session.active.contains place then some (session, .ok ())
    else
      match attempt.run (session.withActive (place :: session.active)) with
      | none => none
      | some (session, outcome) =>
        some (session.withActive (session.active.erase place), outcome)⟩

/-- A visit: a problem is logged. -/
def visiting (attempt : Attempt Unit) : Attempt Unit :=
  ⟨fun session =>
    match attempt.run session with
    | some (session, .error (.problem error)) => some (session.log error, .ok ())
    | ended => ended⟩

/-- Attempts tasks one after the other. -/
def each (attempt : ScanTask → Attempt Unit) : List ScanTask → Attempt Unit
  | [] => ofTrace (.done ())
  | task :: rest => (attempt task).andThen fun _ => each attempt rest

end Attempt

/-- A call that a scan makes: a visit, a look for the literal that an expression denotes, or one
that performs a task. -/
inductive ScanCall where
  | visit (node : Node)
  | literalValue (node : Node)
  | perform (task : ScanTask)

namespace ScanCall

/-- What a call gives. -/
abbrev Result : ScanCall → Type
  | literalValue _ => Option String
  | _ => Unit

section

variable (context : ScanContext) (table : BindingTable)

/-- The stretch of a scan that a call stands for. -/
def trace (follow : Nat → Trace Unit) : (call : ScanCall) → Trace call.Result
  | visit node => ⟨fun session => session.visit (classify context table follow node)⟩
  | literalValue node => AssetRefs.literalValue context table follow node
  | perform task => task.perform context table follow

section

variable (invoke : (call : ScanCall) → Attempt call.Result)

/-- Looks for the literal that an expression denotes, by calls. -/
def valueBody : Node → Attempt (Option String)
  | .ident site name offset =>
    match valueOf? context (table.find? offset) site name with
    | some (.ok raw) => .ofTrace (.done (some raw))
    | some (.error reason) => .ofTrace (.halt reason)
    | none => (invoke (.perform (.declaration offset))).andThen fun _ => .ofTrace (.done none)
  | .literal _ text => .ofTrace (.done (some text))
  | .call site callee arguments =>
    (invoke (.perform (.direct (.call site callee arguments)))).andThen fun _ =>
      .ofTrace (.done none)
  | node => .ofTrace (.halt (context.problem node.site (.unhandled node.site.kind)))

/-- Looks at the first argument of `Open`, by calls. -/
def openBody : Node → Attempt Unit
  | .ident site name offset =>
    match valueOf? context (table.find? offset) site name with
    | none => invoke (.perform (.declaration offset))
    | some (.error reason) =>
      (invoke (.perform (.declaration offset))).andThen fun _ => .ofTrace (.halt reason)
    | some (.ok raw) =>
      (Attempt.ofTrace (context.addPath raw site)).deferring fun _ =>
        invoke (.perform (.declaration offset))
  | .literal site text => .ofTrace ((context.addPath text site).andThen fun _ => .done ())
  | .call site callee arguments => invoke (.perform (.direct (.call site callee arguments)))
  | _ => .ofTrace (.done ())

/-- Looks at the arguments of a call with the member of a callee, by calls. -/
def recognitionBody (site : Site) (arguments : List Node) (callee : Node) : Attempt Unit :=
  match memberOf? context callee, arguments with
  | some .walk, [first, _] =>
    (invoke (.literalValue first)).andThen fun
      | some raw => .ofTrace ((context.addPath raw first.site).andThen fun _ => .done ())
      | none => .ofTrace (.done ())
  | some .walk, _ => .ofTrace (.halt (context.problem site .walkArity))
  | some .open, first :: _ => openBody context table invoke first
  | _, _ => .ofTrace (.done ())

/-- Does a task, by calls. Most tasks come down to those that they start. -/
def taskBody : ScanTask → Attempt Unit
  | .declaration offset =>
    match table.find? offset with
    | some (.declaration place target) =>
      .following place (.each (fun task => invoke (.perform task)) (ScanTask.ofDeclaration target))
    | _ => .ofTrace (.done ())
  | .recognition site arguments callee => recognitionBody context table invoke site arguments callee
  | .registration text site => .ofTrace ((context.addPath text site).andThen fun _ => .done ())
  | task => .each (fun task => invoke (.perform task)) (task.next context table)

/-- What a call does, by calls. -/
def body : (call : ScanCall) → Attempt call.Result
  | visit node => (invoke (.perform (.classification node))).visiting
  | literalValue node => valueBody context table invoke node
  | perform task => taskBody context table invoke task

end

/-- Makes a call; calls may be nested as deep as the budget says. -/
def within : (budget : Nat) → (call : ScanCall) → Attempt call.Result
  | 0, _ => .exhausted
  | budget + 1, call => body context table (within budget) call

end

end ScanCall

/-! ## Agreement with resolution -/

/-- While the given declarations are being followed, the attempt does not run out of its budget and
gives what the trace gives. -/
def Attempt.Agrees {α : Type} (attempt : Attempt α) (trace : Trace α) (active : List Address) :
    Prop :=
  ∀ session : Session, session.active = active → attempt.run session = some (trace.run session)

namespace Attempt.Agrees

variable {α β : Type} {active : List Address}

theorem ofTrace (trace : Trace α) : (Attempt.ofTrace trace).Agrees trace active := fun _ _ => rfl

theorem resume {first : Attempt α} {trace : Trace α} {next : Except Halt α → Attempt β}
    {later : Except Halt α → Trace β} (agrees : first.Agrees trace active) (tame : trace.Tame)
    (agreesNext : ∀ outcome, (next outcome).Agrees (later outcome) active) :
    (first.resume next).Agrees (trace.resume later) active := by
  intro session followed
  obtain ⟨entries, ran⟩ := tame.exists_registerAll session
  simp only [Attempt.resume, agrees session followed]
  refine agreesNext _ _ ?_
  rw [ran, Session.registerAll_active, followed]

theorem andThen {first : Attempt α} {trace : Trace α} {next : α → Attempt β}
    {later : α → Trace β} (agrees : first.Agrees trace active) (tame : trace.Tame)
    (agreesNext : ∀ value, (next value).Agrees (later value) active) :
    (first.andThen next).Agrees (trace.andThen later) active := by
  refine agrees.resume tame fun outcome => ?_
  cases outcome with
  | error reason => exact .ofTrace _
  | ok value => exact agreesNext value

theorem deferring {first : Attempt α} {trace : Trace α} {next : Unit → Attempt Unit}
    {later : Unit → Trace Unit} (agrees : first.Agrees trace active) (tame : trace.Tame)
    (agreesNext : (next ()).Agrees (later ()) active) (tameLater : (later ()).Tame) :
    (first.deferring next).Agrees (trace.deferring later) active := by
  refine agrees.resume tame fun outcome => ?_
  cases outcome with
  | ok value => exact agreesNext
  | error reason =>
    cases reason with
    | problem error => exact agreesNext.andThen tameLater fun _ => .ofTrace _
    | malformedLiteral => exact .ofTrace _

theorem following_of_mem {attempt : Attempt Unit} {trace : Trace Unit} {place : Address}
    (member : place ∈ active) :
    (attempt.following place).Agrees (trace.following place) active := by
  rintro session rfl
  simp only [Attempt.following, Trace.following, List.contains_iff_mem.mpr member, ↓reduceIte]

theorem following_of_not_mem {attempt : Attempt Unit} {trace : Trace Unit} {place : Address}
    (fresh : place ∉ active) (agrees : attempt.Agrees trace (place :: active)) :
    (attempt.following place).Agrees (trace.following place) active := by
  rintro session rfl
  have ran := agrees (session.withActive (place :: session.active)) rfl
  simp [Attempt.following, Trace.following, fresh, ran]

theorem visiting {attempt : Attempt Unit} {trace : Trace Unit}
    (agrees : attempt.Agrees trace active) :
    attempt.visiting.Agrees ⟨fun session => session.visit trace⟩ active := by
  intro session followed
  simp only [Attempt.visiting, Session.visit, agrees session followed]
  rcases trace.run session with ⟨after, (_ | _) | _⟩
  · rfl
  · rfl
  · rfl

theorem each {context : ScanContext} {table : BindingTable} {follow : Nat → Trace Unit}
    {attempt : ScanTask → Attempt Unit} (tame : ∀ offset, (follow offset).Tame)
    {tasks : List ScanTask}
    (agrees : ∀ task ∈ tasks, (attempt task).Agrees (task.perform context table follow) active) :
    (Attempt.each attempt tasks).Agrees (ScanTask.performAll context table follow tasks)
      active := by
  induction tasks with
  | nil => exact .ofTrace _
  | cons task rest ih =>
    obtain ⟨first, others⟩ := List.forall_mem_cons.mp agrees
    exact first.andThen (ScanTask.perform_tame tame task) fun _ => ih others

end Attempt.Agrees

/-! ## Tasks come down to those that they start -/

namespace ScanTask

variable {context : ScanContext} {table : BindingTable} {follow : Nat → Trace Unit}

theorem performAll_singleton (task : ScanTask) :
    performAll context table follow [task] = task.perform context table follow :=
  Trace.andThen_done _

theorem resolveAllNested_eq_performAll_map (nodes : List Node) :
    resolveAllNested context table follow nodes =
      performAll context table follow (nodes.map nested) := by
  induction nodes with
  | nil => rfl
  | cons node rest ih => rw [resolveAllNested, ih, List.map_cons, performAll, perform]

theorem classifyAll_eq_performAll_map (nodes : List Node) :
    classifyAll context table follow nodes =
      performAll context table follow (nodes.map classification) := by
  induction nodes with
  | nil => rfl
  | cons node rest ih => rw [classifyAll, ih, List.map_cons, performAll, perform]

theorem perform_classification (node : Node) :
    (classification node).perform context table follow =
      performAll context table follow ((classification node).next context table) := by
  cases node with
  | call => exact (performAll_singleton _).symm
  | ident => exact (performAll_singleton _).symm
  | group site specs => exact classifyAll_eq_performAll_map specs
  | function site name signature body =>
    cases body with
    | none => rfl
    | some body => exact resolveStatements_eq_performAll body
  | valueSpec site names type values constant => exact resolveAllDirect_eq_performAll values
  | _ => rfl

theorem perform_statement (node : Node) : (statement node).perform context table follow =
    performAll context table follow ((statement node).next context table) := by
  cases node with
  | statement => exact (performAll_singleton _).symm
  | assignment site left right defines => exact resolveAllNested_eq_performAll_map right
  | _ => rfl

theorem perform_nested (node : Node) : (nested node).perform context table follow =
    performAll context table follow ((nested node).next context table) := by
  cases node with
  | composite site type elements => exact resolveAllDirect_eq_performAll elements
  | call site callee arguments =>
    rw [perform, next, performAll_append, ← resolveAllNested_eq_performAll_map]
    unfold resolveNested
    congr 1
    cases callee with
    | selector => exact (Trace.andThen_done _).symm
    | ident => exact (Trace.andThen_done _).symm
    | _ => rfl
  | _ => rfl

/-- The tasks for the arguments of a call, and whether one of them borrows its member. -/
theorem resolveArguments_eq_performAll (callee : Node) (nodes : List Node) :
    resolveArguments context table follow callee nodes =
      (performAll context table follow (ofArguments callee nodes)).andThen fun _ =>
        .done (callee.isSelector && nodes.any Node.isCall) := by
  induction nodes with
  | nil => simp [resolveArguments, ofArguments, performAll, Trace.done_andThen]
  | cons node rest ih =>
    cases node with
    | call site inner arguments =>
      unfold resolveArguments
      cases selects : callee.isSelector with
      | false =>
        simp [ih, ofArguments, selects, Node.isCall, performAll, perform, Trace.andThen_assoc]
      | true =>
        simp [ofArguments, selects, Node.isCall, performAll_singleton, perform]
    | composite site type elements =>
      simp [resolveArguments, ih, ofArguments, Node.isCall, performAll_append,
        resolveAllDirect_eq_performAll, Trace.andThen_assoc]
    | _ => simpa [resolveArguments, ofArguments, Node.isCall] using ih

theorem resolveDeclaration_eq_performAll (target : Declaration) :
    resolveDeclaration context table follow target =
      performAll context table follow (ofDeclaration target) := by
  cases target with
  | assignment site left right defines =>
    exact (performAll_singleton (statement (.assignment site left right defines))).symm
  | valueSpec site names type values constant => exact resolveAllDirect_eq_performAll values

theorem perform_direct (node : Node) : (direct node).perform context table follow =
    performAll context table follow ((direct node).next context table) := by
  cases node with
  | keyed => exact (performAll_singleton _).symm
  | call site callee arguments =>
    rw [next, performAll_append, perform, resolveDirect, resolveArguments_eq_performAll,
      Trace.andThen_assoc]
    congr 1
    funext _
    rw [Trace.done_andThen]
    cases selects : callee.isSelector with
    | false =>
      rw [memberOf?_eq_none selects, recognize_none]
      rfl
    | true =>
      cases calls : arguments.any Node.isCall with
      | false => exact (performAll_singleton (recognition site arguments callee)).symm
      | true => rfl
  | _ => rfl

end ScanTask

/-! ## What calls need -/

/-- The number of nodes in the declarations of the table. -/
def BindingTable.volume (table : BindingTable) : Nat :=
  Node.sizes (table.declarations.toList.map fun entry => entry.2.node)

theorem BindingTable.size_le_volume {table : BindingTable} {offset : Nat} {place : Address}
    {target : Declaration} (found : table.find? offset = some (.declaration place target)) :
    target.node.size ≤ table.volume := by
  have entry : (place, target) ∈ table.declarations.toList :=
    Std.TreeMap.mem_toList_iff_getElem?_eq_some.mpr (references_of_find? found).2
  exact Node.size_le_sizes_of_mem (List.mem_map.mpr ⟨_, entry, rfl⟩)

/-- How deep the calls of a task can be nested as long as no declaration is followed. Calls about
one node come in a fixed order, which the summands other than the size tell apart. -/
def ScanTask.weight : ScanTask → Nat
  | classification node => 4 * node.size + 2
  | statement node | direct node | nested node => 4 * node.size + 1
  | declaration _ => 1
  | recognition _ arguments _ => 4 * Node.sizes arguments + 4
  | registration _ _ => 0

namespace ScanTask

theorem weight_ofArguments {callee : Node} {arguments : List Node} {task : ScanTask}
    (member : task ∈ ofArguments callee arguments) :
    task.weight < 4 * Node.sizes arguments + 4 := by
  induction arguments with
  | nil => cases member
  | cons node rest ih =>
    cases node with
    | call site inner arguments =>
      simp only [ofArguments] at member
      split_ifs at member
      · cases List.mem_singleton.mp member
        simp only [weight, Node.sizes, Node.size]
        omega
      · rcases List.mem_cons.mp member with rfl | later
        · simp only [weight, Node.sizes]
          omega
        · have := ih later
          simp only [Node.sizes]
          omega
    | composite site type elements =>
      simp only [ofArguments, List.mem_append, List.mem_map] at member
      rcases member with ⟨element, inside, rfl⟩ | later
      · have := Node.size_le_sizes_of_mem inside
        simp only [weight, Node.sizes, Node.size]
        omega
      · have := ih later
        simp only [Node.sizes]
        omega
    | _ =>
      have := ih member
      simp only [Node.sizes]
      omega

theorem weight_ofDeclaration {target : Declaration} {task : ScanTask}
    (member : task ∈ ofDeclaration target) : task.weight ≤ 4 * target.node.size + 1 := by
  cases target with
  | assignment site left right defines =>
    cases List.mem_singleton.mp member
    rfl
  | valueSpec site names type values constant =>
    obtain ⟨value, inside, rfl⟩ := List.mem_map.mp member
    have := Node.size_le_sizes_of_mem inside
    simp only [weight, Declaration.node, Node.size]
    omega

variable {context : ScanContext} {table : BindingTable}

/-- Classification starts lighter tasks. -/
theorem weight_next_classification {node : Node} {task : ScanTask}
    (starts : task ∈ (classification node).next context table) :
    task.weight < (classification node).weight := by
  cases node with
  | call =>
    cases List.mem_singleton.mp starts
    exact Nat.lt_succ_self _
  | ident =>
    cases List.mem_singleton.mp starts
    simp only [weight, Node.size]
    omega
  | group site specs =>
    obtain ⟨spec, inside, rfl⟩ := List.mem_map.mp starts
    have := Node.size_le_sizes_of_mem inside
    simp only [weight, Node.size]
    omega
  | function site name signature body =>
    cases body with
    | none => cases starts
    | some body =>
      obtain ⟨inner, inside, rfl⟩ := List.mem_map.mp starts
      have := Node.size_le_sizes_of_mem inside
      simp only [weight, Node.size, Node.sizesOption]
      omega
  | valueSpec site names type values constant =>
    obtain ⟨value, inside, rfl⟩ := List.mem_map.mp starts
    have := Node.size_le_sizes_of_mem inside
    simp only [weight, Node.size]
    omega
  | _ => cases starts

/-- A statement starts lighter tasks. -/
theorem weight_next_statement {node : Node} {task : ScanTask}
    (starts : task ∈ (statement node).next context table) :
    task.weight < (statement node).weight := by
  cases node with
  | statement site expression =>
    cases List.mem_singleton.mp starts
    simp only [weight, Node.size]
    omega
  | assignment site left right defines =>
    obtain ⟨value, inside, rfl⟩ := List.mem_map.mp starts
    have := Node.size_le_sizes_of_mem inside
    simp only [weight, Node.size]
    omega
  | _ => cases starts

/-- Direct resolution starts lighter tasks. -/
theorem weight_next_direct {node : Node} {task : ScanTask}
    (starts : task ∈ (direct node).next context table) : task.weight < (direct node).weight := by
  cases node with
  | call site callee arguments =>
    have bounded : task.weight ≤ 4 * Node.sizes arguments + 4 := by
      rcases List.mem_append.mp starts with argument | itself
      · exact Nat.le_of_lt (weight_ofArguments argument)
      · split_ifs at itself
        · cases List.mem_singleton.mp itself
          rfl
        · cases itself
    calc
      task.weight ≤ 4 * Node.sizes arguments + 4 := bounded
      _ < 4 * (Node.call site callee arguments).size + 1 := by
        rw [Node.size]
        omega
  | keyed site key value =>
    cases List.mem_singleton.mp starts
    simp only [weight, Node.size]
    omega
  | _ => cases starts

/-- Nested resolution starts lighter tasks. -/
theorem weight_next_nested {node : Node} {task : ScanTask}
    (starts : task ∈ (nested node).next context table) : task.weight < (nested node).weight := by
  cases node with
  | composite site type elements =>
    obtain ⟨element, inside, rfl⟩ := List.mem_map.mp starts
    have := Node.size_le_sizes_of_mem inside
    simp only [weight, Node.size]
    omega
  | call site callee arguments =>
    have bounded : task.weight ≤ 4 * Node.sizes arguments + 4 := by
      rcases List.mem_append.mp starts with first | argument
      · cases callee with
        | selector =>
          cases List.mem_singleton.mp first
          rfl
        | ident =>
          cases List.mem_singleton.mp first
          simp only [weight]
          omega
        | _ => cases first
      · obtain ⟨inner, inside, rfl⟩ := List.mem_map.mp argument
        have := Node.size_le_sizes_of_mem inside
        simp only [weight]
        omega
    calc
      task.weight ≤ 4 * Node.sizes arguments + 4 := bounded
      _ < 4 * (Node.call site callee arguments).size + 1 := by
        rw [Node.size]
        omega
  | _ => cases starts

end ScanTask

namespace ScanCall

/-- How deep the calls that a call makes can be nested as long as no declaration is followed. -/
def weight : ScanCall → Nat
  | visit node => 4 * node.size + 3
  | literalValue node => 4 * node.size + 2
  | perform task => task.weight

/-- How deep calls can be nested while the given declarations are being followed: each of the others
can be followed once, and is not heavier than all declarations together. -/
def cost (table : BindingTable) (active : List Address) (call : ScanCall) : Nat :=
  table.remaining active * (4 * table.volume + 1) + call.weight + 1

/-- A budget that is enough for a call in any session. -/
def budget (table : BindingTable) (call : ScanCall) : Nat :=
  table.size * (4 * table.volume + 1) + call.weight + 1

theorem cost_le_budget (table : BindingTable) (active : List Address) (call : ScanCall) :
    call.cost table active ≤ call.budget table := by
  have := Nat.mul_le_mul_right (4 * table.volume + 1) (table.remaining_le active)
  unfold cost budget
  omega

/-- Following one declaration more leaves less to spend for what its values need. -/
theorem cost_cons_lt {table : BindingTable} {active : List Address} {offset : Nat}
    {place : Address} {target : Declaration}
    (found : table.find? offset = some (.declaration place target)) (fresh : place ∉ active)
    {task : ScanTask} (member : task ∈ ScanTask.ofDeclaration target) :
    (perform task).cost table (place :: active) <
      (perform (.declaration offset)).cost table active := by
  have heavy := ScanTask.weight_ofDeclaration member
  have bounded := BindingTable.size_le_volume found
  have fewer := Nat.mul_le_mul_right (4 * table.volume + 1)
    (BindingTable.remaining_cons_lt found fresh)
  rw [Nat.succ_mul] at fewer
  change _ * _ + task.weight + 1 < _ * _ + 1 + 1
  omega

/-! ## The induction -/

section

variable {context : ScanContext} {table : BindingTable} {follow : Nat → Trace Unit}
  {active : List Address} {invoke : (call : ScanCall) → Attempt call.Result}
  (tame : ∀ offset, (follow offset).Tame)

include tame

theorem valueBody_agrees {node : Node}
    (invoked : ∀ call : ScanCall, call.weight < (literalValue node).weight →
      (invoke call).Agrees (call.trace context table follow) active) :
    (valueBody context table invoke node).Agrees
      (AssetRefs.literalValue context table follow node) active := by
  cases node with
  | ident site name offset =>
    have followed : (invoke (.perform (.declaration offset))).Agrees (follow offset) active :=
      invoked (.perform (.declaration offset)) (by simp [weight, ScanTask.weight])
    simp only [valueBody, AssetRefs.literalValue, Node.isCall, Bool.false_eq_true, ↓reduceIte,
      plainValue]
    generalize valueOf? context (table.find? offset) site name = value
    rcases value with _ | reason | raw
    · exact followed.andThen (tame offset) fun _ => .ofTrace _
    · exact .ofTrace _
    · exact .ofTrace _
  | call site callee arguments =>
    let node : Node := .call site callee arguments
    have resolved : (invoke (.perform (.direct node))).Agrees
        (resolveDirect context table follow node) active :=
      invoked (.perform (.direct node)) (Nat.lt_succ_self _)
    exact resolved.andThen ((Trace.tame_closed context).resolveDirect tame node) fun _ => .ofTrace _
  | _ => exact .ofTrace _

theorem openBody_agrees {site : Site} {first : Node} {rest : List Node}
    (invoked : ∀ call : ScanCall, call.weight < 4 * Node.sizes (first :: rest) + 4 →
      (invoke call).Agrees (call.trace context table follow) active) :
    (openBody context table invoke first).Agrees
      (AssetRefs.recognize context table follow (some .open) site (first :: rest)) active := by
  rw [recognize_open]
  cases first with
  | ident spot name offset =>
    have followed : (invoke (.perform (.declaration offset))).Agrees (follow offset) active :=
      invoked (.perform (.declaration offset)) (by simp [weight, ScanTask.weight])
    simp only [openBody, Node.isCall, Bool.false_eq_true, ↓reduceIte, openArgument]
    generalize valueOf? context (table.find? offset) spot name = value
    rcases value with _ | reason | raw
    · exact followed
    · exact followed.andThen (tame offset) fun _ => .ofTrace _
    · have adds := (Trace.tame_closed context).addPath raw spot
      exact Attempt.Agrees.deferring (.ofTrace _) adds followed (tame offset)
  | call spot callee arguments =>
    refine invoked (.perform (.direct (.call spot callee arguments))) ?_
    simp only [weight, ScanTask.weight, Node.sizes]
    omega
  | _ => exact .ofTrace _

omit tame in
/-- The first argument of `Walk` is registered if it denotes a literal. -/
theorem recognize_walk_eq_literalValue (site : Site) (first other : Node) :
    recognize context table follow (some .walk) site [first, other] =
      (AssetRefs.literalValue context table follow first).andThen fun
        | some raw => (context.addPath raw first.site).andThen fun _ => .done ()
        | none => .done () := by
  rw [recognize_walk, AssetRefs.literalValue]
  split_ifs
  · rw [Trace.andThen_assoc]
    exact (Trace.andThen_done _).symm
  · rfl

theorem recognitionBody_agrees {site : Site} {arguments : List Node} {callee : Node}
    (invoked : ∀ call : ScanCall, call.weight < 4 * Node.sizes arguments + 4 →
      (invoke call).Agrees (call.trace context table follow) active) :
    (recognitionBody context table invoke site arguments callee).Agrees
      (recognize context table follow (memberOf? context callee) site arguments) active := by
  unfold recognitionBody
  rcases memberOf? context callee with _ | _ | _
  · rw [recognize_none]
    exact .ofTrace _
  · cases arguments with
    | nil => exact .ofTrace _
    | cons first rest => exact openBody_agrees tame invoked
  · rcases arguments with _ | ⟨first, _ | ⟨other, _ | _⟩⟩
    · exact .ofTrace _
    · exact .ofTrace _
    · have looked : (invoke (.literalValue first)).Agrees
          (AssetRefs.literalValue context table follow first) active := by
        refine invoked (.literalValue first) ?_
        simp only [weight, Node.sizes]
        omega
      rw [recognize_walk_eq_literalValue]
      refine looked.andThen ((Trace.tame_closed context).literalValue tame first) fun value => ?_
      cases value with
      | none => exact .ofTrace _
      | some raw => exact .ofTrace _
    · exact .ofTrace _

/-- A task that comes down to those it starts. -/
theorem each_agrees {task : ScanTask}
    (started : task.perform context table follow =
      ScanTask.performAll context table follow (task.next context table))
    (lighter : ∀ other ∈ task.next context table, other.weight < task.weight)
    (invoked : ∀ call : ScanCall, call.weight < task.weight →
      (invoke call).Agrees (call.trace context table follow) active) :
    (Attempt.each (fun task => invoke (.perform task)) (task.next context table)).Agrees
      (task.perform context table follow) active := by
  rw [started]
  exact .each tame fun other starts => invoked (.perform other) (lighter other starts)

end

/-- A declaration is followed by its own tasks, with one more declaration being followed. -/
theorem declaration_agrees {context : ScanContext} {table : BindingTable} {active : List Address}
    {invoke : (call : ScanCall) → Attempt call.Result} {rounds offset : Nat}
    (invoked : ∀ place target, table.find? offset = some (.declaration place target) →
      place ∉ active → ∀ task ∈ ScanTask.ofDeclaration target,
        (invoke (.perform task)).Agrees
          (task.perform context table (followName context table rounds)) (place :: active)) :
    (taskBody context table invoke (.declaration offset)).Agrees
      (followName context table (rounds + 1) offset) active := by
  have tame (offset : Nat) : (followName context table rounds offset).Tame :=
    (Trace.tame_closed context).followName rounds offset
  simp only [taskBody, followName]
  cases found : table.find? offset with
  | none => exact .ofTrace _
  | some target =>
    cases target with
    | marker kind => exact .ofTrace _
    | declaration place target =>
      by_cases member : place ∈ active
      · exact .following_of_mem member
      · refine .following_of_not_mem member ?_
        rw [ScanTask.resolveDeclaration_eq_performAll]
        exact .each tame (invoked place target found member)

/-- Enough budget and enough rounds: the plain recursion does not run out, and gives what resolution
gives. -/
theorem within_agrees {context : ScanContext} {table : BindingTable} {budget : Nat}
    {call : ScanCall} {active : List Address} {rounds : Nat}
    (enough : call.cost table active ≤ budget) (rest : table.remaining active < rounds) :
    (call.within context table budget).Agrees
      (call.trace context table (followName context table rounds)) active := by
  induction budget generalizing call active rounds with
  | zero => simp [cost] at enough
  | succ budget ih =>
    have tame (offset : Nat) : (followName context table rounds offset).Tame :=
      (Trace.tame_closed context).followName rounds offset
    -- Lighter calls can be made while the same declarations are being followed.
    have invoked (other : ScanCall) (lighter : other.weight < call.weight) :
        (other.within context table budget).Agrees
          (other.trace context table (followName context table rounds)) active := by
      refine ih ?_ rest
      simp only [cost] at enough ⊢
      omega
    cases call with
    | visit node => exact (invoked (.perform (.classification node)) (Nat.lt_succ_self _)).visiting
    | literalValue node => exact valueBody_agrees tame invoked
    | perform task =>
      cases task with
      | classification node =>
        exact each_agrees tame (ScanTask.perform_classification node)
          (fun _ => ScanTask.weight_next_classification) invoked
      | statement node =>
        exact each_agrees tame (ScanTask.perform_statement node)
          (fun _ => ScanTask.weight_next_statement) invoked
      | direct node =>
        exact each_agrees tame (ScanTask.perform_direct node)
          (fun _ => ScanTask.weight_next_direct) invoked
      | nested node =>
        exact each_agrees tame (ScanTask.perform_nested node)
          (fun _ => ScanTask.weight_next_nested) invoked
      | recognition site arguments callee => exact recognitionBody_agrees tame invoked
      | registration text site => exact .ofTrace _
      | declaration offset =>
        cases rounds with
        | zero => omega
        | succ rounds =>
          refine declaration_agrees fun place target found fresh task member => ?_
          have cheaper := cost_cons_lt found fresh member
          have fewer := BindingTable.remaining_cons_lt found fresh
          exact ih (by omega) (by omega)

end ScanCall

/-- Every call of a scan ends: a visit, a classification, the resolution of a statement or of an
expression, the following of a name, the look at a call site and the look for a literal. As a plain
recursion, in which a name leads to any declaration that is not being followed, the call stays
within a budget that is computed from the size of what it looks at and from the number and the sizes
of the declarations. It does so in every session, however the declarations refer to each other, and
gives what resolution gives. -/
theorem resolutions_end (context : ScanContext) (table : BindingTable) (call : ScanCall)
    (session : Session) (budget : Nat) (enough : call.budget table ≤ budget) :
    (call.within context table budget).run session =
      some ((call.trace context table (followFresh context table)).run session) :=
  ScanCall.within_agrees ((call.cost_le_budget table session.active).trans enough)
    (Nat.lt_succ_of_le (table.remaining_le session.active)) session rfl

theorem resolutions_end_circle :
    let context : ScanContext := { file := "main.go", package := "app" }
    let table := callingEachOther.bindings
    let call := ScanCall.visit (callingSpec 1 "a" "\"/a\"" "b").node
    ((call.within context table 10).run {}).isNone ∧ call.budget table = 368 ∧
    ((call.within context table 368).run {}).map (fun ended => ended.1.found) =
      some [⟨"app", "/a"⟩, ⟨"app", "/b"⟩] := by
  intro context table call
  have computed : call.budget table = 368 := by decide +kernel
  refine ⟨by decide +kernel, computed, ?_⟩
  rw [resolutions_end context table call {} 368 computed.le]
  decide +kernel

end AssetRefs
