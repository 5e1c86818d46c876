import AssetRefs.Proofs.CallSites
import AssetRefs.Proofs.Exploration

/-! # Sequences of tasks

A resolution performs tasks one after the other and stops at the first problem, but what it found
before stays found. So it finds a path just if one of its tasks does and those before it complete
(`ScanTask.finds_performAll_iff`). Nested resolution is such a sequence of steps: direct
resolutions, names to be followed, and calls to be looked at with their own member.
-/

namespace AssetRefs

namespace Trace

variable {α : Type} {active : List Address} {path : AssetPath}

/-- The trace finds a path, if it starts while the given declarations are being followed. -/
def Finds (trace : Trace α) (active : List Address) (path : AssetPath) : Prop :=
  path ∈ (trace.run { active }).1.found

/-- The trace meets no problem, if it starts while the given declarations are being followed. -/
def Completes (trace : Trace α) (active : List Address) : Prop :=
  ∃ value, (trace.run { active }).2 = .ok value

theorem Has.finds_iff {trace : Trace α} {effect : Effect α} (has : trace.Has active effect) :
    trace.Finds active path ↔ ∃ entry ∈ effect.found, path = entry.path := by
  rw [Finds, has { active } rfl, Session.mem_found_registerAll]
  simp

theorem Has.completes_iff {trace : Trace α} {effect : Effect α} (has : trace.Has active effect) :
    trace.Completes active ↔ ∃ value, effect.outcome = .ok value := by
  rw [Completes, has { active } rfl]

theorem not_finds_done (value : α) : ¬ (done value).Finds active path := by
  simp [Finds, done]

theorem not_finds_halt (reason : Halt) : ¬ (halt reason : Trace α).Finds active path := by
  simp [Finds, halt]

theorem andThen_done (trace : Trace Unit) : (trace.andThen fun _ => done ()) = trace := by
  obtain ⟨run⟩ := trace
  simp only [andThen, resume, Trace.mk.injEq]
  funext session
  rcases run session with ⟨after, reason | value⟩
  · rfl
  · rfl

/-- What the first of two traces finds stays found, however it ends. -/
theorem finds_resume_iff {β : Type} {first : Trace α} {next : Except Halt α → Trace β}
    (tame : first.Tame) (tameNext : ∀ outcome, (next outcome).Tame) :
    (first.resume next).Finds active path ↔
      first.Finds active path ∨ (next (first.run { active }).2).Finds active path := by
  obtain ⟨effect, has⟩ := tame active
  obtain ⟨later, hasLater⟩ := tameNext effect.outcome active
  rw [(has.resume hasLater).finds_iff, has.finds_iff, has { active } rfl, hasLater.finds_iff]
  simp only [List.mem_append, or_and_right, exists_or]

section

variable {first : Trace α} {second : Trace Unit} (tame : first.Tame) (tameSecond : second.Tame)

include tame tameSecond

theorem finds_andThen_iff : (first.andThen fun _ => second).Finds active path ↔
    first.Finds active path ∨ first.Completes active ∧ second.Finds active path := by
  rw [andThen, finds_resume_iff tame, Completes]
  · cases (first.run { active }).2 with
    | error reason => simp [not_finds_halt]
    | ok value => simp
  · intro outcome
    cases outcome with
    | error reason => exact fun _ => ⟨_, .halt reason⟩
    | ok value => exact tameSecond

/-- What is put off is done after a problem too. -/
theorem finds_deferring_iff : (first.deferring fun _ => second).Finds active path ↔
    first.Finds active path ∨
      (first.run { active }).2 ≠ .error .malformedLiteral ∧ second.Finds active path := by
  have stops (error : ScanError) : (halt (.problem error) : Trace Unit).Tame :=
    fun _ => ⟨_, .halt _⟩
  rw [deferring, finds_resume_iff tame]
  · rcases (first.run { active }).2 with (error | _) | value
    · simp [finds_andThen_iff tameSecond (stops error), not_finds_halt]
    · simp [not_finds_halt]
    · simp
  · rintro ((error | _) | value)
    · exact fun active => by
        obtain ⟨⟨entries, outcome⟩, has⟩ := tameSecond active
        cases outcome with
        | error reason => exact ⟨_, has.andThen_error⟩
        | ok value => exact ⟨_, has.andThen_ok (.halt _)⟩
    · exact fun _ => ⟨_, .halt _⟩
    · exact tameSecond

end

end Trace

/-! ## Sequences of tasks -/

namespace ScanTask

section

variable (context : ScanContext) (table : BindingTable) (follow : Nat → Trace Unit)

/-- The stretch of a scan that performs a task. -/
def perform : ScanTask → Trace Unit
  | classification node => classify context table follow node
  | statement node => resolveStatement context table follow node
  | direct expression => resolveDirect context table follow expression
  | nested expression => resolveNested context table follow expression
  | declaration offset => follow offset
  | recognition site arguments callee =>
    recognize context table follow (memberOf? context callee) site arguments
  | registration text site => (context.addPath text site).andThen fun _ => .done ()

/-- Performs tasks one after the other. -/
def performAll : List ScanTask → Trace Unit
  | [] => .done ()
  | task :: rest => (task.perform context table follow).andThen fun _ => performAll rest

end

variable {context : ScanContext} {table : BindingTable} {follow : Nat → Trace Unit}
  {active : List Address} {path : AssetPath}

theorem performAll_append (first second : List ScanTask) :
    performAll context table follow (first ++ second) =
      (performAll context table follow first).andThen fun _ =>
        performAll context table follow second := by
  induction first with
  | nil => rfl
  | cons task rest ih => rw [List.cons_append, performAll, ih, performAll, Trace.andThen_assoc]

theorem resolveStatements_eq_performAll (nodes : List Node) :
    resolveStatements context table follow nodes =
      performAll context table follow (nodes.map statement) := by
  induction nodes with
  | nil => rfl
  | cons node rest ih => rw [resolveStatements, ih, List.map_cons, performAll, perform]

theorem resolveAllDirect_eq_performAll (nodes : List Node) :
    resolveAllDirect context table follow nodes =
      performAll context table follow (nodes.map direct) := by
  induction nodes with
  | nil => rfl
  | cons node rest ih => rw [resolveAllDirect, ih, List.map_cons, performAll, perform]

mutual

/-- The steps of the nested resolution of an expression. -/
def nestedSteps : Node → List ScanTask
  | .composite _ _ elements => elements.map direct
  | .call site callee arguments => ofCallee site arguments callee ++ allNestedSteps arguments
  | _ => []

/-- The steps of the nested resolution of several expressions. -/
def allNestedSteps : List Node → List ScanTask
  | [] => []
  | node :: rest => nestedSteps node ++ allNestedSteps rest

end

mutual

theorem resolveNested_eq_performAll : (node : Node) →
    resolveNested context table follow node = performAll context table follow (nestedSteps node)
  | .composite _ _ elements => resolveAllDirect_eq_performAll elements
  | .call site callee arguments => by
    unfold resolveNested
    rw [nestedSteps, performAll_append, resolveAllNested_eq_performAll arguments]
    congr 1
    cases callee with
    | selector place operand member => exact (Trace.andThen_done _).symm
    | ident place name offset => exact (Trace.andThen_done _).symm
    | _ => rfl
  | .generic .. | .ident .. | .literal .. | .selector .. | .keyed .. | .assignment ..
  | .valueSpec .. | .group .. | .function .. | .statement .. => rfl
termination_by structural node => node

/-- Nested resolution is the sequence of its steps. -/
theorem resolveAllNested_eq_performAll : (nodes : List Node) →
    resolveAllNested context table follow nodes =
      performAll context table follow (allNestedSteps nodes)
  | [] => rfl
  | node :: rest => by
    rw [resolveAllNested, allNestedSteps, performAll_append, resolveNested_eq_performAll node,
      resolveAllNested_eq_performAll rest]
termination_by structural nodes => nodes

end

theorem perform_tame (tame : ∀ offset, (follow offset).Tame) (task : ScanTask) :
    (task.perform context table follow).Tame := by
  have closed := Trace.tame_closed context
  cases task with
  | classification node => exact closed.classify tame node
  | statement node => exact closed.resolveStatement tame node
  | direct expression => exact closed.resolveDirect tame expression
  | nested expression => exact closed.resolveNested tame expression
  | declaration offset => exact tame offset
  | recognition site arguments callee => exact closed.recognize tame _ site arguments
  | registration text site => exact closed.andThen (closed.addPath text site) fun _ => closed.done _

theorem performAll_tame (tame : ∀ offset, (follow offset).Tame) (tasks : List ScanTask) :
    (performAll context table follow tasks).Tame := by
  induction tasks with
  | nil => exact (Trace.tame_closed context).done ()
  | cons task rest ih =>
    exact (Trace.tame_closed context).andThen (perform_tame tame task) fun _ => ih

/-- A sequence of tasks finds a path just if one of them does and those before it complete. -/
theorem finds_performAll_iff (tame : ∀ offset, (follow offset).Tame) (tasks : List ScanTask) :
    (performAll context table follow tasks).Finds active path ↔
      ∃ before task after, tasks = before ++ task :: after ∧
        (∀ earlier ∈ before, (earlier.perform context table follow).Completes active) ∧
        (task.perform context table follow).Finds active path := by
  induction tasks with
  | nil => simp [performAll, Trace.not_finds_done]
  | cons head rest ih =>
    rw [performAll, Trace.finds_andThen_iff (perform_tame tame head) (performAll_tame tame rest),
      ih]
    constructor
    · rintro (found | ⟨completes, before, task, after, rfl, earlier, found⟩)
      · exact ⟨[], head, rest, rfl, by simp, found⟩
      · exact ⟨head :: before, task, after, rfl, List.forall_mem_cons.mpr ⟨completes, earlier⟩,
          found⟩
    · rintro ⟨before, task, after, split, earlier, found⟩
      cases before with
      | nil =>
        cases split
        exact .inl found
      | cons first before =>
        cases split
        obtain ⟨completes, earlier⟩ := List.forall_mem_cons.mp earlier
        exact .inr ⟨completes, before, task, after, rfl, earlier, found⟩

theorem perform_explores (followed : Follows context table active follow) (task : ScanTask) :
    (task.perform context table follow).Explores context table active
      (task.reach context table active) := by
  cases task with
  | classification node => exact classify_explores followed node
  | statement node => exact resolveStatement_explores followed node
  | direct expression => exact resolveDirect_explores followed expression
  | nested expression => exact resolveNested_explores followed expression
  | declaration offset => exact followed offset
  | recognition site arguments callee => exact recognize_explores followed callee site arguments
  | registration text site => simpa [perform] using addPath_explores_all text site

/-! ## Call sites -/

theorem finds_addPath_iff {raw : String} {site : Site} :
    (context.addPath raw site).Finds active path ↔ context.pathOf raw = .ok path := by
  rw [(addPath_has raw site).finds_iff, ScanContext.registration]
  rcases context.pathOf raw with (error | _) | other
  · simp
  · simp
  · simp [eq_comm]

theorem finds_registration_iff {raw : String} {site : Site} :
    ((context.addPath raw site).andThen fun _ => Trace.done ()).Finds active path ↔
      context.pathOf raw = .ok path := by
  rw [Trace.finds_andThen_iff ((Trace.tame_closed context).addPath raw site)
    ((Trace.tame_closed context).done ()), finds_addPath_iff]
  simp [Trace.not_finds_done]

/-- What comes of the first argument of `Walk` comes of one of the tasks that it starts. -/
theorem exists_of_finds_walkArgument {node : Node} (notCall : node.isCall = false)
    (found : (walkArgument context table follow node).Finds active path) :
    ∃ task ∈ ofWalked context table node,
      (task.perform context table follow).Finds active path := by
  cases node with
  | ident site name offset =>
    simp only [walkArgument, plainValue] at found
    simp only [ofWalked]
    generalize valueOf? context (table.find? offset) site name = value at found ⊢
    rcases value with _ | reason | raw
    · rw [Trace.andThen_assoc] at found
      simp only [Trace.done_andThen, Trace.andThen_done] at found
      exact ⟨_, List.mem_singleton_self _, found⟩
    · rw [Trace.halt_andThen] at found
      exact (Trace.not_finds_halt _ found).elim
    · exact ⟨_, List.mem_singleton_self _, found⟩
  | literal site text => exact ⟨_, List.mem_singleton_self _, found⟩
  | call => cases notCall
  | _ => exact (Trace.not_finds_halt _ found).elim

/-- A path that the first argument of `Walk` itself denotes is found whatever is being followed. -/
theorem finds_walkArgument {node : Node} {raw : String} {spot : Site}
    (starts : registration raw spot ∈ ofWalked context table node)
    (denoted : context.pathOf raw = .ok path) :
    (walkArgument context table follow node).Finds active path := by
  cases node with
  | ident site name offset =>
    simp only [ofWalked] at starts
    split at starts
    · next value =>
      cases List.mem_singleton.mp starts
      simp only [walkArgument, plainValue, value, Trace.done_andThen]
      exact finds_registration_iff.mpr denoted
    · cases starts
    · cases List.mem_singleton.mp starts
  | literal site text =>
    cases List.mem_singleton.mp starts
    exact finds_registration_iff.mpr denoted
  | call => cases List.mem_singleton.mp starts
  | _ => cases starts

section

variable (tame : ∀ offset, (follow offset).Tame)

include tame

/-- What comes of the first argument of `Open` comes of one of the tasks that it starts. -/
theorem exists_of_finds_openArgument {node : Node} (notCall : node.isCall = false)
    (found : (openArgument context table follow node).Finds active path) :
    ∃ task ∈ ofOpened context table node,
      (task.perform context table follow).Finds active path := by
  have adds (raw : String) (site : Site) := (Trace.tame_closed context).addPath raw site
  cases node with
  | ident site name offset =>
    simp only [openArgument] at found
    simp only [ofOpened]
    split at found
    · next value =>
      simp only [value]
      exact ⟨_, List.mem_singleton_self _, found⟩
    · next reason value =>
      simp only [value]
      have stops : (Trace.halt reason : Trace Unit).Tame := fun _ => ⟨_, .halt _⟩
      rw [Trace.finds_andThen_iff (tame offset) stops] at found
      simp only [Trace.not_finds_halt, and_false, or_false] at found
      exact ⟨_, List.mem_singleton_self _, found⟩
    · next raw value =>
      simp only [value]
      rw [Trace.finds_deferring_iff (adds raw site) (tame offset), finds_addPath_iff] at found
      rcases found with denoted | ⟨_, found⟩
      · exact ⟨_, .head _, finds_registration_iff.mpr denoted⟩
      · exact ⟨_, .tail _ (.head _), found⟩
  | literal site text => exact ⟨_, List.mem_singleton_self _, found⟩
  | call => cases notCall
  | _ => exact (Trace.not_finds_done _ found).elim

/-- A path that the first argument of `Open` itself denotes is found whatever is being followed. -/
theorem finds_openArgument {node : Node} {raw : String} {spot : Site}
    (starts : registration raw spot ∈ ofOpened context table node)
    (denoted : context.pathOf raw = .ok path) :
    (openArgument context table follow node).Finds active path := by
  cases node with
  | ident site name offset =>
    simp only [ofOpened] at starts
    split at starts
    · next value =>
      rcases List.mem_cons.mp starts with same | other
      · cases same
        simp only [openArgument, value]
        have adds := (Trace.tame_closed context).addPath raw spot
        rw [Trace.finds_deferring_iff adds (tame offset)]
        exact .inl (finds_addPath_iff.mpr denoted)
      · cases List.mem_singleton.mp other
    · cases List.mem_singleton.mp starts
  | literal site text =>
    cases List.mem_singleton.mp starts
    exact finds_registration_iff.mpr denoted
  | call => cases List.mem_singleton.mp starts
  | _ => cases starts

/-- What is found at a call site comes of one of the tasks that it starts. -/
theorem exists_of_finds_recognition {site : Site} {arguments : List Node} {callee : Node}
    (found : ((recognition site arguments callee).perform context table follow).Finds active path) :
    ∃ task ∈ (recognition site arguments callee).next context table,
      (task.perform context table follow).Finds active path := by
  simp only [perform] at found
  rcases selected : memberOf? context callee with _ | (_ | _)
  · rw [selected, recognize_none] at found
    exact (Trace.not_finds_done _ found).elim
  · rw [selected] at found
    cases arguments with
    | nil => exact (Trace.not_finds_done _ found).elim
    | cons first rest =>
      rw [recognize_open] at found
      split_ifs at found with isCall
      · rw [((next_recognition_call isCall site).1 selected rest).2]
        exact ⟨_, List.mem_singleton_self _, found⟩
      · simp only [next, selected]
        exact exists_of_finds_openArgument tame (Bool.eq_false_iff.mpr isCall) found
  · rw [selected] at found
    match arguments with
    | [first, other] =>
      rw [recognize_walk] at found
      split_ifs at found with isCall
      · rw [((next_recognition_call isCall site).2 selected other).2]
        exact ⟨_, List.mem_singleton_self _, found⟩
      · simp only [next, selected]
        exact exists_of_finds_walkArgument (Bool.eq_false_iff.mpr isCall) found
    | [] | [_] | _ :: _ :: _ :: _ => exact (Trace.not_finds_halt _ found).elim

/-- A path that a call site itself registers is found there whatever is being followed. -/
theorem finds_recognition_of_registration {site spot : Site} {arguments : List Node}
    {callee : Node} {raw : String}
    (starts : registration raw spot ∈ (recognition site arguments callee).next context table)
    (denoted : context.pathOf raw = .ok path) :
    ((recognition site arguments callee).perform context table follow).Finds active path := by
  simp only [next] at starts
  split at starts
  · next first other selected =>
    have notCall : ¬ first.isCall := by
      cases first with
      | call => cases List.mem_singleton.mp starts
      | _ => simp [Node.isCall]
    rw [perform, selected, recognize_walk, if_neg notCall]
    exact finds_walkArgument starts denoted
  · next first rest selected =>
    have notCall : ¬ first.isCall := by
      cases first with
      | call => cases List.mem_singleton.mp starts
      | _ => simp [Node.isCall]
    rw [perform, selected, recognize_open, if_neg notCall]
    exact finds_openArgument tame starts denoted
  · cases starts

end

/-- A trace that explores part of what another one explores has no problem unless the other
one has. -/
theorem completes_of_explores {α β : Type} {first : Trace α} {second : Trace β}
    {tasks fewer : Set ScanTask} {other : List Address}
    (explores : first.Explores context table other tasks)
    (exploresFewer : second.Explores context table active fewer) (subset : fewer ⊆ tasks)
    (completes : first.Completes other) : second.Completes active := by
  obtain ⟨effect, has, covers⟩ := explores
  obtain ⟨⟨entries, outcome⟩, hasFewer, coversFewer⟩ := exploresFewer
  obtain ⟨value, ended⟩ := has.completes_iff.mp completes
  rw [hasFewer.completes_iff]
  cases outcome with
  | ok result => exact ⟨result, rfl⟩
  | error reason =>
    obtain ⟨task, member, fault⟩ := coversFewer.faulty reason rfl
    rw [(covers.exhaustive value ended task (subset member)).1] at fault
    cases fault

end ScanTask

end AssetRefs
