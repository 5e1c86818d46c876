import AssetRefs.Proofs.ResolutionLaws
import AssetRefs.Proofs.Tasks
import AssetRefs.Proofs.Visits
import Mathlib.Data.Finset.Card

/-! # Resolutions explore the tasks

A resolution registers paths only for tasks that can be reached and stops only for what is wrong
with one of them. If it does not stop, then it has gone through all of them: following a declaration
is cut short only while an outer round of it is under way, and that round completes it.
-/

namespace AssetRefs

open ScanTask (reach reachAll)

namespace Trace

section

variable (context : ScanContext) (table : BindingTable)

/-- An effect that comes from tasks of a set, and unless it stopped, from all of them. -/
structure Effect.Covers {α : Type} (effect : Effect α) (tasks : Set ScanTask) : Prop where
  registered : ∀ entry ∈ effect.found, ∃ task ∈ tasks, task.registered? context = some entry.path
  faulty : ∀ reason, effect.outcome = .error reason →
    ∃ task ∈ tasks, task.fault? context table = some reason
  exhaustive : ∀ value, effect.outcome = .ok value → ∀ task ∈ tasks,
    task.fault? context table = none ∧
      ∀ path, task.registered? context = some path → ∃ entry ∈ effect.found, entry.path = path

/-- While the given declarations are being followed, the trace has an effect that comes from tasks
of a set. -/
def Explores {α : Type} (active : List Address) (trace : Trace α) (tasks : Set ScanTask) : Prop :=
  ∃ effect, trace.Has active effect ∧ effect.Covers context table tasks

end

variable {context : ScanContext} {table : BindingTable} {active : List Address}
  {α β : Type} {first second : Set ScanTask}

namespace Effect.Covers

theorem nothing (value : α) (inert : ∀ task ∈ first, task.Inert context table) :
    (⟨[], .ok value⟩ : Effect α).Covers context table first where
  registered := by simp
  faulty := by simp
  exhaustive _ _ task member := by
    obtain ⟨sound, unregistered⟩ := inert task member
    exact ⟨sound, by simp [unregistered]⟩

/-- An effect that stopped need not come from all tasks. -/
theorem stopped {found : List Registration} {reason : Halt}
    (covers : (⟨found, .error reason⟩ : Effect α).Covers context table first) :
    (⟨found, .error reason⟩ : Effect β).Covers context table (first ∪ second) where
  registered entry member := by
    obtain ⟨task, inside, registers⟩ := covers.registered entry member
    exact ⟨task, .inl inside, registers⟩
  faulty := by
    rintro _ ⟨⟩
    obtain ⟨task, inside, fault⟩ := covers.faulty reason rfl
    exact ⟨task, .inl inside, fault⟩
  exhaustive := by rintro _ ⟨⟩

/-- One effect after another, where the whole does not end well unless the first one did. -/
theorem append {effect : Effect α} {later : Effect β}
    (covers : effect.Covers context table first)
    (coversLater : later.Covers context table second)
    (ended : ∀ value, later.outcome = .ok value → ∃ value, effect.outcome = .ok value) :
    (⟨effect.found ++ later.found, later.outcome⟩ : Effect β).Covers context table
      (first ∪ second) where
  registered entry member := by
    rcases List.mem_append.mp member with member | member
    · obtain ⟨task, inside, registers⟩ := covers.registered entry member
      exact ⟨task, .inl inside, registers⟩
    · obtain ⟨task, inside, registers⟩ := coversLater.registered entry member
      exact ⟨task, .inr inside, registers⟩
  faulty reason stopped := by
    obtain ⟨task, inside, fault⟩ := coversLater.faulty reason stopped
    exact ⟨task, .inr inside, fault⟩
  exhaustive value laterEnded task inside := by
    rcases inside with inside | inside
    · obtain ⟨value, firstEnded⟩ := ended value laterEnded
      obtain ⟨sound, registers⟩ := covers.exhaustive value firstEnded task inside
      refine ⟨sound, fun path registered => ?_⟩
      obtain ⟨entry, member, same⟩ := registers path registered
      exact ⟨entry, List.mem_append_left _ member, same⟩
    · obtain ⟨sound, registers⟩ := coversLater.exhaustive value laterEnded task inside
      refine ⟨sound, fun path registered => ?_⟩
      obtain ⟨entry, member, same⟩ := registers path registered
      exact ⟨entry, List.mem_append_right _ member, same⟩

end Effect.Covers

namespace Explores

theorem done (value : α) (inert : ∀ task ∈ first, task.Inert context table) :
    (Trace.done value).Explores context table active first :=
  ⟨_, .done value, .nothing value inert⟩

theorem halt {task : ScanTask} {reason : Halt} (member : task ∈ first)
    (fault : task.fault? context table = some reason) :
    (Trace.halt reason : Trace α).Explores context table active first := by
  refine ⟨_, .halt reason, ?_, ?_, ?_⟩
  · simp
  · rintro _ ⟨⟩
    exact ⟨task, member, fault⟩
  · rintro _ ⟨⟩

/-- A larger set is explored too if nothing happens to the other tasks in it. -/
theorem widen {trace : Trace α} (explores : trace.Explores context table active first)
    (larger : first ⊆ second)
    (rest : ∀ task ∈ second, task ∈ first ∨ task.Inert context table) :
    trace.Explores context table active second := by
  obtain ⟨effect, has, covers⟩ := explores
  refine ⟨effect, has, ?_, ?_, ?_⟩
  · intro entry member
    obtain ⟨task, inside, registers⟩ := covers.registered entry member
    exact ⟨task, larger inside, registers⟩
  · intro reason stopped
    obtain ⟨task, inside, fault⟩ := covers.faulty reason stopped
    exact ⟨task, larger inside, fault⟩
  · intro value ended task inside
    rcases rest task inside with old | ⟨sound, unregistered⟩
    · exact covers.exhaustive value ended task old
    · exact ⟨sound, by simp [unregistered]⟩

theorem andThen {trace : Trace α} {next : α → Trace β} {post : α → Prop}
    (explores : trace.Explores context table active first) (yields : trace.Yields post)
    (exploresNext : ∀ value, post value →
      (next value).Explores context table active second) :
    (trace.andThen next).Explores context table active (first ∪ second) := by
  obtain ⟨⟨found, outcome⟩, has, covers⟩ := explores
  cases outcome with
  | error reason => exact ⟨_, has.andThen_error, covers.stopped⟩
  | ok value =>
    have result : post value := yields { active } value (by rw [has _ rfl])
    obtain ⟨later, hasLater, coversLater⟩ := exploresNext value result
    exact ⟨_, has.andThen_ok hasLater, covers.append coversLater fun _ _ => ⟨value, rfl⟩⟩

theorem seq {trace : Trace α} {next : α → Trace β}
    (explores : trace.Explores context table active first)
    (exploresNext : ∀ value, (next value).Explores context table active second) :
    (trace.andThen next).Explores context table active (first ∪ second) :=
  explores.andThen (fun _ _ _ => trivial : trace.Yields fun _ => True)
    fun value _ => exploresNext value

/-- A problem that is put off stands in the way of a good end just as one that is not. -/
theorem deferring {trace : Trace α} {next : Unit → Trace Unit}
    (explores : trace.Explores context table active first)
    (exploresNext : (next ()).Explores context table active second) :
    (trace.deferring next).Explores context table active (first ∪ second) := by
  obtain ⟨⟨found, outcome⟩, has, covers⟩ := explores
  match outcome, has, covers with
  | .ok value, has, covers =>
    obtain ⟨later, hasLater, coversLater⟩ := exploresNext
    exact ⟨_, has.deferring_ok hasLater, covers.append coversLater fun _ _ => ⟨value, rfl⟩⟩
  | .error (.problem error), has, covers =>
    -- The problem stands at the end, so the whole stops even if `next` does not.
    obtain ⟨task, member, fault⟩ := covers.faulty _ rfl
    have putOff : ((next ()).andThen fun _ => (Trace.halt (.problem error) : Trace Unit)).Explores
        context table active (second ∪ first) :=
      exploresNext.seq fun _ => halt member fault
    obtain ⟨later, hasLater, coversLater⟩ := putOff
    refine ⟨_, has.deferring_problem hasLater, ?_⟩
    have whole := covers.append coversLater fun value laterEnded => by
      have sound := (coversLater.exhaustive value laterEnded task (.inr member)).1
      rw [fault] at sound
      cases sound
    rwa [Set.union_comm second first, ← Set.union_assoc, Set.union_self] at whole
  | .error .malformedLiteral, has, covers => exact ⟨_, has.deferring_malformed, covers.stopped⟩

/-- What is started by a task to which nothing happens itself. -/
theorem of_next {trace : Trace α} {task : ScanTask} (free : task.place? table = none)
    (inert : task.Inert context table)
    (explores : trace.Explores context table active
      (reachAll context table active (task.next context table))) :
    trace.Explores context table active (task.reach context table active) := by
  have free : task.Free table active := ScanTask.free_of_place?_eq_none free
  refine explores.widen (fun other below => (ScanTask.mem_reach_iff free).mpr (.inr below)) ?_
  intro other reached
  rcases (ScanTask.mem_reach_iff free).mp reached with rfl | below
  · exact .inr inert
  · exact .inl below

/-- What is started by a task that is at fault itself, if the fault is reported afterwards. -/
theorem of_next_halt {trace : Trace α} {task : ScanTask} {reason : Halt}
    (free : task.place? table = none) (fault : task.fault? context table = some reason)
    (explores : trace.Explores context table active
      (reachAll context table active (task.next context table))) :
    (trace.andThen fun _ => (Trace.halt reason : Trace β)).Explores context table active
      (task.reach context table active) := by
  have free : task.Free table active := ScanTask.free_of_place?_eq_none free
  have whole := explores.seq fun _ =>
    (halt (Set.mem_singleton task) fault : Explores _ _ _ (Trace.halt reason : Trace β) _)
  refine whole.widen ?_ ?_
  · rintro other (below | rfl)
    · exact (ScanTask.mem_reach_iff free).mpr (.inr below)
    · exact ScanTask.mem_reach_self _
  · intro other reached
    exact .inl ((ScanTask.mem_reach_iff free).mp reached).symm

/-- A task that starts no others and to which nothing happens. -/
theorem leaf {task : ScanTask} (value : α) (free : task.place? table = none)
    (inert : task.Inert context table) (next : task.next context table = []) :
    (Trace.done value).Explores context table active (task.reach context table active) :=
  of_next free inert (by rw [next, ScanTask.reachAll_nil]; exact done value (by simp))

end Explores

end Trace

/-! ## Call sites -/

section

variable {context : ScanContext} {table : BindingTable} {active : List Address}
  {follow : Nat → Trace Unit}

theorem addPath_explores (raw : String) (site : Site) :
    (context.addPath raw site).Explores context table active
      ((ScanTask.registration raw site).reach context table active) := by
  have self : ScanTask.registration raw site ∈
    (ScanTask.registration raw site).reach context table active := ScanTask.mem_reach_self _
  unfold ScanContext.addPath
  split
  · next path parsed =>
    refine ⟨⟨[⟨path, site.line⟩], .ok path⟩, fun _ _ => rfl, ?_, ?_, ?_⟩
    · simp only [List.mem_singleton, forall_eq]
      exact ⟨_, self, by simp [ScanTask.registered?, parsed, Except.toOption]⟩
    · simp
    · intro _ _ task reached
      rcases (ScanTask.mem_reach_iff (ScanTask.free_of_place?_eq_none rfl)).mp reached with
        rfl | below
      · simp [ScanTask.fault?, ScanTask.registered?, parsed, Except.toOption]
      · simp [ScanTask.next] at below
  · next error parsed => exact .halt self (by simp [ScanTask.fault?, parsed])
  · next parsed => exact .halt self (by simp [ScanTask.fault?, parsed])

/-- A path is registered, and nothing comes of its value. -/
theorem addPath_explores_all (raw : String) (site : Site) :
    ((context.addPath raw site).andThen fun _ => Trace.done ()).Explores context table
      active (reachAll context table active [ScanTask.registration raw site]) := by
  rw [ScanTask.reachAll_cons, ScanTask.reachAll_nil]
  exact (addPath_explores raw site).seq fun _ => .done () (by simp)

/-- Following a name explores what can be reached from its declaration. -/
def Follows (context : ScanContext) (table : BindingTable)
    (active : List Address) (follow : Nat → Trace Unit) : Prop :=
  ∀ offset, (follow offset).Explores context table active
    ((ScanTask.declaration offset).reach context table active)

theorem walkArgument_explores (followed : Follows context table active follow)
    {callee : Node} (selected : memberOf? context callee = some .walk) (site : Site)
    (node other : Node) (notCall : node.isCall = false) :
    (walkArgument context table follow node).Explores context table active
      ((ScanTask.recognition site [node, other] callee).reach context table active) := by
  have self : ScanTask.recognition site [node, other] callee ∈
    (ScanTask.recognition site [node, other] callee).reach context table active :=
    ScanTask.mem_reach_self _
  cases node with
  | ident place name offset =>
    simp only [walkArgument, plainValue]
    split
    · next raw value =>
      rw [Trace.done_andThen]
      refine .of_next rfl ⟨?_, rfl⟩ ?_
      · simp [ScanTask.fault?, selected, ScanTask.unreadable?, value]
      · simp only [ScanTask.next, selected, ScanTask.ofWalked, value]
        exact addPath_explores_all raw place
    · next reason value =>
      rw [Trace.halt_andThen]
      exact .halt self (by simp [ScanTask.fault?, selected, ScanTask.unreadable?, value])
    · next value =>
      rw [Trace.andThen_assoc]
      refine .of_next rfl ⟨?_, rfl⟩ ?_
      · simp [ScanTask.fault?, selected, ScanTask.unreadable?, value]
      · simp only [ScanTask.next, selected, ScanTask.ofWalked, value, ScanTask.reachAll_cons]
        exact (followed offset).seq fun _ => .done () (by simp)
  | literal place text =>
    refine .of_next rfl ⟨?_, rfl⟩ ?_
    · simp [ScanTask.fault?, selected]
    · simp only [ScanTask.next, selected, ScanTask.ofWalked]
      exact addPath_explores_all text place
  | call => cases notCall
  | _ => exact .halt self (by simp [ScanTask.fault?, selected])

theorem openArgument_explores (followed : Follows context table active follow)
    {callee : Node} (selected : memberOf? context callee = some .open) (site : Site)
    (node : Node) (rest : List Node) (notCall : node.isCall = false) :
    (openArgument context table follow node).Explores context table active
      ((ScanTask.recognition site (node :: rest) callee).reach context table active) := by
  have self : ScanTask.recognition site (node :: rest) callee ∈
    (ScanTask.recognition site (node :: rest) callee).reach context table active :=
    ScanTask.mem_reach_self _
  cases node with
  | ident place name offset =>
    simp only [openArgument]
    split
    · next value =>
      refine .of_next rfl ⟨?_, rfl⟩ ?_
      · simp [ScanTask.fault?, selected, ScanTask.unreadable?, value]
      · simp only [ScanTask.next, selected, ScanTask.ofOpened, value, ScanTask.reachAll_cons,
          ScanTask.reachAll_nil, Set.union_empty]
        exact followed offset
    · next reason value =>
      refine .of_next_halt rfl ?_ ?_
      · simp [ScanTask.fault?, selected, ScanTask.unreadable?, value]
      · simp only [ScanTask.next, selected, ScanTask.ofOpened, value, ScanTask.reachAll_cons,
          ScanTask.reachAll_nil, Set.union_empty]
        exact followed offset
    · next raw value =>
      refine .of_next rfl ⟨?_, rfl⟩ ?_
      · simp [ScanTask.fault?, selected, ScanTask.unreadable?, value]
      · simp only [ScanTask.next, selected, ScanTask.ofOpened, value, ScanTask.reachAll_cons,
          ScanTask.reachAll_nil, Set.union_empty]
        exact (addPath_explores raw place).deferring (followed offset)
  | literal place text =>
    refine .of_next rfl ⟨?_, rfl⟩ ?_
    · simp [ScanTask.fault?, selected]
    · simp only [ScanTask.next, selected, ScanTask.ofOpened]
      exact addPath_explores_all text place
  | call => cases notCall
  | _ =>
    exact .leaf () rfl ⟨by simp [ScanTask.fault?, selected], rfl⟩
      (by simp [ScanTask.next, selected, ScanTask.ofOpened])

mutual

theorem resolveDirect_explores (followed : Follows context table active follow) :
    (node : Node) → (resolveDirect context table follow node).Explores context table active
      ((ScanTask.direct node).reach context table active)
  | .call site callee arguments => by
    refine .of_next rfl ⟨rfl, rfl⟩ ?_
    unfold resolveDirect
    rw [ScanTask.next, ScanTask.reachAll_append]
    refine (resolveArguments_explores followed callee arguments).andThen
      (resolveArguments_yields callee arguments) ?_
    -- The call itself is looked at unless a call among its arguments borrowed the member.
    rintro borrowed rfl
    cases selects : callee.isSelector with
    | false =>
      rw [memberOf?_eq_none selects, recognize_none]
      simpa using .done () (by simp)
    | true =>
      cases calls : arguments.any Node.isCall with
      | false =>
        simp only [Bool.true_and, Bool.not_false, ↓reduceIte, ScanTask.reachAll_cons,
          ScanTask.reachAll_nil, Set.union_empty, Bool.false_eq_true]
        exact recognize_explores followed callee site arguments
      | true => simpa using .done () (by simp)
  | .keyed _ _ value => by
    refine .of_next rfl ⟨rfl, rfl⟩ ?_
    simp only [ScanTask.next, ScanTask.reachAll_cons, ScanTask.reachAll_nil, Set.union_empty]
    exact resolveDirect_explores followed value
  | .generic .. | .ident .. | .literal .. | .selector .. | .composite .. | .assignment ..
  | .valueSpec .. | .group .. | .function .. | .statement .. => .leaf () rfl ⟨rfl, rfl⟩ rfl
termination_by structural node => node

theorem resolveArguments_explores (followed : Follows context table active follow)
    (callee : Node) : (nodes : List Node) →
      (resolveArguments context table follow callee nodes).Explores context table active
        (reachAll context table active (ScanTask.ofArguments callee nodes))
  | [] => .done false (by simp [ScanTask.ofArguments])
  | .call site inner arguments :: rest => by
    unfold resolveArguments
    cases selects : callee.isSelector with
    | false =>
      simp only [ScanTask.ofArguments, selects, Node.isCall, Bool.not_false, Bool.and_true,
        ↓reduceIte, Bool.false_eq_true, ScanTask.reachAll_cons]
      exact (resolveNested_explores followed (.call site inner arguments)).seq fun _ =>
        resolveArguments_explores followed callee rest
    | true =>
      simp only [ScanTask.ofArguments, selects, Node.isCall, Bool.not_true, Bool.and_false,
        ↓reduceIte, Bool.false_eq_true, ScanTask.reachAll_cons]
      exact (recognize_explores followed callee site arguments).seq fun _ => .done true (by simp)
  | .composite _ _ elements :: rest => by
    simp only [ScanTask.ofArguments, ScanTask.reachAll_append]
    exact (resolveAllDirect_explores followed elements).seq fun _ =>
      resolveArguments_explores followed callee rest
  | .generic .. :: rest | .ident .. :: rest | .literal .. :: rest | .selector .. :: rest
  | .keyed .. :: rest | .assignment .. :: rest | .valueSpec .. :: rest | .group .. :: rest
  | .function .. :: rest | .statement .. :: rest => resolveArguments_explores followed callee rest
termination_by structural nodes => nodes

theorem resolveAllDirect_explores (followed : Follows context table active follow) :
    (nodes : List Node) →
      (resolveAllDirect context table follow nodes).Explores context table active
        (reachAll context table active (nodes.map ScanTask.direct))
  | [] => .done () (by simp)
  | node :: rest => by
    rw [List.map_cons, ScanTask.reachAll_cons]
    exact (resolveDirect_explores followed node).seq fun _ =>
      resolveAllDirect_explores followed rest
termination_by structural nodes => nodes

theorem resolveNested_explores (followed : Follows context table active follow) :
    (node : Node) → (resolveNested context table follow node).Explores context table active
      ((ScanTask.nested node).reach context table active)
  | .composite _ _ elements =>
    .of_next rfl ⟨rfl, rfl⟩ (resolveAllDirect_explores followed elements)
  | .call site callee arguments => by
    refine .of_next rfl ⟨rfl, rfl⟩ ?_
    unfold resolveNested
    rw [ScanTask.next, ScanTask.reachAll_append]
    refine .seq ?_ fun _ => resolveAllNested_explores followed arguments
    cases callee with
    | selector place operand member =>
      simp only [ScanTask.ofCallee, ScanTask.reachAll_cons, ScanTask.reachAll_nil, Set.union_empty]
      exact recognize_explores followed (.selector place operand member) site arguments
    | ident place name offset =>
      simp only [ScanTask.ofCallee, ScanTask.reachAll_cons, ScanTask.reachAll_nil, Set.union_empty]
      exact followed offset
    | _ => exact .done () (by simp [ScanTask.ofCallee])
  | .generic .. | .ident .. | .literal .. | .selector .. | .keyed .. | .assignment ..
  | .valueSpec .. | .group .. | .function .. | .statement .. => .leaf () rfl ⟨rfl, rfl⟩ rfl
termination_by structural node => node

theorem resolveAllNested_explores (followed : Follows context table active follow) :
    (nodes : List Node) →
      (resolveAllNested context table follow nodes).Explores context table active
        (reachAll context table active (nodes.map ScanTask.nested))
  | [] => .done () (by simp)
  | node :: rest => by
    rw [List.map_cons, ScanTask.reachAll_cons]
    exact (resolveNested_explores followed node).seq fun _ =>
      resolveAllNested_explores followed rest
termination_by structural nodes => nodes

theorem recognize_explores (followed : Follows context table active follow)
    (callee : Node) (site : Site) : (nodes : List Node) →
      (recognize context table follow (memberOf? context callee) site nodes).Explores context table
        active ((ScanTask.recognition site nodes callee).reach context table active)
  | [] => by
    match selected : memberOf? context callee with
    | none =>
      exact .leaf () rfl ⟨by simp [ScanTask.fault?, selected], rfl⟩
        (by simp [ScanTask.next, selected])
    | some .open =>
      exact .leaf () rfl ⟨by simp [ScanTask.fault?, selected], rfl⟩
        (by simp [ScanTask.next, selected])
    | some .walk =>
      exact .halt (ScanTask.mem_reach_self _) (by simp [ScanTask.fault?, selected])
  | first :: rest => by
    match selected : memberOf? context callee with
    | none =>
      exact .leaf () rfl ⟨by simp [ScanTask.fault?, selected], rfl⟩
        (by simp [ScanTask.next, selected])
    | some .walk =>
      match rest with
      | [other] =>
        rw [recognize_walk]
        split_ifs with isCall
        · obtain ⟨inert, next⟩ := (ScanTask.next_recognition_call isCall site).2 selected other
          refine .of_next rfl inert ?_
          rw [next, ScanTask.reachAll_cons, ScanTask.reachAll_nil, Set.union_empty]
          exact resolveDirect_explores followed first
        · exact walkArgument_explores followed selected site first other
            (Bool.eq_false_iff.mpr isCall)
      | [] => exact .halt (ScanTask.mem_reach_self _) (by simp [ScanTask.fault?, selected])
      | _ :: _ :: _ => exact .halt (ScanTask.mem_reach_self _) (by simp [ScanTask.fault?, selected])
    | some .open =>
      rw [recognize_open]
      split_ifs with isCall
      · obtain ⟨inert, next⟩ := (ScanTask.next_recognition_call isCall site).1 selected rest
        refine .of_next rfl inert ?_
        rw [next, ScanTask.reachAll_cons, ScanTask.reachAll_nil, Set.union_empty]
        exact resolveDirect_explores followed first
      · exact openArgument_explores followed selected site first rest
          (Bool.eq_false_iff.mpr isCall)
termination_by structural nodes => nodes

end

theorem resolveStatement_explores (followed : Follows context table active follow)
    (node : Node) : (resolveStatement context table follow node).Explores context table
      active ((ScanTask.statement node).reach context table active) := by
  cases node with
  | statement site expression =>
    refine .of_next rfl ⟨rfl, rfl⟩ ?_
    simp only [ScanTask.next, ScanTask.reachAll_cons, ScanTask.reachAll_nil, Set.union_empty]
    exact resolveDirect_explores followed expression
  | assignment site left right defines =>
    exact .of_next rfl ⟨rfl, rfl⟩ (resolveAllNested_explores followed right)
  | _ => exact .leaf () rfl ⟨rfl, rfl⟩ rfl

theorem resolveStatements_explores (followed : Follows context table active follow)
    (nodes : List Node) :
    (resolveStatements context table follow nodes).Explores context table active
      (reachAll context table active (nodes.map ScanTask.statement)) := by
  induction nodes with
  | nil => exact .done () (by simp)
  | cons node rest ih =>
    rw [List.map_cons, ScanTask.reachAll_cons]
    exact (resolveStatement_explores followed node).seq fun _ => ih

theorem resolveDeclaration_explores (followed : Follows context table active follow)
    (target : Declaration) :
    (resolveDeclaration context table follow target).Explores context table active
      (reachAll context table active (ScanTask.ofDeclaration target)) := by
  cases target with
  | assignment site left right defines =>
    simp only [ScanTask.ofDeclaration, ScanTask.reachAll_cons, ScanTask.reachAll_nil,
      Set.union_empty]
    exact resolveStatement_explores followed (.assignment site left right defines)
  | valueSpec site names type values constant =>
    exact resolveAllDirect_explores followed values

mutual

theorem classify_explores (followed : Follows context table active follow) :
    (node : Node) → (classify context table follow node).Explores context table active
      ((ScanTask.classification node).reach context table active)
  | .call site callee arguments => by
    refine .of_next rfl ⟨rfl, rfl⟩ ?_
    simp only [ScanTask.next, ScanTask.reachAll_cons, ScanTask.reachAll_nil, Set.union_empty]
    exact resolveDirect_explores followed (.call site callee arguments)
  | .ident site name offset => by
    refine .of_next rfl ⟨rfl, rfl⟩ ?_
    simp only [ScanTask.next, ScanTask.reachAll_cons, ScanTask.reachAll_nil, Set.union_empty]
    exact followed offset
  | .group _ specs => .of_next rfl ⟨rfl, rfl⟩ (classifyAll_explores followed specs)
  | .function _ _ _ (some body) =>
    .of_next rfl ⟨rfl, rfl⟩ (resolveStatements_explores followed body)
  | .valueSpec _ _ _ values _ =>
    .of_next rfl ⟨rfl, rfl⟩ (resolveAllDirect_explores followed values)
  | .generic .. | .literal .. | .selector .. | .composite .. | .keyed .. | .assignment ..
  | .function _ _ _ none | .statement .. => .leaf () rfl ⟨rfl, rfl⟩ rfl
termination_by structural node => node

theorem classifyAll_explores (followed : Follows context table active follow) :
    (nodes : List Node) → (classifyAll context table follow nodes).Explores context table
      active (reachAll context table active (nodes.map ScanTask.classification))
  | [] => .done () (by simp)
  | node :: rest => by
    rw [List.map_cons, ScanTask.reachAll_cons]
    exact (classify_explores followed node).seq fun _ => classifyAll_explores followed rest
termination_by structural nodes => nodes

end

/-! ## Following names -/

/-- The places of the declarations that names refer to. -/
def BindingTable.places (table : BindingTable) : List Address :=
  table.references.toList.filterMap fun entry =>
    match entry.2 with
    | .declaration place => some place
    | .marker _ => none

theorem BindingTable.mem_places {offset : Nat} {place : Address} {target : Declaration}
    (found : table.find? offset = some (.declaration place target)) : place ∈ table.places := by
  have entry : (offset, Reference.declaration place) ∈ table.references.toList :=
    Std.TreeMap.mem_toList_iff_getElem?_eq_some.mpr (references_of_find? found).1
  exact List.mem_filterMap.mpr ⟨_, entry, rfl⟩

theorem BindingTable.length_places_le (table : BindingTable) :
    table.places.length ≤ table.size := by
  calc
    table.places.length ≤ table.references.toList.length := List.length_filterMap_le ..
    _ = table.size := Std.TreeMap.length_toList

/-- The number of declarations that can still be followed inside those being followed. -/
def BindingTable.remaining (table : BindingTable) (active : List Address) : Nat :=
  (table.places.toFinset \ active.toFinset).card

theorem BindingTable.remaining_cons_lt {offset : Nat} {place : Address} {target : Declaration}
    (found : table.find? offset = some (.declaration place target)) (fresh : place ∉ active) :
    table.remaining (place :: active) < table.remaining active := by
  have member : place ∈ table.places.toFinset \ active.toFinset := by
    simp [BindingTable.mem_places found, fresh]
  have erased : table.places.toFinset \ (place :: active).toFinset =
      (table.places.toFinset \ active.toFinset).erase place := by
    ext other
    simp only [List.toFinset_cons, Finset.mem_sdiff, Finset.mem_insert, Finset.mem_erase, not_or]
    tauto
  rw [remaining, remaining, erased]
  exact Finset.card_erase_lt_of_mem member

theorem BindingTable.remaining_le (table : BindingTable) (active : List Address) :
    table.remaining active ≤ table.size := by
  calc
    table.remaining active ≤ table.places.toFinset.card := Finset.card_le_card Finset.sdiff_subset
    _ ≤ table.places.length := List.toFinset_card_le _
    _ ≤ table.size := table.length_places_le

/-- Following a name explores all that can be reached from its declaration, though a declaration
that is being followed is not followed again. -/
theorem followName_explores (rounds : Nat)
    (enough : table.remaining active < rounds) :
    Follows context table active (followName context table rounds) := by
  induction rounds generalizing active with
  | zero => cases enough
  | succ rounds ih =>
    intro offset
    match found : table.find? offset with
    | none =>
      simp only [followName, found]
      exact .leaf () (by simp [ScanTask.place?, found]) (ScanTask.inert_declaration offset)
        (by simp [ScanTask.next, found])
    | some (.marker _) =>
      simp only [followName, found]
      exact .leaf () (by simp [ScanTask.place?, found]) (ScanTask.inert_declaration offset)
        (by simp [ScanTask.next, found])
    | some (.declaration place target) =>
      simp only [followName, found]
      have resolves : (ScanTask.declaration offset).place? table = some place :=
        ScanTask.place?_eq_some_iff.mpr ⟨offset, target, rfl, found⟩
      by_cases member : place ∈ active
      · -- An outer round follows the declaration, and nothing beyond it counts as reached here.
        refine ⟨_, .following_of_mem member, .nothing () fun task reached => ?_⟩
        rw [ScanTask.eq_of_mem_reach resolves member reached]
        exact ScanTask.inert_declaration offset
      · -- Inside, one declaration less can be followed, so the rounds are enough there too.
        have smaller := BindingTable.remaining_cons_lt found member
        have inner : Follows context table (place :: active)
          (followName context table rounds) := ih (by omega)
        obtain ⟨effect, has, covers⟩ := resolveDeclaration_explores inner target
        have explores : Trace.Explores context table active (.following place _) _ :=
          ⟨effect, .following_of_not_mem member has, covers⟩
        refine explores.widen ?_ ?_
        · rintro other ⟨first, starts, reached⟩
          have free : (ScanTask.declaration offset).Free table active := by
            intro at' same
            rw [resolves] at same
            cases same
            exact member
          rw [← ScanTask.next_declaration found] at starts
          refine (ScanTask.mem_reach_iff free).mpr (.inr ⟨first, starts, ?_⟩)
          exact ScanTask.reach_mono reached
        · -- What lies beyond another occurrence of the declaration is reached from its own tasks.
          intro other reached
          rcases ScanTask.reach_cut found reached with again | below
          · obtain ⟨offset', _, rfl, _⟩ := ScanTask.place?_eq_some_iff.mp again
            exact .inr (ScanTask.inert_declaration offset')
          · exact .inl below

/-- Following a name explores what can be reached from its declaration. -/
theorem followFresh_explores (context : ScanContext) (table : BindingTable) :
    Follows context table [] (followFresh context table) :=
  followName_explores _ (Nat.lt_succ_of_le (table.remaining_le []))

/-- A visit explores what can be reached from the classification of its node. -/
theorem visitTrace_explores (context : ScanContext) (tree : SyntaxTree) (node : Node) :
    (visitTrace context tree node).Explores context tree.bindings []
      ((ScanTask.classification node).reach context tree.bindings []) :=
  classify_explores (followFresh_explores context tree.bindings) node

end

/-- A visit that is made alone and meets nothing wrong. -/
theorem Trace.Has.ok_iff {context : ScanContext} {tree : SyntaxTree} {node : Node}
    {effect : Trace.Effect Unit} (has : (visitTrace context tree node).Has [] effect) :
    (visitAlone context tree node).errors = [] ∧ VisitReturns context tree node ↔
      effect.outcome = .ok () := by
  rw [has.errors_visitAlone, has.visitReturns_iff, Trace.Effect.logged]
  cases effect.outcome with
  | ok => simp
  | error reason =>
    cases reason with
    | problem => simp
    | malformedLiteral => simp

/-- The guard against circles loses nothing. A visit that is made alone ends with an error in the
log or stops the scan just if something is wrong with a task that can be reached from its node, and
otherwise it finds just the paths that these tasks register. -/
theorem visit_errs_iff_reachable_fault (context : ScanContext) (tree : SyntaxTree) (node : Node) :
    (((visitAlone context tree node).errors ≠ [] ∨ ¬ VisitReturns context tree node) ↔
      ∃ task, (ScanTask.classification node).Reachable context tree.bindings task ∧
        task.fault? context tree.bindings ≠ none) ∧
    ((visitAlone context tree node).errors = [] → VisitReturns context tree node →
      ∀ path, path ∈ (visitAlone context tree node).found ↔
        ∃ task, (ScanTask.classification node).Reachable context tree.bindings task ∧
          task.registered? context = some path) := by
  obtain ⟨effect, has, covers⟩ := visitTrace_explores context tree node
  simp only [← ScanTask.mem_reach_nil_iff]
  refine ⟨?_, ?_⟩
  · rw [← not_and_or, not_iff_comm, has.ok_iff]
    constructor
    · intro sound
      cases ended : effect.outcome with
      | ok => rfl
      | error reason =>
        obtain ⟨task, reached, fault⟩ := covers.faulty reason ended
        exact (sound ⟨task, reached, by simp [fault]⟩).elim
    · rintro ended ⟨task, reached, fault⟩
      exact fault (covers.exhaustive () ended task reached).1
  · intro clean returns path
    have ended := has.ok_iff.mp ⟨clean, returns⟩
    rw [has.mem_found_visitAlone]
    constructor
    · rintro ⟨entry, member, rfl⟩
      exact covers.registered entry member
    · rintro ⟨task, reached, registers⟩
      obtain ⟨entry, member, same⟩ :=
        (covers.exhaustive () ended task reached).2 path registers
      exact ⟨entry, member, same.symm⟩

/-- On a line of its own, a variable whose value opens a file and calls another variable. -/
def callingSpec (line : Nat) (name file other : String) : Declaration :=
  .valueSpec ⟨"var_spec", line, 5⟩ [.ident ⟨"identifier", line, 5⟩ name (100 * line + 4)] none
    [.call ⟨"call_expression", line, 9⟩ (.ident ⟨"identifier", line, 9⟩ "wrap" (100 * line + 8))
      [memberCall line "Open" [.literal ⟨"interpreted_string_literal", line, 25⟩ file],
        .call ⟨"call_expression", line, 31⟩
          (.ident ⟨"identifier", line, 31⟩ other (100 * line + 30)) []]] false

/-- Two variables whose values call each other. -/
def callingEachOther : SyntaxTree where
  path := "main.go"
  root := .generic ⟨"source_file", 1, 1⟩
    [(callingSpec 1 "a" "\"/a\"" "b").node, (callingSpec 2 "b" "\"/b\"" "a").node]
  package := none
  bindings :=
    let first := .declaration [0] (callingSpec 1 "a" "\"/a\"" "b")
    let second := .declaration [1] (callingSpec 2 "b" "\"/b\"" "a")
    (((BindingTable.empty.insert 104 first).insert 130 second).insert 204 second).insert 230 first

theorem visit_errs_iff_reachable_fault_circle :
    let context : ScanContext := { file := "main.go", package := "app" }
    let start := ScanTask.classification (callingSpec 1 "a" "\"/a\"" "b").node
    (∀ task, start.Reachable context callingEachOther.bindings task →
      task.fault? context callingEachOther.bindings = none) ∧
    ∀ path, path ∈ [(⟨"app", "/a"⟩ : AssetPath), ⟨"app", "/b"⟩] ↔
      ∃ task, start.Reachable context callingEachOther.bindings task ∧
        task.registered? context = some path := by
  intro context start
  obtain ⟨errs, finds⟩ := visit_errs_iff_reachable_fault context callingEachOther
    (callingSpec 1 "a" "\"/a\"" "b").node
  have clean : (visitAlone context callingEachOther (callingSpec 1 "a" "\"/a\"" "b").node).errors =
      [] := by decide +kernel
  have found : (visitAlone context callingEachOther (callingSpec 1 "a" "\"/a\"" "b").node).found =
      [⟨"app", "/a"⟩, ⟨"app", "/b"⟩] := by decide +kernel
  have returns : VisitReturns context callingEachOther (callingSpec 1 "a" "\"/a\"" "b").node := by
    unfold VisitReturns
    decide +kernel
  refine ⟨?_, found ▸ finds clean returns⟩
  intro task reached
  by_contra fault
  rcases errs.mpr ⟨task, reached, fault⟩ with logged | stopped
  · exact logged clean
  · exact stopped returns

end AssetRefs
