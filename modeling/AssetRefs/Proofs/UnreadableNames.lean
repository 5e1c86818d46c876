import AssetRefs.Proofs.CallSites
import AssetRefs.Proofs.Exploration
import AssetRefs.Proofs.SessionState

/-! # Names without a readable value

A call of `Open` may be told a variable or a constant whose value is not a single literal. That is a
problem of the call, but it is put off until the declaration of the name has been resolved again.
If something is wrong there, then the call is reported for that reason and for no other: the problem
that was put off is lost.
-/

namespace AssetRefs

theorem onlyLiteral?_eq_none {nodes : List Node}
    (several : ∀ site text, nodes ≠ [.literal site text]) : onlyLiteral? nodes = none := by
  rw [Option.eq_none_iff_forall_ne_some]
  intro text only
  obtain ⟨site, same⟩ := onlyLiteral?_eq_some_iff.mp only
  exact several site text same

/-- A call of `Open` that is told the name at an offset, a variable that was not defined by a single
literal or a constant that was not declared with one, together with the error that says so at the
place of the name. No argument of the call is a call or a composite literal. -/
inductive UnreadableCall (context : ScanContext) (table : BindingTable) :
    (call : Node) → (offset : Nat) → (error : ScanError) → Prop where
  | defined {site place spot inner left : Site} {space offset : Nat} {name : String}
      {rest names right : List Node} {at' : Address} :
      (∀ argument ∈ Node.ident inner name offset :: rest,
        argument.isCall = false ∧ argument.isComposite = false) →
      table.find? offset = some (.declaration at' (.assignment left names right true)) →
      (∀ literal text, right ≠ [.literal literal text]) →
      UnreadableCall context table
        (.call site (.selector place (.ident spot context.spaceName space) "Open")
          (.ident inner name offset :: rest)) offset
        ⟨"unable to find value from variable " ++ name, context.file, inner.line, inner.column⟩
  | declared {site place spot inner left : Site} {space offset : Nat} {name : String}
      {rest names values : List Node} {type : Option Node} {at' : Address} :
      (∀ argument ∈ Node.ident inner name offset :: rest,
        argument.isCall = false ∧ argument.isComposite = false) →
      table.find? offset = some (.declaration at' (.valueSpec left names type values true)) →
      (∀ literal text, values ≠ [.literal literal text]) →
      UnreadableCall context table
        (.call site (.selector place (.ident spot context.spaceName space) "Open")
          (.ident inner name offset :: rest)) offset
        ⟨"unable to find value from constant " ++ name, context.file, inner.line, inner.column⟩

namespace UnreadableCall

variable {context : ScanContext} {tree : SyntaxTree} {call : Node} {offset : Nat}
  {error : ScanError}

theorem exists_eq_call (unreadable : UnreadableCall context tree.bindings call offset error) :
    ∃ site place spot space inner name rest,
      call = .call site (.selector place (.ident spot context.spaceName space) "Open")
        (.ident inner name offset :: rest) ∧
      (∀ argument ∈ Node.ident inner name offset :: rest,
        argument.isCall = false ∧ argument.isComposite = false) ∧
      valueOf? context (tree.bindings.find? offset) inner name =
        some (.error (.problem error)) := by
  cases unreadable with
  | defined plain found several =>
    refine ⟨_, _, _, _, _, _, _, rfl, plain, ?_⟩
    simp only [valueOf?, found, onlyLiteral?_eq_none several]
    rfl
  | declared plain found several =>
    refine ⟨_, _, _, _, _, _, _, rfl, plain, ?_⟩
    simp only [valueOf?, found, onlyLiteral?_eq_none several]
    rfl

/-- A visit to such a call follows the name and then stops, unless it stopped before. -/
theorem visitTrace_eq (unreadable : UnreadableCall context tree.bindings call offset error) :
    visitTrace context tree call =
      (followFresh context tree.bindings offset).andThen fun _ => .halt (.problem error) := by
  obtain ⟨site, place, spot, space, inner, name, rest, rfl, plain, value⟩ :=
    unreadable.exists_eq_call
  rw [visitTrace, classify, resolveDirect_plain plain, memberOf?_open, recognize_open,
    if_neg (by simp [Node.isCall])]
  simp only [openArgument, value]

/-- The one error of a visit to such a call: nothing is wrong with what is resolved again, and it is
the error about the name, or something is wrong there, and that is the error. -/
theorem exists_errors_visitAlone
    (unreadable : UnreadableCall context tree.bindings call offset error)
    (returns : VisitReturns context tree call) :
    ∃ reported, (visitAlone context tree call).errors = [reported] ∧
      (reported = error ∧ (∀ task, (ScanTask.declaration offset).Reachable context tree.bindings
          task → task.fault? context tree.bindings = none) ∨
        ∃ task, (ScanTask.declaration offset).Reachable context tree.bindings task ∧
          task.fault? context tree.bindings = some (.problem reported)) := by
  obtain ⟨⟨found, outcome⟩, has, covers⟩ := followFresh_explores context tree.bindings offset
  simp only [← ScanTask.mem_reach_nil_iff]
  cases outcome with
  | ok value =>
    have visited : (visitTrace context tree call).Has [] ⟨found, .error (.problem error)⟩ := by
      rw [unreadable.visitTrace_eq]
      exact has.andThen_halt
    refine ⟨error, by rw [visited.errors_visitAlone]; rfl, .inl ⟨rfl, fun task reached => ?_⟩⟩
    exact (covers.exhaustive value rfl task reached).1
  | error reason =>
    have visited : (visitTrace context tree call).Has [] ⟨found, .error reason⟩ := by
      rw [unreadable.visitTrace_eq]
      exact has.andThen_error
    cases reason with
    | problem reported =>
      exact ⟨reported, by rw [visited.errors_visitAlone]; rfl, .inr (covers.faulty _ rfl)⟩
    | malformedLiteral => exact (visited.visitReturns_iff.mp returns rfl).elim

end UnreadableCall

/-- Nothing is wrong with what can be reached from a declaration that is followed to its end. -/
theorem fault?_eq_none_of_followFresh {context : ScanContext} {table : BindingTable} {offset : Nat}
    (ended : ((followFresh context table offset).run {}).2 = .ok ()) (task : ScanTask)
    (reached : (ScanTask.declaration offset).Reachable context table task) :
    task.fault? context table = none := by
  obtain ⟨effect, has, covers⟩ := followFresh_explores context table offset
  rw [has {} rfl] at ended
  exact (covers.exhaustive () ended task (ScanTask.mem_reach_nil_iff.mpr reached)).1

/-- A completed run reports every call of `Open` whose first argument is a name without a readable
value. It has the error about the name if nothing is wrong with what is resolved again when the name
is followed, whatever paths that finds. If something is wrong there, then the visit to the call
reports only that. -/
theorem unreadable_names_are_reported_unless_hidden {context : ScanContext} {tree : SyntaxTree}
    {result : ScanResult} (completed : scanTree context tree = .ok result) {call : Node}
    {offset : Nat} {error : ScanError} (contained : tree.root.Contains call)
    (unreadable : UnreadableCall context tree.bindings call offset error) :
    ((∀ task, (ScanTask.declaration offset).Reachable context tree.bindings task →
      task.fault? context tree.bindings = none) → error ∈ result.errors) ∧
    ∀ task, (ScanTask.declaration offset).Reachable context tree.bindings task →
      task.fault? context tree.bindings ≠ none →
        ∃ reported ∈ result.errors, (visitAlone context tree call).errors = [reported] ∧
          ∃ cause, (ScanTask.declaration offset).Reachable context tree.bindings cause ∧
            cause.fault? context tree.bindings = some (.problem reported) := by
  have walked : call ∈ tree.root.walk := Node.mem_walk_iff.mpr contained
  have returns := (scanTree_collects completed).1 call walked
  obtain ⟨reported, visited, explained⟩ := unreadable.exists_errors_visitAlone returns
  have logged : reported ∈ result.errors :=
    (mem_errors_iff completed).mpr ⟨call, walked, visited ▸ List.mem_singleton_self _⟩
  constructor
  · intro sound
    rcases explained with ⟨rfl, _⟩ | ⟨cause, reached, fault⟩
    · exact logged
    · rw [sound cause reached] at fault
      cases fault
  · intro task reached faulty
    rcases explained with ⟨_, sound⟩ | cause
    · exact (faulty (sound task reached)).elim
    · exact ⟨reported, logged, visited, cause⟩

/-- The call `pkger.Open(f)` of the file. -/
theorem unreadableCall_definingFile (member : String) :
    UnreadableCall { file := "main.go", package := "app" } (definingFile member).bindings
      (memberCall 2 "Open" [openedName]) 211
      ⟨"unable to find value from variable f", "main.go", 2, 12⟩ := by
  refine .defined (by simp [Node.isCall, Node.isComposite]) rfl ?_
  rintro literal text ⟨⟩

theorem unreadable_names_are_reported_unless_hidden_opened :
    let context : ScanContext := { file := "main.go", package := "app" }
    let unreadable : ScanError := ⟨"unable to find value from variable f", "main.go", 2, 12⟩
    let arity : ScanError := ⟨Problem.walkArity.message, "main.go", 1, 1⟩
    (∃ result, scanTree context (definingFile "Open") = .ok result ∧
      result.paths = [⟨"app", "/x"⟩] ∧ unreadable ∈ result.errors) ∧
    ∃ reported ∈ [arity], (visitAlone context (definingFile "Walk")
      (memberCall 2 "Open" [openedName])).errors = [reported] := by
  intro context unreadable arity
  have contained (member : String) :
      (definingFile member).root.Contains (memberCall 2 "Open" [openedName]) :=
    .child .self (.tail _ (.head _))
  constructor
  · have completed : scanTree context (definingFile "Open") =
        .ok ⟨"main.go", "app", [⟨"app", "/x"⟩], [unreadable]⟩ := by decide +kernel
    have reported := (unreadable_names_are_reported_unless_hidden completed (contained "Open")
      (unreadableCall_definingFile "Open")).1
    exact ⟨_, completed, rfl, reported (fault?_eq_none_of_followFresh (by decide +kernel))⟩
  · have completed : scanTree context (definingFile "Walk") =
        .ok ⟨"main.go", "app", [], [arity]⟩ := by decide +kernel
    -- The definition comes down to the call of `Walk` in three steps.
    have reached : (ScanTask.declaration 211).Reachable context (definingFile "Walk").bindings
        (.recognition ⟨"call_expression", 1, 1⟩
          [.literal ⟨"interpreted_string_literal", 1, 12⟩ "\"/x\""]
          (.selector ⟨"selector_expression", 1, 1⟩ (.ident ⟨"identifier", 1, 1⟩ "pkger" 100)
            "Walk")) :=
      .tail (.tail (.tail .refl (.head _)) (.head _)) (.head _)
    have hidden := (unreadable_names_are_reported_unless_hidden completed (contained "Walk")
      (unreadableCall_definingFile "Walk")).2
    obtain ⟨reported, logged, visited, _⟩ := hidden _ reached (by decide +kernel)
    exact ⟨reported, logged, visited⟩

theorem following_hides_unreadable_names :
    ¬ ∀ (context : ScanContext) (tree : SyntaxTree) (result : ScanResult) (call : Node)
      (offset : Nat) (error : ScanError), scanTree context tree = .ok result →
      tree.root.Contains call → UnreadableCall context tree.bindings call offset error →
        error ∈ result.errors := by
  intro reports
  have completed : scanTree { file := "main.go", package := "app" } (definingFile "Walk") =
      .ok ⟨"main.go", "app", [], [⟨Problem.walkArity.message, "main.go", 1, 1⟩]⟩ := by
    decide +kernel
  have reported := reports _ _ _ _ _ _ completed (.child .self (.tail _ (.head _)))
    (unreadableCall_definingFile "Walk")
  revert reported
  decide +kernel

end AssetRefs
