import AssetRefs.Proofs.Provenance
import AssetRefs.Proofs.TaskSequences

/-! # Statements beside the problems of others

A problem at one statement ends the visit to its function, so the statements after it are left to
the visits of their parts. For an expression that is enough: a visit to it does what the statement
does. What is assigned is resolved in the nested way. Each step of that is a visit to some node,
except that a call site is looked at with its own member, while a visit to the call lets a call
among its arguments borrow the member.
-/

namespace AssetRefs

/-! ## Statements alone and in a run -/

/-- What resolving a statement of a function does. -/
def statementTrace (context : ScanContext) (tree : SyntaxTree) (node : Node) : Trace Unit :=
  resolveStatement context tree.bindings (followFresh context tree.bindings) node

/-- The session after a statement is resolved alone. -/
def statementAlone (context : ScanContext) (tree : SyntaxTree) (node : Node) : Session :=
  (({} : Session).take (statementTrace context tree node)).1

/-- A visit to some node of the tree finds the path. -/
def Visited (context : ScanContext) (tree : SyntaxTree) (path : AssetPath) : Prop :=
  ∃ node, tree.root.Contains node ∧ (visitTrace context tree node).Finds [] path

section

variable {context : ScanContext} {tree : SyntaxTree} {path : AssetPath}

theorem Visited.mem_paths {result : ScanResult} (completed : scanTree context tree = .ok result)
    (visited : Visited context tree path) : path ∈ result.paths := by
  obtain ⟨node, contained, found⟩ := visited
  obtain ⟨effect, has⟩ := (Trace.tame_closed context).visitTrace tree node []
  refine (mem_paths_iff completed).mpr ⟨node, Node.mem_walk_iff.mpr contained, ?_⟩
  rw [has.mem_found_visitAlone]
  exact has.finds_iff.mp found

theorem followFresh_tame (context : ScanContext) (table : BindingTable) (offset : Nat) :
    (followFresh context table offset).Tame :=
  (Trace.tame_closed context).followName _ offset

/-- A visit to a call does what direct resolution does. -/
theorem visited_of_direct (node : Node) (contained : tree.root.Contains node)
    (found : (resolveDirect context tree.bindings (followFresh context tree.bindings) node).Finds []
      path) : Visited context tree path := by
  cases node with
  | call site callee arguments => exact ⟨.call site callee arguments, contained, found⟩
  | keyed site key value =>
    exact visited_of_direct value (contained.child (by simp [Node.children])) found
  | _ => exact (Trace.not_finds_done _ found).elim
termination_by structural node

/-- A visit to a name follows it. -/
theorem visited_of_follow {site : Site} {name : String} {offset : Nat}
    (contained : tree.root.Contains (.ident site name offset))
    (found : (followFresh context tree.bindings offset).Finds [] path) :
    Visited context tree path :=
  ⟨_, contained, found⟩

/-- A step of a nested resolution: direct resolution of a node of the tree, following a name of the
tree, or looking at a call of the tree with its own member. -/
def ScanTask.StepIn (root : Node) : ScanTask → Prop
  | .direct node => root.Contains node
  | .declaration offset => ∃ site name, root.Contains (.ident site name offset)
  | .recognition site arguments callee => root.Contains (.call site callee arguments)
  | _ => False

mutual

theorem stepIn_of_mem_nestedSteps {root : Node} {task : ScanTask} : (node : Node) →
    root.Contains node → task ∈ ScanTask.nestedSteps node → task.StepIn root
  | .composite site type elements => fun contained member => by
    obtain ⟨element, inside, rfl⟩ := List.mem_map.mp member
    exact contained.child (by simp [Node.children, inside])
  | .call site callee arguments => fun contained member => by
    rcases List.mem_append.mp member with member | member
    · cases callee with
      | selector place operand name =>
        rw [List.mem_singleton.mp member]
        exact contained
      | ident place name offset =>
        rw [List.mem_singleton.mp member]
        exact ⟨place, name, contained.child (by simp [Node.children])⟩
      | _ => cases member
    · refine stepIn_of_mem_allNestedSteps arguments (fun argument inside => ?_) member
      exact contained.child (List.mem_cons_of_mem _ inside)
  | .generic .. | .ident .. | .literal .. | .selector .. | .keyed .. | .assignment ..
  | .valueSpec .. | .group .. | .function .. | .statement .. => fun _ member => by cases member
termination_by structural node => node

theorem stepIn_of_mem_allNestedSteps {root : Node} {task : ScanTask} : (nodes : List Node) →
    (∀ node ∈ nodes, root.Contains node) → task ∈ ScanTask.allNestedSteps nodes → task.StepIn root
  | [] => fun _ member => by cases member
  | node :: rest => fun contained member => by
    obtain ⟨here, later⟩ := List.forall_mem_cons.mp contained
    rcases List.mem_append.mp member with member | member
    · exact stepIn_of_mem_nestedSteps node here member
    · exact stepIn_of_mem_allNestedSteps rest later member
termination_by structural nodes => nodes

end

theorem ScanTask.mem_ofOpened {table : BindingTable} {first : Node} {task : ScanTask}
    (starts : task ∈ ofOpened context table first) :
    (∃ raw spot, task = registration raw spot) ∨
      (∃ site name offset, first = .ident site name offset ∧ task = declaration offset) ∨
      task = direct first := by
  cases first with
  | ident site name offset =>
    simp only [ofOpened] at starts
    split at starts
    · next raw _ =>
      rcases List.mem_cons.mp starts with rfl | starts
      · exact .inl ⟨raw, site, rfl⟩
      · exact .inr (.inl ⟨site, name, offset, rfl, List.mem_singleton.mp starts⟩)
    · exact .inr (.inl ⟨site, name, offset, rfl, List.mem_singleton.mp starts⟩)
  | literal site text => exact .inl ⟨text, site, List.mem_singleton.mp starts⟩
  | call site callee arguments => exact .inr (.inr (List.mem_singleton.mp starts))
  | _ => cases starts

/-- What a step finds is found by a visit to some node, except a path that a call site itself
registers. -/
theorem visited_or_registered {task : ScanTask} (inside : task.StepIn tree.root)
    (found : (task.perform context tree.bindings
      (followFresh context tree.bindings)).Finds [] path) :
    Visited context tree path ∨
      ∃ site arguments callee raw spot, task = .recognition site arguments callee ∧
        tree.root.Contains (.call site callee arguments) ∧
        .registration raw spot ∈ task.next context tree.bindings ∧
        context.pathOf raw = .ok path := by
  cases task with
  | direct node => exact .inl (visited_of_direct node inside found)
  | declaration offset =>
    obtain ⟨site, name, contained⟩ := inside
    exact .inl (visited_of_follow contained found)
  | recognition site arguments callee =>
    obtain ⟨task, starts, found⟩ := ScanTask.exists_of_finds_recognition
      (followFresh_tame context tree.bindings) found
    obtain ⟨first, rest, rfl, opened⟩ : ∃ first rest, arguments = first :: rest ∧
        task ∈ ScanTask.ofOpened context tree.bindings first := by
      simp only [ScanTask.next] at starts
      split at starts
      · exact ⟨_, _, rfl, ScanTask.ofWalked_subset_ofOpened _ starts⟩
      · exact ⟨_, _, rfl, starts⟩
      · cases starts
    have contained : tree.root.Contains first := inside.child (by simp [Node.children])
    rcases ScanTask.mem_ofOpened opened with ⟨raw, spot, rfl⟩ | ⟨spot, name, offset, rfl, rfl⟩ | rfl
    · exact .inr ⟨site, _, callee, raw, spot, rfl, inside, starts,
        ScanTask.finds_registration_iff.mp found⟩
    · exact .inl (visited_of_follow contained found)
    · exact .inl (visited_of_direct first contained found)
  | _ => cases inside

/-- A call site at which nothing is lost if only its nodes are visited: its first argument is a
call, or none of its arguments is one and they are resolved without a problem. -/
def SelfSufficient (context : ScanContext) (tree : SyntaxTree) (callee : Node)
    (arguments : List Node) : Prop :=
  (∃ first rest, arguments = first :: rest ∧ first.isCall) ∨
    (∀ argument ∈ arguments, argument.isCall = false) ∧
      (resolveArguments context tree.bindings (followFresh context tree.bindings) callee
        arguments).Completes []

theorem visited_of_selfSufficient {site spot : Site} {callee : Node} {arguments : List Node}
    {raw : String} (contained : tree.root.Contains (.call site callee arguments))
    (starts : .registration raw spot ∈
      (ScanTask.recognition site arguments callee).next context tree.bindings)
    (denoted : context.pathOf raw = .ok path)
    (sufficient : SelfSufficient context tree callee arguments) : Visited context tree path := by
  have tame := followFresh_tame context tree.bindings
  rcases sufficient with ⟨first, rest, rfl, isCall⟩ | ⟨noCall, completes⟩
  · -- The only task is the direct resolution of the call, so nothing is registered.
    simp only [ScanTask.next] at starts
    cases first with
    | call =>
      split at starts
      · next selected _ same =>
        cases same
        cases List.mem_singleton.mp starts
      · next selected same =>
        cases same
        cases List.mem_singleton.mp starts
      · cases starts
    | _ => cases isCall
  · refine visited_of_direct _ contained ?_
    obtain ⟨⟨entries, outcome⟩, has⟩ :=
      (Trace.tame_closed context).resolveArguments tame callee arguments []
    obtain ⟨later, hasLater⟩ :=
      (Trace.tame_closed context).recognize tame (memberOf? context callee) site arguments []
    obtain ⟨borrowed, rfl⟩ := has.completes_iff.mp completes
    have unborrowed : borrowed = false := by
      have yields := resolveArguments_yields callee arguments {} borrowed (by rw [has _ rfl])
      have none : arguments.any Node.isCall = false :=
        List.any_eq_false.mpr fun argument member => by simp [noCall argument member]
      rw [yields, none, Bool.and_false]
    subst unborrowed
    have found : (ScanTask.perform context tree.bindings (followFresh context tree.bindings)
        (.recognition site arguments callee)).Finds [] path :=
      ScanTask.finds_recognition_of_registration tame starts denoted
    obtain ⟨entry, member, same⟩ := hasLater.finds_iff.mp found
    unfold resolveDirect
    exact (has.andThen_ok hasLater).finds_iff.mpr ⟨entry, List.mem_append_right _ member, same⟩

/-- How a run is sure to see what a statement does, though other statements may have problems. The
statement is no assignment, or those before it in the body have no problem, or a name on its left
refers to it, or its call sites lose nothing if only their nodes are visited. -/
inductive Secured (context : ScanContext) (tree : SyntaxTree) (before : List Node) :
    Node → Prop where
  | other {node : Node} : (∀ site left right defines, node ≠ .assignment site left right defines) →
      Secured context tree before node
  | reached {node : Node} :
      (∀ earlier ∈ before, (statementTrace context tree earlier).Completes []) →
      Secured context tree before node
  | named {site spot : Site} {left right : List Node} {defines : Bool} {name : String}
      {offset : Nat} {place : Address} : .ident spot name offset ∈ left →
      tree.bindings.find? offset =
        some (.declaration place (.assignment site left right defines)) →
      Secured context tree before (.assignment site left right defines)
  | sufficient {site : Site} {left right : List Node} {defines : Bool} :
      (∀ spot arguments callee,
        .recognition spot arguments callee ∈ ScanTask.allNestedSteps right →
          SelfSufficient context tree callee arguments) →
      Secured context tree before (.assignment site left right defines)

/-- A statement that is no assignment is an expression, if it finds anything. -/
theorem visited_of_other {node : Node} (contained : tree.root.Contains node)
    (other : ∀ site left right defines, node ≠ .assignment site left right defines)
    (found : (statementTrace context tree node).Finds [] path) : Visited context tree path := by
  cases node with
  | statement site expression =>
    exact visited_of_direct expression (contained.child (by simp [Node.children])) found
  | assignment => exact (other _ _ _ _ rfl).elim
  | _ => exact (Trace.not_finds_done _ found).elim

/-- The visit to a function comes to a statement if those before it have no problem. -/
theorem visited_of_reached {site : Site} {name : String} {signature before after : List Node}
    {node : Node}
    (contained : tree.root.Contains
      (.function site name signature (some (before ++ node :: after))))
    (earlier : ∀ statement ∈ before, (statementTrace context tree statement).Completes [])
    (found : (statementTrace context tree node).Finds [] path) : Visited context tree path := by
  refine ⟨_, contained, ?_⟩
  rw [visitTrace, classify, ScanTask.resolveStatements_eq_performAll,
    ScanTask.finds_performAll_iff (followFresh_tame context tree.bindings)]
  refine ⟨before.map .statement, .statement node, after.map .statement, by simp, ?_, found⟩
  intro task member
  obtain ⟨statement, inside, rfl⟩ := List.mem_map.mp member
  exact earlier statement inside

section

variable {site : Site} {left right : List Node} {defines : Bool}

theorem finds_assignment_iff :
    (statementTrace context tree (.assignment site left right defines)).Finds [] path ↔
      ∃ before task after, ScanTask.allNestedSteps right = before ++ task :: after ∧
        (∀ earlier ∈ before, (earlier.perform context tree.bindings
          (followFresh context tree.bindings)).Completes []) ∧
        (task.perform context tree.bindings (followFresh context tree.bindings)).Finds [] path := by
  rw [statementTrace, resolveStatement, ScanTask.resolveAllNested_eq_performAll,
    ScanTask.finds_performAll_iff (followFresh_tame context tree.bindings)]

/-- Of the steps of a statement that complete, each completes too while the declarations at a place
count as being followed. -/
theorem completes_following {offset : Nat} {place : Address} {target : Declaration}
    (bound : tree.bindings.find? offset = some (.declaration place target)) {task : ScanTask}
    (completes : (task.perform context tree.bindings
      (followFresh context tree.bindings)).Completes []) :
    (task.perform context tree.bindings
      (followName context tree.bindings tree.bindings.size)).Completes [place] := by
  have whole := tree.bindings.remaining_le []
  have smaller := BindingTable.remaining_cons_lt bound (List.not_mem_nil : place ∉ [])
  have fresh : Follows context tree.bindings [] (followFresh context tree.bindings) :=
    followName_explores _ (by omega)
  have inner : Follows context tree.bindings [place]
      (followName context tree.bindings tree.bindings.size) := followName_explores _ (by omega)
  exact ScanTask.completes_of_explores (task.perform_explores fresh) (task.perform_explores inner)
    (fun other reached => ScanTask.reach_mono reached) completes

theorem visited_of_named {spot : Site} {name : String} {offset : Nat} {place : Address}
    (contained : tree.root.Contains (.assignment site left right defines))
    (member : .ident spot name offset ∈ left)
    (bound : tree.bindings.find? offset =
      some (.declaration place (.assignment site left right defines)))
    (found : (statementTrace context tree (.assignment site left right defines)).Finds [] path) :
    Visited context tree path := by
  obtain ⟨before, task, after, split, earlier, found⟩ := finds_assignment_iff.mp found
  have inside : task.StepIn tree.root := by
    refine stepIn_of_mem_allNestedSteps right (fun node inside => ?_) (by simp [split])
    exact contained.child (List.mem_append_right _ inside)
  rcases visited_or_registered inside found with visited |
    ⟨_, _, _, raw, _, rfl, _, starts, denoted⟩
  · exact visited
  · -- A visit to the name goes through the steps once more and comes to the call site too.
    refine ⟨_, contained.child (List.mem_append_left _ member), ?_⟩
    have tame (offset : Nat) :
        (followName context tree.bindings tree.bindings.size offset).Tame :=
      (Trace.tame_closed context).followName _ offset
    have again : (resolveDeclaration context tree.bindings
        (followName context tree.bindings tree.bindings.size)
        (.assignment site left right defines)).Finds [place] path := by
      rw [resolveDeclaration, ScanTask.resolveAllNested_eq_performAll,
        ScanTask.finds_performAll_iff tame]
      refine ⟨before, _, after, split, fun task member => ?_,
        ScanTask.finds_recognition_of_registration tame starts denoted⟩
      exact completes_following bound (earlier task member)
    obtain ⟨effect, has⟩ := (Trace.tame_closed context).resolveDeclaration tame
      (.assignment site left right defines) [place]
    have follows := Trace.Has.following_of_not_mem List.not_mem_nil has
    simp only [visitTrace, classify, followFresh, followName, bound]
    exact follows.finds_iff.mpr (has.finds_iff.mp again)

theorem visited_of_sufficient (contained : tree.root.Contains (.assignment site left right defines))
    (sufficient : ∀ spot arguments callee,
      .recognition spot arguments callee ∈ ScanTask.allNestedSteps right →
        SelfSufficient context tree callee arguments)
    (found : (statementTrace context tree (.assignment site left right defines)).Finds [] path) :
    Visited context tree path := by
  obtain ⟨before, task, after, split, _, found⟩ := finds_assignment_iff.mp found
  have member : task ∈ ScanTask.allNestedSteps right := by simp [split]
  have inside : task.StepIn tree.root :=
    stepIn_of_mem_allNestedSteps right
      (fun node inside => contained.child (List.mem_append_right _ inside)) member
  rcases visited_or_registered inside found with visited |
    ⟨spot, arguments, callee, raw, _, rfl, call, starts, denoted⟩
  · exact visited
  · exact visited_of_selfSufficient call starts denoted (sufficient spot arguments callee member)

end

end

/-- A secured statement keeps its paths. Each path that it finds when it is resolved alone is among
those of a completed run, whatever problems the other statements of the body have. -/
theorem secured_statements_keep_their_paths {context : ScanContext} {tree : SyntaxTree}
    {result : ScanResult} (completed : scanTree context tree = .ok result) {site : Site}
    {name : String} {signature before after : List Node} {node : Node}
    (contained :
      tree.root.Contains (.function site name signature (some (before ++ node :: after))))
    (secured : Secured context tree before node) :
    ∀ path ∈ (statementAlone context tree node).found, path ∈ result.paths := by
  intro path found
  have inside : tree.root.Contains node := contained.child (by simp [Node.children])
  have visited : Visited context tree path := by
    cases secured with
    | other others => exact visited_of_other inside others found
    | reached earlier => exact visited_of_reached contained earlier found
    | named member bound => exact visited_of_named inside member bound found
    | sufficient sufficient => exact visited_of_sufficient inside sufficient found
  exact visited.mem_paths completed

/-- The statement `f = pkger.Open("/a", mode())`, or the definition of `f` by that call. -/
def openedWithMode (defines : Bool) : Declaration :=
  .assignment ⟨"assignment_statement", 5, 1⟩ [.ident ⟨"identifier", 5, 1⟩ "f" 500]
    [memberCall 5 "Open" [.literal ⟨"interpreted_string_literal", 5, 12⟩ "\"/a\"",
      .call ⟨"call_expression", 5, 18⟩ (.ident ⟨"identifier", 5, 18⟩ "mode" 517) []]] defines

/-- The statement `pkger.Walk("/x")`, which has a problem. -/
def walkedAlone : Node :=
  .statement ⟨"expression_statement", 4, 1⟩
    (memberCall 4 "Walk" [.literal ⟨"interpreted_string_literal", 4, 12⟩ "\"/x\""])

/-- A function with a problem at its first statement, which opens a file in its second one. -/
def openedAfterProblem (defines : Bool) (bindings : BindingTable) : SyntaxTree where
  path := "main.go"
  root := .generic ⟨"source_file", 1, 1⟩
    [.function ⟨"function_declaration", 3, 1⟩ "main" []
      (some ([walkedAlone] ++ (openedWithMode defines).node :: []))]
  package := none
  bindings

theorem secured_statements_keep_their_paths_defined :
    ∃ result,
      scanTree { file := "main.go", package := "app" } (openedAfterProblem true
        (BindingTable.empty.insert 500 (.declaration [1, 0] (openedWithMode true)))) = .ok result ∧
      result.errors = [⟨Problem.walkArity.message, "main.go", 4, 1⟩] ∧
      ⟨"app", "/a"⟩ ∈ result.paths := by
  let context : ScanContext := { file := "main.go", package := "app" }
  let tree := openedAfterProblem true
    (BindingTable.empty.insert 500 (.declaration [1, 0] (openedWithMode true)))
  have completed : scanTree context tree = .ok ⟨"main.go", "app", [⟨"app", "/a"⟩],
      [⟨Problem.walkArity.message, "main.go", 4, 1⟩]⟩ := by decide +kernel
  have found : ⟨"app", "/a"⟩ ∈ (statementAlone context tree (openedWithMode true).node).found := by
    decide +kernel
  refine ⟨_, completed, rfl, ?_⟩
  exact secured_statements_keep_their_paths completed (.child .self (.head _))
    (.named (.head _) rfl) _ found

/-- Not every statement keeps its paths: a problem at one statement can hide a path that an
assignment after it opens. -/
theorem problems_hide_assigned_paths :
    ¬ ∀ (context : ScanContext) (tree : SyntaxTree) (result : ScanResult) (site : Site)
      (name : String) (signature body : List Node) (node : Node),
      scanTree context tree = .ok result →
      tree.root.Contains (.function site name signature (some body)) → node ∈ body →
      ∀ path ∈ (statementAlone context tree node).found, path ∈ result.paths := by
  intro keeps
  let context : ScanContext := { file := "main.go", package := "app" }
  let tree := openedAfterProblem false .empty
  have completed : scanTree context tree =
      .ok ⟨"main.go", "app", [], [⟨Problem.walkArity.message, "main.go", 4, 1⟩]⟩ := by
    decide +kernel
  have found : ⟨"app", "/a"⟩ ∈ (statementAlone context tree (openedWithMode false).node).found := by
    decide +kernel
  have kept := keeps context tree _ _ _ _ _ _ completed (.child .self (.head _))
    (.tail _ (.head _)) _ found
  cases kept

end AssetRefs
