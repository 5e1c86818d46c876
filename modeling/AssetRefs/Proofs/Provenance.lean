import AssetRefs.Proofs.Containment
import AssetRefs.Proofs.Exploration

/-! # Provenance

A scan invents nothing. Every task that can be reached from a node of the tree is about nodes of the
tree: this is an invariant of starting tasks (`ScanTask.InTree.next`), so it holds of all tasks that
a visit explores. The paths and errors of a run come from such tasks.
-/

namespace AssetRefs

/-- The node stands where the literal of a path may stand: it is the first argument of a call, or
all that a variable is defined by, or all that a constant is declared with. -/
inductive PathPosition (root node : Node) : Prop where
  | argument {site : Site} {callee : Node} {rest : List Node} :
      root.Contains (.call site callee (node :: rest)) → PathPosition root node
  | defined {site : Site} {left : List Node} :
      root.Contains (.assignment site left [node] true) → PathPosition root node
  | declared {site : Site} {names : List Node} {type : Option Node} :
      root.Contains (.valueSpec site names type [node] true) → PathPosition root node

theorem PathPosition.contains {root node : Node} (position : PathPosition root node) :
    root.Contains node := by
  cases position with
  | argument call => exact call.child (by simp [Node.children])
  | defined assignment => exact assignment.child (by simp [Node.children])
  | declared spec => exact spec.child (by simp [Node.children])

/-- The tree has a call of one of the two members that open files. -/
def HasCallSite (context : ScanContext) (root : Node) : Prop :=
  ∃ site place spot offset member arguments,
    root.Contains (.call site (.selector place (.ident spot context.spaceName offset) member)
      arguments) ∧ (member = "Open" ∨ member = "Walk")

/-- The declarations that names refer to are nodes of the tree. -/
def BindingTable.Within (table : BindingTable) (root : Node) : Prop :=
  ∀ ⦃offset : Nat⦄ ⦃place : Address⦄ ⦃target : Declaration⦄,
    table.find? offset = some (.declaration place target) → root.Contains target.node

/-- The declarations that the table stores are nodes of the tree. -/
def BindingTable.StoresIn (table : BindingTable) (root : Node) : Prop :=
  ∀ ⦃place : Address⦄ ⦃target : Declaration⦄,
    table.declarations[place]? = some target → root.Contains target.node

theorem BindingTable.storesIn_empty (root : Node) : BindingTable.empty.StoresIn root := by
  intro place target stored
  simp [BindingTable.empty] at stored

theorem BindingTable.StoresIn.insert {table : BindingTable} {root : Node}
    (stores : table.StoresIn root) (offset : Nat) (place : Address) {target : Declaration}
    (contained : root.Contains target.node) :
    (table.insert offset (.declaration place target)).StoresIn root := by
  intro other found stored
  rw [BindingTable.insert, Std.TreeMap.getElem?_insertIfNew] at stored
  split_ifs at stored
  · cases stored
    exact contained
  · exact stores stored

theorem BindingTable.StoresIn.within {table : BindingTable} {root : Node}
    (stores : table.StoresIn root) : table.Within root :=
  fun _ _ _ found => stores (BindingTable.references_of_find? found).2

namespace ScanTask

/-- The task is about nodes of the tree. What is recognized are the arguments of one call with the
member of the same or another call. A path is registered for a literal and for a node whose place is
reported, and only if there is a call site. -/
def InTree (context : ScanContext) (root : Node) : ScanTask → Prop
  | classification node | statement node | direct node | nested node => root.Contains node
  | declaration _ => True
  | recognition site arguments callee =>
    (∃ inner, root.Contains (.call site inner arguments)) ∧
      ∃ spot others, root.Contains (.call spot callee others)
  | registration text site =>
    (∃ spot, PathPosition root (.literal spot text)) ∧
      (∃ node, root.Contains node ∧ node.site = site) ∧ HasCallSite context root

variable {context : ScanContext} {table : BindingTable} {root : Node} {other : ScanTask}

theorem hasCallSite_of_memberOf? {callee : Node} {member : Member}
    (selected : memberOf? context callee = some member)
    (called : ∃ spot others, root.Contains (.call spot callee others)) :
    HasCallSite context root := by
  obtain ⟨place, spot, offset, name, rfl, named⟩ := memberOf?_eq_some selected
  obtain ⟨site, others, contained⟩ := called
  exact ⟨site, place, spot, offset, name, others, contained, named⟩

/-! ## What the tasks of the parts of a node are about -/

theorem inTree_ofArguments {callee : Node} {arguments : List Node}
    (called : ∃ spot others, root.Contains (.call spot callee others))
    (contained : ∀ argument ∈ arguments, root.Contains argument)
    (starts : other ∈ ofArguments callee arguments) : other.InTree context root := by
  induction arguments with
  | nil => cases starts
  | cons argument rest ih =>
    obtain ⟨here, later⟩ := List.forall_mem_cons.mp contained
    cases argument with
    | call site inner arguments =>
      simp only [ofArguments] at starts
      split_ifs at starts
      · -- The arguments are those of the inner call, the member is that of the outer one.
        rw [List.mem_singleton.mp starts]
        exact ⟨⟨inner, here⟩, called⟩
      · rcases List.mem_cons.mp starts with rfl | starts
        · exact here
        · exact ih later starts
    | composite site type elements =>
      rcases List.mem_append.mp starts with starts | starts
      · obtain ⟨element, member, rfl⟩ := List.mem_map.mp starts
        exact here.child (by simp [Node.children, member])
      · exact ih later starts
    | _ => exact ih later starts

theorem inTree_ofDeclaration {target : Declaration} (contained : root.Contains target.node)
    (starts : other ∈ ofDeclaration target) : other.InTree context root := by
  cases target with
  | assignment site left right defines =>
    rw [List.mem_singleton.mp starts]
    exact contained
  | valueSpec site names type values constant =>
    obtain ⟨value, member, rfl⟩ := List.mem_map.mp starts
    exact contained.child (by simp [Declaration.node, Node.children, member])

/-- A name that denotes a literal was given that literal in the tree. -/
theorem pathPosition_of_denotes (within : table.Within root) {site : Site} {name raw : String}
    {offset : Nat} (denotes : Denotes table (.ident site name offset) raw) :
    ∃ spot, PathPosition root (.literal spot raw) := by
  cases denotes with
  | defined found => exact ⟨_, .defined (within found)⟩
  | declared found => exact ⟨_, .declared (within found)⟩

/-- What `Walk` does with its first argument, `Open` does too. -/
theorem ofWalked_subset_ofOpened (first : Node) :
    ofWalked context table first ⊆ ofOpened context table first := by
  cases first with
  | ident site name offset =>
    simp only [ofWalked, ofOpened]
    cases valueOf? context (table.find? offset) site name with
    | none => simp
    | some value =>
      cases value with
      | error => simp
      | ok => simp
  | _ => exact List.Subset.refl _

theorem inTree_ofOpened (within : table.Within root) (sited : HasCallSite context root)
    {site : Site} {callee first : Node} {rest : List Node}
    (called : root.Contains (.call site callee (first :: rest)))
    (starts : other ∈ ofOpened context table first) : other.InTree context root := by
  have contained : root.Contains first := called.child (by simp [Node.children])
  cases first with
  | ident spot name offset =>
    simp only [ofOpened] at starts
    split at starts
    · next raw readable =>
      rcases List.mem_cons.mp starts with rfl | starts
      · have position := pathPosition_of_denotes within (valueOf?_eq_ok_iff.mp readable)
        exact ⟨position, ⟨_, contained, rfl⟩, sited⟩
      · rw [List.mem_singleton.mp starts]
        trivial
    · rw [List.mem_singleton.mp starts]
      trivial
  | literal spot text =>
    rw [List.mem_singleton.mp starts]
    exact ⟨⟨spot, .argument called⟩, ⟨_, contained, rfl⟩, sited⟩
  | call spot inner arguments =>
    rw [List.mem_singleton.mp starts]
    exact contained
  | _ => cases starts

/-! ## The invariant -/

theorem inTree_of_classification {node : Node} (contained : root.Contains node)
    (starts : other ∈ (classification node).next context table) : other.InTree context root := by
  cases node with
  | call site callee arguments =>
    rw [List.mem_singleton.mp starts]
    exact contained
  | ident site name offset =>
    rw [List.mem_singleton.mp starts]
    trivial
  | group site specs =>
    obtain ⟨spec, member, rfl⟩ := List.mem_map.mp starts
    exact contained.child member
  | function site name signature body =>
    cases body with
    | none => cases starts
    | some body =>
      obtain ⟨statement, member, rfl⟩ := List.mem_map.mp starts
      exact contained.child (by simp [Node.children, member])
  | valueSpec site names type values constant =>
    obtain ⟨value, member, rfl⟩ := List.mem_map.mp starts
    exact contained.child (by simp [Node.children, member])
  | _ => cases starts

theorem inTree_of_direct {node : Node} (contained : root.Contains node)
    (starts : other ∈ (direct node).next context table) : other.InTree context root := by
  cases node with
  | call site callee arguments =>
    rcases List.mem_append.mp starts with starts | starts
    · exact inTree_ofArguments ⟨site, arguments, contained⟩
        (fun argument member => contained.child (List.mem_cons_of_mem _ member)) starts
    · split_ifs at starts
      · rw [List.mem_singleton.mp starts]
        exact ⟨⟨callee, contained⟩, site, arguments, contained⟩
      · cases starts
  | keyed site key value =>
    rw [List.mem_singleton.mp starts]
    exact contained.child (by simp [Node.children])
  | _ => cases starts

theorem inTree_of_nested {node : Node} (contained : root.Contains node)
    (starts : other ∈ (nested node).next context table) : other.InTree context root := by
  cases node with
  | composite site type elements =>
    obtain ⟨element, member, rfl⟩ := List.mem_map.mp starts
    exact contained.child (by simp [Node.children, member])
  | call site callee arguments =>
    rcases List.mem_append.mp starts with starts | starts
    · cases callee with
      | selector place operand member =>
        rw [List.mem_singleton.mp starts]
        exact ⟨⟨_, contained⟩, site, arguments, contained⟩
      | ident place name offset =>
        rw [List.mem_singleton.mp starts]
        trivial
      | _ => cases starts
    · obtain ⟨argument, member, rfl⟩ := List.mem_map.mp starts
      exact contained.child (List.mem_cons_of_mem _ member)
  | _ => cases starts

theorem inTree_of_recognition (within : table.Within root) {site : Site} {arguments : List Node}
    {callee : Node} (inside : (recognition site arguments callee).InTree context root)
    (starts : other ∈ (recognition site arguments callee).next context table) :
    other.InTree context root := by
  obtain ⟨⟨inner, contained⟩, called⟩ := inside
  simp only [next] at starts
  split at starts
  · next first _ selected =>
    exact inTree_ofOpened within (hasCallSite_of_memberOf? selected called) contained
      (ofWalked_subset_ofOpened first starts)
  · next first rest selected =>
    exact inTree_ofOpened within (hasCallSite_of_memberOf? selected called) contained starts
  · cases starts

/-- A task about nodes of the tree starts only such tasks. -/
theorem InTree.next (within : table.Within root) {task : ScanTask}
    (inside : task.InTree context root) (starts : other ∈ task.next context table) :
    other.InTree context root := by
  cases task with
  | classification node => exact inTree_of_classification inside starts
  | statement node =>
    cases node with
    | statement site expression =>
      rw [List.mem_singleton.mp starts]
      exact Node.Contains.child inside (by simp [Node.children])
    | assignment site left right defines =>
      obtain ⟨value, member, rfl⟩ := List.mem_map.mp starts
      exact Node.Contains.child inside (by simp [Node.children, member])
    | _ => cases starts
  | direct node => exact inTree_of_direct inside starts
  | nested node => exact inTree_of_nested inside starts
  | declaration offset =>
    simp only [ScanTask.next] at starts
    split at starts
    · next target found => exact inTree_ofDeclaration (within found) starts
    · cases starts
  | recognition site arguments callee => exact inTree_of_recognition within inside starts
  | registration text site => cases starts

/-- All tasks that can be reached from a node of the tree are about nodes of the tree. -/
theorem InTree.of_reachable (within : table.Within root) {node : Node}
    (contained : root.Contains node)
    (reached : (classification node).Reachable context table other) :
    other.InTree context root := by
  induction reached with
  | refl => exact contained
  | tail _ starts ih => exact ih.next within starts

/-! ## What can come of a task -/

theorem problem_of_unreadable? {offset : Nat} {site : Site} {name : String} {reason : Halt}
    (unreadable : unreadable? context table offset site name = some reason) :
    ∃ problem, reason = context.problem site problem := by
  unfold unreadable? at unreadable
  split at unreadable
  · next _ value =>
    cases unreadable
    exact problem_of_valueOf? value
  · cases unreadable

/-- What is wrong with looking at the arguments of a call is a problem at one of them or at the
call, and a member must have been selected. -/
theorem problem_of_recognition {site : Site} {arguments : List Node} {inner callee : Node}
    (contained : root.Contains (.call site inner arguments)) {reason : Halt}
    (fault : (recognition site arguments callee).fault? context table = some reason) :
    memberOf? context callee ≠ none ∧
      ∃ node problem, root.Contains node ∧ reason = context.problem node.site problem := by
  have child {argument : Node} (member : argument ∈ arguments) : root.Contains argument :=
    contained.child (List.mem_cons_of_mem _ member)
  simp only [fault?] at fault
  split at fault
  · next selected =>
    obtain ⟨problem, rfl⟩ := problem_of_unreadable? fault
    exact ⟨by simp [selected], _, problem, child List.mem_cons_self, rfl⟩
  · cases fault
  · cases fault
  · next selected =>
    cases fault
    exact ⟨by simp [selected], _, _, child List.mem_cons_self, rfl⟩
  · next selected _ _ _ _ =>
    cases fault
    exact ⟨by simp [selected], _, _, contained, rfl⟩
  · next selected =>
    obtain ⟨problem, rfl⟩ := problem_of_unreadable? fault
    exact ⟨by simp [selected], _, problem, child List.mem_cons_self, rfl⟩
  · cases fault

/-- What is wrong with a task is a literal that stops the scan or a problem at a node of the tree,
and there is a call site. -/
theorem InTree.fault {task : ScanTask} (inside : task.InTree context root) {reason : Halt}
    (fault : task.fault? context table = some reason) :
    HasCallSite context root ∧ (reason = .malformedLiteral ∨
      ∃ node problem, root.Contains node ∧ reason = context.problem node.site problem) := by
  cases task with
  | recognition site arguments callee =>
    obtain ⟨⟨inner, contained⟩, called⟩ := inside
    obtain ⟨selects, problem⟩ := problem_of_recognition contained fault
    obtain ⟨member, selected⟩ := Option.ne_none_iff_exists'.mp selects
    exact ⟨hasCallSite_of_memberOf? selected called, .inr problem⟩
  | registration text site =>
    obtain ⟨_, ⟨node, contained, rfl⟩, sited⟩ := inside
    refine ⟨sited, ?_⟩
    simp only [fault?] at fault
    split at fault
    · cases fault
    · cases fault
      exact .inr ⟨node, _, contained, rfl⟩
    · cases fault
      exact .inl rfl
  | _ => cases fault

theorem InTree.registered {task : ScanTask} (inside : task.InTree context root) {path : AssetPath}
    (registers : task.registered? context = some path) :
    HasCallSite context root ∧
      ∃ site raw, PathPosition root (.literal site raw) ∧ context.pathOf raw = .ok path := by
  cases task with
  | registration text site =>
    obtain ⟨⟨spot, position⟩, _, sited⟩ := inside
    refine ⟨sited, spot, text, position, ?_⟩
    cases denoted : context.pathOf text with
    | error fault => simp [registered?, denoted, Except.toOption] at registers
    | ok other =>
      simp only [registered?, denoted, Except.toOption, Option.some.injEq] at registers
      rw [registers]
  | _ => cases registers

end ScanTask

/-! ## What a visit can give -/

section

variable {context : ScanContext} {tree : SyntaxTree} {node : Node}
  (within : tree.bindings.Within tree.root) (contained : tree.root.Contains node)

include within contained

theorem provenance_of_mem_found {path : AssetPath}
    (found : path ∈ (visitAlone context tree node).found) :
    HasCallSite context tree.root ∧
      ∃ site raw, PathPosition tree.root (.literal site raw) ∧ context.pathOf raw = .ok path := by
  obtain ⟨effect, has, covers⟩ := visitTrace_explores context tree node
  obtain ⟨entry, member, rfl⟩ := (has.mem_found_visitAlone path).mp found
  obtain ⟨task, reached, registers⟩ := covers.registered entry member
  exact (ScanTask.InTree.of_reachable within contained
    (ScanTask.mem_reach_nil_iff.mp reached)).registered registers

theorem provenance_of_mem_errors {error : ScanError}
    (logged : error ∈ (visitAlone context tree node).errors) :
    HasCallSite context tree.root ∧ ∃ node problem, tree.root.Contains node ∧
      Halt.problem error = context.problem node.site problem := by
  obtain ⟨effect, has, covers⟩ := visitTrace_explores context tree node
  rw [has.errors_visitAlone, Trace.Effect.mem_logged_iff] at logged
  obtain ⟨task, reached, fault⟩ := covers.faulty _ logged
  obtain ⟨sited, stops | problem⟩ := (ScanTask.InTree.of_reachable within contained
    (ScanTask.mem_reach_nil_iff.mp reached)).fault fault
  · cases stops
  · exact ⟨sited, problem⟩

theorem hasCallSite_of_not_visitReturns (stops : ¬ VisitReturns context tree node) :
    HasCallSite context tree.root := by
  obtain ⟨effect, has, covers⟩ := visitTrace_explores context tree node
  rw [has.visitReturns_iff, not_not] at stops
  obtain ⟨task, reached, fault⟩ := covers.faulty _ stops
  exact ((ScanTask.InTree.of_reachable within contained
    (ScanTask.mem_reach_nil_iff.mp reached)).fault fault).1

end

/-- Nothing is invented. If the declarations that names refer to are nodes of the tree, every path
of a completed run is denoted by a literal of the tree that is the first argument of a call, or all
that a variable is defined by, or all that a constant is declared with, and every error is about the
scanned file and the place of a node of the tree. A run of a tree without call sites is completed
and gives neither paths nor errors. -/
theorem nothing_is_invented (context : ScanContext) (tree : SyntaxTree)
    (within : tree.bindings.Within tree.root) :
    (∀ result, scanTree context tree = .ok result →
      (∀ path ∈ result.paths, ∃ site raw, tree.root.Contains (.literal site raw) ∧
        PathPosition tree.root (.literal site raw) ∧ context.pathOf raw = .ok path) ∧
      ∀ error ∈ result.errors, error.file = context.file ∧
        ∃ node, tree.root.Contains node ∧ error.line = node.site.line ∧
          error.column = node.site.column) ∧
    (¬ HasCallSite context tree.root →
      scanTree context tree = .ok ⟨context.file, context.package, [], []⟩) := by
  refine ⟨fun result completed => ⟨?_, ?_⟩, ?_⟩
  · intro path member
    obtain ⟨node, walked, found⟩ := (mem_paths_iff completed).mp member
    obtain ⟨_, site, raw, position, denoted⟩ :=
      provenance_of_mem_found within (Node.mem_walk_iff.mp walked) found
    exact ⟨site, raw, position.contains, position, denoted⟩
  · intro error member
    obtain ⟨node, walked, logged⟩ := (mem_errors_iff completed).mp member
    obtain ⟨_, other, problem, contained, same⟩ :=
      provenance_of_mem_errors within (Node.mem_walk_iff.mp walked) logged
    cases same
    exact ⟨rfl, other, contained, rfl, rfl⟩
  · intro siteless
    have returns : ∀ node ∈ tree.root.walk, VisitReturns context tree node := by
      intro node walked
      by_contra stops
      exact siteless (hasCallSite_of_not_visitReturns within (Node.mem_walk_iff.mp walked) stops)
    obtain ⟨paths, errors, completed⟩ := exists_scanTree_eq_ok returns
    have noPaths : paths = [] := by
      refine List.eq_nil_iff_forall_not_mem.mpr fun path member => ?_
      obtain ⟨node, walked, found⟩ := (mem_paths_iff completed).mp member
      exact siteless (provenance_of_mem_found within (Node.mem_walk_iff.mp walked) found).1
    have noErrors : errors = [] := by
      refine List.eq_nil_iff_forall_not_mem.mpr fun error member => ?_
      obtain ⟨node, walked, logged⟩ := (mem_errors_iff completed).mp member
      exact siteless (provenance_of_mem_errors within (Node.mem_walk_iff.mp walked) logged).1
    rw [completed, noPaths, noErrors]

theorem nothing_is_invented_of_circle :
    (∀ path ∈ [(⟨"app", "/a"⟩ : AssetPath), ⟨"app", "/b"⟩],
      ∃ site raw, callingEachOther.root.Contains (.literal site raw) ∧
        PathPosition callingEachOther.root (.literal site raw) ∧
        ({ file := "main.go", package := "app" } : ScanContext).pathOf raw = .ok path) ∧
    scanTree { file := "main.go", package := "app", spaceName := "assets" } callingEachOther =
      .ok ⟨"main.go", "app", [], []⟩ := by
  have first : callingEachOther.root.Contains (callingSpec 1 "a" "\"/a\"" "b").node :=
    .child .self (.head _)
  have second : callingEachOther.root.Contains (callingSpec 2 "b" "\"/b\"" "a").node :=
    .child .self (.tail _ (.head _))
  have within : callingEachOther.bindings.Within callingEachOther.root :=
    ((((BindingTable.storesIn_empty _).insert 104 [0] first).insert 130 [1] second).insert 204 [1]
      second).insert 230 [0] first |>.within
  constructor
  · have completed : scanTree { file := "main.go", package := "app" } callingEachOther =
        .ok ⟨"main.go", "app", [⟨"app", "/a"⟩, ⟨"app", "/b"⟩], []⟩ := by decide +kernel
    exact ((nothing_is_invented _ callingEachOther within).1 _ completed).1
  · refine (nothing_is_invented _ callingEachOther within).2 ?_
    rintro ⟨site, place, spot, offset, member, arguments, contained, _⟩
    have walked := Node.mem_walk_iff.mpr contained
    simp [Node.walk, Node.walkFrom, Node.children, callingEachOther, callingSpec, memberCall,
      Declaration.node] at walked

end AssetRefs
