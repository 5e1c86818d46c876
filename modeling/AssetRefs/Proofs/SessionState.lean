import AssetRefs.Proofs.ScanOperations

/-! # The state of a session between operations

A session marks the declarations that it is following, and it keeps the keys of the logged errors
apart from the log. An operation can stop at any depth of a resolution, with any number of
declarations marked, and still leaves the session in order. What the four small changes of a session
keep comes from `Session.Invariant`. That no mark is left over does not, since marks are set and
cleared all the time: it comes from tameness, which says how a whole resolution leaves the marks.
-/

namespace AssetRefs

theorem Trace.Tame.exists_registerAll {α : Type} {trace : Trace α} (tame : trace.Tame)
    (session : Session) : ∃ entries, (trace.run session).1 = session.registerAll entries := by
  obtain ⟨effect, has⟩ := tame session.active
  exact ⟨effect.found, by rw [has session rfl]⟩

namespace Session

/-! ## The log -/

theorem LogKept.nodup_log {session : Session} (kept : session.LogKept)
    (distinct : (session.errors.map ScanError.key).Nodup) (error : ScanError) :
    ((session.log error).errors.map ScanError.key).Nodup := by
  unfold Session.log
  split_ifs with present
  · exact distinct
  · have fresh : error.key ∉ session.errors.map ScanError.key := by
      intro logged
      obtain ⟨old, member, same⟩ := List.mem_map.mp logged
      exact present (List.contains_iff_mem.mpr ((kept _).mpr ⟨old, member, same⟩))
    rw [List.map_append]
    exact distinct.append (List.nodup_singleton _) (by simpa using fresh)

/-- The seen keys stay those of the log, and no key is logged twice. -/
theorem invariant_logKept (context : ScanContext) : Invariant context fun session =>
    session.LogKept ∧ (session.errors.map ScanError.key).Nodup where
  register line kept _ := by
    unfold Session.register
    split_ifs
    · exact kept
    · exact kept
  log error kept := ⟨kept.1.log error, kept.1.nodup_log kept.2 error⟩
  withActive _ kept := kept
  used kept := kept

/-- Nothing that a session had found or logged is lost. -/
theorem invariant_extends (context : ScanContext) (before : Session) :
    Invariant context fun session =>
      before.found ⊆ session.found ∧ before.errors <+: session.errors where
  register line kept _ := by
    refine ⟨fun path old => mem_found_register.mpr (.inl (kept.1 old)), ?_⟩
    unfold Session.register
    split_ifs
    · exact kept.2
    · exact kept.2
  log error kept := by
    refine ⟨by rw [log_found]; exact kept.1, ?_⟩
    unfold Session.log
    split_ifs
    · exact kept.2
    · exact kept.2.trans (List.prefix_append _ _)
  withActive _ kept := kept
  used kept := kept

/-! ## The marks -/

variable (context : ScanContext) (tree : SyntaxTree)

theorem visit_active (session : Session) (node : Node) :
    (session.visit (visitTrace context tree node)).1.active = session.active := by
  obtain ⟨entries, ran⟩ :=
    ((Trace.tame_closed context).visitTrace tree node).exists_registerAll session
  unfold Session.visit
  split
  · next after => rw [← session.registerAll_active entries, ← ran, after]
  · next after => rw [log_active, ← session.registerAll_active entries, ← ran, after]
  · next after => rw [← session.registerAll_active entries, ← ran, after]

theorem visitAll_active (session : Session) (nodes : List Node) :
    (session.visitAll (nodes.map (visitTrace context tree))).1.active = session.active := by
  induction nodes generalizing session with
  | nil => rfl
  | cons node rest ih =>
    rw [List.map_cons]
    by_cases ok : (session.visit (visitTrace context tree node)).2 = .ok ()
    · rw [visitAll_cons_of_ok ok, ih, visit_active]
    · rw [visitAll_cons_of_not_ok ok, visit_active]

theorem run_active (session : Session) : (session.run context tree).1.active = session.active := by
  unfold Session.run
  split_ifs
  · rfl
  · have visited := visitAll_active context tree { session with used := true } tree.root.walk
    split
    · next ran => rwa [ran] at visited
    · next ran => rwa [ran] at visited

/-- An operation other than a run or a visit is a resolution that is taken into the session. -/
theorem perform_run_or_visit_or_take (session : Session) (operation : ScanOperation) :
    operation = .run ∨ (∃ node, operation = .visit node) ∨
      ∃ (α : Type) (trace : Trace α), trace.Tame ∧
        session.perform context tree operation = (trace.run session).1 := by
  have closed := Trace.tame_closed context
  have followed (offset : Nat) : (followFresh context tree.bindings offset).Tame :=
    closed.followName _ offset
  cases operation with
  | run => exact .inl rfl
  | visit node => exact .inr (.inl ⟨node, rfl⟩)
  | classify node => exact .inr (.inr ⟨_, _, closed.visitTrace tree node, rfl⟩)
  | resolveStatement node => exact .inr (.inr ⟨_, _, closed.resolveStatement followed node, rfl⟩)
  | resolveDirect node => exact .inr (.inr ⟨_, _, closed.resolveDirect followed node, rfl⟩)
  | resolveNested node => exact .inr (.inr ⟨_, _, closed.resolveNested followed node, rfl⟩)
  | literalValue node => exact .inr (.inr ⟨_, _, closed.literalValue followed node, rfl⟩)
  | addPath raw site => exact .inr (.inr ⟨_, _, closed.addPath raw site, rfl⟩)

/-- However an operation ends, the marks are those from before it. -/
theorem perform_active (session : Session) (operation : ScanOperation) :
    (session.perform context tree operation).active = session.active := by
  rcases session.perform_run_or_visit_or_take context tree operation with
    rfl | ⟨node, rfl⟩ | ⟨_, trace, tame, performed⟩
  · exact session.run_active context tree
  · exact session.visit_active context tree node
  · obtain ⟨entries, ran⟩ := tame.exists_registerAll session
    rw [performed, ran, registerAll_active]

theorem performAll_active (session : Session) (operations : List ScanOperation) :
    (session.performAll context tree operations).active = session.active := by
  induction operations generalizing session with
  | nil => rfl
  | cons operation rest ih => exact (ih _).trans (session.perform_active context tree operation)

variable {context tree}

/-- A problem that no visit meets is not logged. -/
theorem perform_errors {session : Session} {operation : ScanOperation}
    (changed : (session.perform context tree operation).errors ≠ session.errors) :
    operation = .run ∨ ∃ node, operation = .visit node := by
  rcases session.perform_run_or_visit_or_take context tree operation with
    runs | visits | ⟨_, trace, tame, performed⟩
  · exact .inl runs
  · exact .inr visits
  · obtain ⟨entries, ran⟩ := tame.exists_registerAll session
    rw [performed, ran] at changed
    exact (changed (session.registerAll_log entries).1).elim

end Session

/-- Whatever a new session was asked to do, one more operation leaves it in order, also if the
operation stops halfway: no declaration is being followed, what was found stays found, and the log
only grows, and only by a visit or a run. No two errors in the log have the same key, and the seen
keys are just the keys of the log. -/
theorem operations_leave_sessions_in_order (context : ScanContext) (tree : SyntaxTree)
    (operations : List ScanOperation) (operation : ScanOperation) :
    let before := ({} : Session).performAll context tree operations
    let after := before.perform context tree operation
    after.active = [] ∧ before.found ⊆ after.found ∧ before.errors <+: after.errors ∧
    (after.errors ≠ before.errors → operation = .run ∨ ∃ node, operation = .visit node) ∧
    (after.errors.map ScanError.key).Nodup ∧
    ∀ key, key ∈ after.seen ↔ key ∈ after.errors.map ScanError.key := by
  intro before after
  have idle : after.active = [] :=
    (before.perform_active context tree operation).trans
      (({} : Session).performAll_active context tree operations)
  have extended := (Session.invariant_extends context before).perform tree operation
    ⟨List.Subset.refl _, List.prefix_rfl⟩
  have initial : ({} : Session).LogKept ∧ (({} : Session).errors.map ScanError.key).Nodup :=
    ⟨fun key => by simp, List.nodup_nil⟩
  have invariant := Session.invariant_logKept context
  have logged := invariant.perform tree operation (invariant.performAll tree operations initial)
  refine ⟨idle, extended.1, extended.2, Session.perform_errors, logged.2, fun key => ?_⟩
  rw [List.mem_map]
  exact logged.1 key

/-- The definition of `f` as the call of a member of `pkger` with the argument `"/x"`. -/
def definitionBy (member : String) : Declaration :=
  .assignment ⟨"short_var_declaration", 1, 1⟩ [.ident ⟨"identifier", 1, 1⟩ "f" 0]
    [memberCall 1 member [.literal ⟨"interpreted_string_literal", 1, 12⟩ "\"/x\""]] true

/-- The name `f` in the second line. -/
def openedName : Node := .ident ⟨"identifier", 2, 12⟩ "f" 211

/-- A file with this definition and the call `pkger.Open(f)` after it. -/
def definingFile (member : String) : SyntaxTree where
  path := "main.go"
  root := .generic ⟨"source_file", 1, 1⟩
    [(definitionBy member).node, memberCall 2 "Open" [openedName]]
  package := none
  bindings := (BindingTable.empty.insert 0 (.declaration [0] (definitionBy member))).insert 211
    (.declaration [0] (definitionBy member))

theorem operations_leave_sessions_in_order_halted :
    let context : ScanContext := { file := "main.go", package := "app" }
    let tree := definingFile "Walk"
    let arity : ScanError := ⟨Problem.walkArity.message, "main.go", 1, 1⟩
    let halted := ({} : Session).performAll context tree [.classify openedName]
    let logged := halted.perform context tree (.visit openedName)
    let ran := logged.perform context tree .run
    (({} : Session).take (visitTrace context tree openedName)).2 = .error (.problem arity) ∧
    halted.active = [] ∧ halted.errors = [] ∧ logged.errors = [arity] ∧
    (∃ node, ScanOperation.visit openedName = .visit node) ∧
    [arity] <+: ran.errors ∧ (ran.errors.map ScanError.key).Nodup ∧ ran.active = [] := by
  intro context tree arity halted logged ran
  have unlogged : halted.errors = [] := by decide +kernel
  have errors : logged.errors = [arity] := by decide +kernel
  obtain ⟨idle, _⟩ := operations_leave_sessions_in_order context tree [] (.classify openedName)
  obtain ⟨_, _, _, grown, _⟩ :=
    operations_leave_sessions_in_order context tree [.classify openedName] (.visit openedName)
  obtain ⟨idleAgain, _, extended, _, distinct, _⟩ := operations_leave_sessions_in_order context
    tree [.classify openedName, .visit openedName] .run
  have changed : logged.errors ≠ halted.errors := by simp [unlogged, errors]
  refine ⟨by decide +kernel, idle, unlogged, errors, ?_, errors ▸ extended, distinct, idleAgain⟩
  exact (grown changed).resolve_left nofun

end AssetRefs
