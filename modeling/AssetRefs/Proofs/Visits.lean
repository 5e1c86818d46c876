import AssetRefs.Proofs.PathOrder
import AssetRefs.Proofs.TraceLaws

/-! # Visits are independent of each other

A session remembers what earlier visits found and logged, and which declarations are being followed.
None of this changes what a visit contributes: after any sequence of visits the session holds just
what these visits give when each is made alone in a new session. The argument is a step lemma about
one more visit (`Session.Collects.visit`) and an induction over the sequence.
-/

namespace AssetRefs

theorem ScanError.key_inj {first second : ScanError} :
    first.key = second.key ↔ first = second := by
  cases first
  cases second
  simp only [key, Prod.mk.injEq, ScanError.mk.injEq]

namespace Session

/-! ## What registering and logging change -/

theorem mem_found_register {session : Session} {entry : Registration} {path : AssetPath} :
    path ∈ (session.register entry).found ↔ path ∈ session.found ∨ path = entry.path := by
  unfold register
  split_ifs with present
  · have member : entry.path ∈ session.found := List.contains_iff_mem.mp present
    constructor
    · exact .inl
    · rintro (old | rfl)
      · exact old
      · exact member
  · exact AssetPath.mem_insert.trans or_comm

theorem mem_found_registerAll {session : Session} {entries : List Registration}
    {path : AssetPath} :
    path ∈ (session.registerAll entries).found ↔
      path ∈ session.found ∨ ∃ entry ∈ entries, path = entry.path := by
  induction entries generalizing session with
  | nil => simp
  | cons entry rest ih =>
    rw [registerAll, List.foldl_cons, ← registerAll, ih, mem_found_register]
    simp only [List.mem_cons, exists_eq_or_imp, or_assoc]

theorem increasing_registerAll {session : Session}
    (increasing : AssetPath.Increasing session.found) (entries : List Registration) :
    AssetPath.Increasing (session.registerAll entries).found := by
  induction entries generalizing session with
  | nil => exact increasing
  | cons entry rest ih =>
    refine ih ?_
    unfold register
    split_ifs
    · exact increasing
    · exact increasing.insert entry.path

@[simp] theorem registerAll_log (session : Session) (entries : List Registration) :
    (session.registerAll entries).errors = session.errors ∧
      (session.registerAll entries).seen = session.seen := by
  induction entries generalizing session with
  | nil => exact ⟨rfl, rfl⟩
  | cons entry rest ih =>
    obtain ⟨errors, seen⟩ := ih (session.register entry)
    rw [registerAll, List.foldl_cons, ← registerAll, errors, seen]
    unfold register
    split_ifs <;> exact ⟨rfl, rfl⟩

@[simp] theorem log_active (session : Session) (error : ScanError) :
    (session.log error).active = session.active := by
  unfold log
  split_ifs <;> rfl

@[simp] theorem log_found (session : Session) (error : ScanError) :
    (session.log error).found = session.found := by
  unfold log
  split_ifs <;> rfl

/-- The seen keys are those of the logged errors. -/
def LogKept (session : Session) : Prop :=
  ∀ key, key ∈ session.seen ↔ ∃ error ∈ session.errors, error.key = key

theorem LogKept.log {session : Session} (kept : session.LogKept) (error : ScanError) :
    (session.log error).LogKept := by
  unfold Session.log
  split_ifs
  · exact kept
  · intro key
    simp only [List.mem_append, List.mem_cons, List.not_mem_nil, or_false, kept key]
    constructor
    · rintro (rfl | ⟨old, member, same⟩)
      · exact ⟨error, .inr rfl, rfl⟩
      · exact ⟨old, .inl member, same⟩
    · rintro ⟨old, member | rfl, same⟩
      · exact .inr ⟨old, member, same⟩
      · exact .inl same.symm

/-- Logging one more error after the errors of a list. -/
theorem LogKept.log_errors {session : Session} (kept : session.LogKept) {logged : List ScanError}
    (same : session.errors = logged.eraseDups) (error : ScanError) :
    (session.log error).errors = (logged ++ [error]).eraseDups := by
  have seen : error.key ∈ session.seen ↔ error ∈ logged := by
    rw [kept, same]
    simp only [List.mem_eraseDups, ScanError.key_inj, exists_eq_right]
  rw [List.eraseDups_append, ← same]
  by_cases old : error ∈ logged
  · rw [Session.log, if_pos (List.contains_iff_mem.mpr (seen.mpr old))]
    simp [List.removeAll, old]
  · rw [Session.log, if_neg fun present => old (seen.mp (List.contains_iff_mem.mp present))]
    simp [List.removeAll, old, List.eraseDups_cons]

/-- Logs errors one after the other. -/
def logAll (session : Session) (errors : List ScanError) : Session := errors.foldl log session

@[simp] theorem logAll_active (session : Session) (errors : List ScanError) :
    (session.logAll errors).active = session.active := by
  induction errors generalizing session with
  | nil => rfl
  | cons error rest ih => exact (ih (session.log error)).trans (session.log_active error)

@[simp] theorem logAll_found (session : Session) (errors : List ScanError) :
    (session.logAll errors).found = session.found := by
  induction errors generalizing session with
  | nil => rfl
  | cons error rest ih => exact (ih (session.log error)).trans (session.log_found error)

theorem LogKept.logAll {session : Session} (kept : session.LogKept) {logged : List ScanError}
    (same : session.errors = logged.eraseDups) (errors : List ScanError) :
    (session.logAll errors).LogKept ∧
      (session.logAll errors).errors = (logged ++ errors).eraseDups := by
  induction errors generalizing session logged with
  | nil => exact ⟨kept, by rwa [List.append_nil]⟩
  | cons error rest ih =>
    rw [List.append_cons]
    exact ih (kept.log error) (kept.log_errors same error)

end Session

/-! ## What a visit contributes -/

namespace Trace

/-- The error that a visit logs. -/
def Effect.logged (effect : Effect Unit) : List ScanError :=
  match effect.outcome with
  | .error (.problem error) => [error]
  | _ => []

/-- How a visit ends. -/
def Effect.ending (effect : Effect Unit) : Except Halt Unit :=
  match effect.outcome with
  | .error .malformedLiteral => .error .malformedLiteral
  | _ => .ok ()

theorem Effect.eraseDups_logged (effect : Effect Unit) :
    effect.logged.eraseDups = effect.logged := by
  unfold logged
  split
  · rfl
  · rfl

theorem Effect.mem_logged_iff {effect : Effect Unit} {error : ScanError} :
    error ∈ effect.logged ↔ effect.outcome = .error (.problem error) := by
  unfold logged
  match effect.outcome with
  | .ok () => simp
  | .error (.problem _) => simp [eq_comm]
  | .error .malformedLiteral => simp

theorem Effect.ending_eq_ok_iff {effect : Effect Unit} :
    effect.ending = .ok () ↔ effect.outcome ≠ .error .malformedLiteral := by
  unfold ending
  match effect.outcome with
  | .ok () => simp
  | .error (.problem _) => simp
  | .error .malformedLiteral => simp

/-- A visit does the same in all sessions in which nothing is being followed. -/
theorem Has.visit {trace : Trace Unit} {effect : Effect Unit} (has : trace.Has [] effect)
    {session : Session} (idle : session.active = []) :
    session.visit trace =
      ((session.registerAll effect.found).logAll effect.logged, effect.ending) := by
  rw [Session.visit, has session idle, Effect.logged, Effect.ending]
  match effect.outcome with
  | .ok () => rfl
  | .error (.problem _) => rfl
  | .error .malformedLiteral => rfl

end Trace

/-- The session after one visit that is made alone. -/
def visitAlone (context : ScanContext) (tree : SyntaxTree) (node : Node) : Session :=
  (({} : Session).visit (visitTrace context tree node)).1

/-- The scan can go on after a visit that is made alone. -/
def VisitReturns (context : ScanContext) (tree : SyntaxTree) (node : Node) : Prop :=
  (({} : Session).visit (visitTrace context tree node)).2 = .ok ()

section

variable {context : ScanContext} {tree : SyntaxTree} {node : Node} {effect : Trace.Effect Unit}

theorem Trace.Has.mem_found_visitAlone (has : (visitTrace context tree node).Has [] effect)
    (path : AssetPath) : path ∈ (visitAlone context tree node).found ↔
      ∃ entry ∈ effect.found, path = entry.path := by
  rw [visitAlone, has.visit rfl, Session.logAll_found, Session.mem_found_registerAll]
  simp

theorem Trace.Has.errors_visitAlone (has : (visitTrace context tree node).Has [] effect) :
    (visitAlone context tree node).errors = effect.logged := by
  have kept : (({} : Session).registerAll effect.found).LogKept := by
    intro key
    simp
  have none : (({} : Session).registerAll effect.found).errors = List.eraseDups [] := by simp
  rw [visitAlone, has.visit rfl, (kept.logAll none effect.logged).2, List.nil_append,
    effect.eraseDups_logged]

theorem Trace.Has.visitReturns_iff (has : (visitTrace context tree node).Has [] effect) :
    VisitReturns context tree node ↔ effect.outcome ≠ .error .malformedLiteral := by
  rw [VisitReturns, has.visit rfl, Trace.Effect.ending_eq_ok_iff]

end


/-- A session holds just what visits to the nodes give when each is made alone. -/
structure Session.Collects (context : ScanContext) (tree : SyntaxTree) (nodes : List Node)
    (session : Session) : Prop where
  idle : session.active = []
  increasing : AssetPath.Increasing session.found
  found_iff : ∀ path, path ∈ session.found ↔
    ∃ node ∈ nodes, path ∈ (visitAlone context tree node).found
  kept : session.LogKept
  errors_eq : session.errors =
    (nodes.flatMap fun node => (visitAlone context tree node).errors).eraseDups

namespace Session

variable {context : ScanContext} {tree : SyntaxTree}

theorem Collects.initial (used : Bool) : ({ used } : Session).Collects context tree [] where
  idle := rfl
  increasing := List.Pairwise.nil
  found_iff path := by simp
  kept key := by simp
  errors_eq := rfl

/-- One more visit, whatever the session holds. -/
theorem Collects.visit {nodes : List Node} {session : Session}
    (collects : session.Collects context tree nodes) (node : Node) :
    (session.visit (visitTrace context tree node)).1.Collects context tree (nodes ++ [node]) ∧
      ((session.visit (visitTrace context tree node)).2 = .ok () ↔
        VisitReturns context tree node) := by
  obtain ⟨effect, has⟩ := (Trace.tame_closed context).visitTrace tree node []
  rw [VisitReturns, has.visit collects.idle, has.visit (rfl : ({} : Session).active = [])]
  have kept : (session.registerAll effect.found).LogKept := by
    intro key
    simpa using collects.kept key
  obtain ⟨keptAfter, errorsAfter⟩ := kept.logAll
    ((session.registerAll_log effect.found).1.trans collects.errors_eq) effect.logged
  refine ⟨⟨by simp [collects.idle], ?_, ?_, keptAfter, ?_⟩, Iff.rfl⟩
  · rw [logAll_found]
    exact increasing_registerAll collects.increasing effect.found
  · intro path
    rw [logAll_found, mem_found_registerAll, collects.found_iff, ← has.mem_found_visitAlone]
    simp only [List.mem_append, List.mem_singleton, or_and_right, exists_or, exists_eq_left]
  · rw [errorsAfter, List.flatMap_append, List.flatMap_singleton, has.errors_visitAlone]

theorem visitAll_cons_of_ok {session : Session} {trace : Trace Unit} {rest : List (Trace Unit)}
    (ok : (session.visit trace).2 = .ok ()) :
    session.visitAll (trace :: rest) = (session.visit trace).1.visitAll rest := by
  rw [visitAll]
  split
  · next next visited => rw [visited]
  · next other => exact (other _ (Prod.ext rfl ok)).elim

theorem visitAll_cons_of_not_ok {session : Session} {trace : Trace Unit}
    {rest : List (Trace Unit)} (stopped : (session.visit trace).2 ≠ .ok ()) :
    session.visitAll (trace :: rest) = session.visit trace := by
  rw [visitAll]
  split
  · next next visited => exact (stopped (by rw [visited])).elim
  · rfl

/-- A sequence of visits. It is completed just if each of them could be completed alone. -/
theorem Collects.visitAll {before : List Node} {session : Session}
    (collects : session.Collects context tree before) (nodes : List Node) :
    ((∀ node ∈ nodes, VisitReturns context tree node) ∧
      ∃ next, session.visitAll (nodes.map (visitTrace context tree)) = (next, .ok ()) ∧
        next.Collects context tree (before ++ nodes)) ∨
    ((∃ node ∈ nodes, ¬ VisitReturns context tree node) ∧
      (session.visitAll (nodes.map (visitTrace context tree))).2 ≠ .ok ()) := by
  induction nodes generalizing before session with
  | nil => exact .inl ⟨by simp, session, rfl, by rwa [List.append_nil]⟩
  | cons node rest ih =>
    obtain ⟨collectsNext, returns⟩ := collects.visit node
    rw [List.map_cons]
    by_cases ok : (session.visit (visitTrace context tree node)).2 = .ok ()
    · rw [visitAll_cons_of_ok ok, List.append_cons]
      refine (ih collectsNext).imp ?_ ?_
      · rintro ⟨all, completed⟩
        exact ⟨List.forall_mem_cons.mpr ⟨returns.mp ok, all⟩, completed⟩
      · rintro ⟨⟨other, member, stops⟩, stopped⟩
        exact ⟨⟨other, List.mem_cons_of_mem _ member, stops⟩, stopped⟩
    · rw [visitAll_cons_of_not_ok ok]
      exact .inr ⟨⟨node, List.mem_cons_self, fun alone => ok (returns.mpr alone)⟩, ok⟩

end Session

/-! ## Sequences of visits and runs -/

section

variable {context : ScanContext} {tree : SyntaxTree}

/-- A completed run collects the visits to all nodes of the tree. -/
theorem scanTree_collects {result : ScanResult} (completed : scanTree context tree = .ok result) :
    (∀ node ∈ tree.root.walk, VisitReturns context tree node) ∧
      ∃ session : Session, session.Collects context tree tree.root.walk ∧
        session.found = result.paths ∧ session.errors = result.errors := by
  simp only [scanTree, Session.run, Bool.false_eq_true, ↓reduceIte] at completed
  rcases (Session.Collects.initial true).visitAll tree.root.walk with
    ⟨all, next, ran, collects⟩ | ⟨_, stopped⟩
  · rw [ran] at completed
    cases completed
    exact ⟨all, next, collects, rfl, rfl⟩
  · split at completed
    · cases completed
    · next ran => exact (stopped (by rw [ran])).elim

/-- A run is completed if each of its visits could be completed alone. -/
theorem exists_scanTree_eq_ok (returns : ∀ node ∈ tree.root.walk, VisitReturns context tree node) :
    ∃ paths errors, scanTree context tree = .ok ⟨context.file, context.package, paths, errors⟩ := by
  have initial : ({ used := true } : Session).Collects context tree [] := .initial true
  rcases initial.visitAll tree.root.walk with ⟨_, next, ran, _⟩ | ⟨⟨node, member, stops⟩, _⟩
  · refine ⟨next.found, next.errors, ?_⟩
    simp only [scanTree, Session.run, Bool.false_eq_true, ↓reduceIte, ran]
  · exact (stops (returns node member)).elim

theorem mem_paths_iff {result : ScanResult} (completed : scanTree context tree = .ok result)
    {path : AssetPath} : path ∈ result.paths ↔
      ∃ node ∈ tree.root.walk, path ∈ (visitAlone context tree node).found := by
  obtain ⟨_, session, collects, paths, _⟩ := scanTree_collects completed
  rw [← paths]
  exact collects.found_iff path

theorem mem_errors_iff {result : ScanResult} (completed : scanTree context tree = .ok result)
    {error : ScanError} : error ∈ result.errors ↔
      ∃ node ∈ tree.root.walk, error ∈ (visitAlone context tree node).errors := by
  obtain ⟨_, session, collects, _, errors⟩ := scanTree_collects completed
  rw [← errors, collects.errors_eq, List.mem_eraseDups, List.mem_flatMap]

/-- The first errors of a list with each key. -/
def firstByKey (errors : List ScanError) : List ScanError :=
  errors.eraseDupsBy fun error earlier => error.key == earlier.key

theorem firstByKey_eq_eraseDups (errors : List ScanError) :
    firstByKey errors = errors.eraseDups := by
  have same : (fun error earlier : ScanError => error.key == earlier.key) = (· == ·) := by
    funext error earlier
    rw [Bool.eq_iff_iff, beq_iff_eq, beq_iff_eq, ScanError.key_inj]
  rw [firstByKey, same, List.eraseDups]

end

/-- A call of a member of `pkger` that starts a line. -/
def memberCall (line : Nat) (member : String) (arguments : List Node) : Node :=
  let name : Node := .ident ⟨"identifier", line, 1⟩ "pkger" (100 * line)
  .call ⟨"call_expression", line, 1⟩ (.selector ⟨"selector_expression", line, 1⟩ name member)
    arguments

/-- A file that opens `/b`, calls `Walk` without arguments, opens `/a` and opens `/b` again. -/
def fourCalls : SyntaxTree where
  path := "main.go"
  root := .generic ⟨"source_file", 1, 1⟩
    [memberCall 1 "Open" [.literal ⟨"interpreted_string_literal", 1, 12⟩ "\"/b\""],
      memberCall 2 "Walk" [],
      memberCall 3 "Open" [.literal ⟨"interpreted_string_literal", 3, 12⟩ "\"/a\""],
      memberCall 4 "Open" [.literal ⟨"interpreted_string_literal", 4, 12⟩ "\"/b\""]]
  package := none
  bindings := .empty

end AssetRefs
