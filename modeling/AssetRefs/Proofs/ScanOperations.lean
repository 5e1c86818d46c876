import AssetRefs.Proofs.Visits

/-! # Any use of a session

Besides its one run a session can be asked to visit or to resolve single nodes, in any order. All
that an operation does to a session is done in four small ways, so what these four keep is kept by
every operation and, by induction, by every sequence of operations: see
`Session.Invariant.performAll`.
-/

namespace AssetRefs

/-- What a session can be asked to do. The nodes may be any nodes, also ones that are not in the
tree. -/
inductive ScanOperation where
  | run
  | visit (node : Node)
  | classify (node : Node)
  | resolveStatement (node : Node)
  | resolveDirect (node : Node)
  | resolveNested (node : Node)
  | literalValue (node : Node)
  | addPath (raw : String) (site : Site)
deriving Repr

namespace Session

/-- The session after an operation, also if the operation stopped halfway. -/
def perform (context : ScanContext) (tree : SyntaxTree) (session : Session) :
    ScanOperation → Session
  | .run => (session.run context tree).1
  | .visit node => (session.visit (visitTrace context tree node)).1
  | .classify node => (session.take (visitTrace context tree node)).1
  | .resolveStatement node => (session.take (AssetRefs.resolveStatement context tree.bindings
      (followFresh context tree.bindings) node)).1
  | .resolveDirect node => (session.take (AssetRefs.resolveDirect context tree.bindings
      (followFresh context tree.bindings) node)).1
  | .resolveNested node => (session.take (AssetRefs.resolveNested context tree.bindings
      (followFresh context tree.bindings) node)).1
  | .literalValue node => (session.take (AssetRefs.literalValue context tree.bindings
      (followFresh context tree.bindings) node)).1
  | .addPath raw site => (session.take (context.addPath raw site)).1

/-- The session after a sequence of operations. -/
def performAll (context : ScanContext) (tree : SyntaxTree) (session : Session)
    (operations : List ScanOperation) : Session :=
  operations.foldl (perform context tree) session

/-- A property of sessions that every small change of a session keeps. -/
structure Invariant (context : ScanContext) (holds : Session → Prop) : Prop where
  register : ∀ {session : Session} {raw : String} {path : AssetPath} (line : Nat), holds session →
    context.pathOf raw = .ok path → holds (session.register ⟨path, line⟩)
  log : ∀ {session : Session} (error : ScanError), holds session → holds (session.log error)
  withActive : ∀ {session : Session} (active : List Address), holds session →
    holds (session.withActive active)
  used : ∀ {session : Session}, holds session → holds { session with used := true }

namespace Invariant

variable {context : ScanContext} {holds : Session → Prop} (invariant : Invariant context holds)

include invariant

/-- Every resolution keeps the invariant. -/
theorem closed : Trace.Closed context
    fun trace => ∀ session, holds session → holds (trace.run session).1 where
  done _ _ kept := kept
  halt _ _ kept := kept
  resume keptFirst keptNext session kept := keptNext _ _ (keptFirst session kept)
  register line parsed _ kept := invariant.register line kept parsed
  following place keeps session kept := by
    unfold Trace.following
    dsimp only
    split
    · exact kept
    · exact invariant.withActive _ (keeps _ (invariant.withActive _ kept))

theorem visit (tree : SyntaxTree) (node : Node) {session : Session} (kept : holds session) :
    holds (session.visit (visitTrace context tree node)).1 := by
  have after := invariant.closed.visitTrace tree node session kept
  unfold Session.visit
  split
  · next ran => rwa [ran] at after
  · next ran =>
    rw [ran] at after
    exact invariant.log _ after
  · next ran => rwa [ran] at after

theorem visitAll (tree : SyntaxTree) (nodes : List Node) {session : Session}
    (kept : holds session) :
    holds (session.visitAll (nodes.map (visitTrace context tree))).1 := by
  induction nodes generalizing session with
  | nil => exact kept
  | cons node rest ih =>
    have after := invariant.visit tree node kept
    by_cases ok : (session.visit (visitTrace context tree node)).2 = .ok ()
    · rw [List.map_cons, visitAll_cons_of_ok ok]
      exact ih after
    · rwa [List.map_cons, visitAll_cons_of_not_ok ok]

theorem run (tree : SyntaxTree) {session : Session} (kept : holds session) :
    holds (session.run context tree).1 := by
  unfold Session.run
  split_ifs
  · exact kept
  · have after := invariant.visitAll tree tree.root.walk (invariant.used kept)
    split
    · next ran => rwa [ran] at after
    · next ran => rwa [ran] at after

/-- One operation keeps the invariant. -/
theorem perform (tree : SyntaxTree) (operation : ScanOperation) {session : Session}
    (kept : holds session) : holds (session.perform context tree operation) := by
  have followed (offset : Nat) : ∀ session, holds session →
      holds ((followFresh context tree.bindings offset).run session).1 :=
    invariant.closed.followName _ offset
  cases operation with
  | run => exact invariant.run tree kept
  | visit node => exact invariant.visit tree node kept
  | classify node => exact invariant.closed.visitTrace tree node session kept
  | resolveStatement node => exact invariant.closed.resolveStatement followed node session kept
  | resolveDirect node => exact invariant.closed.resolveDirect followed node session kept
  | resolveNested node => exact invariant.closed.resolveNested followed node session kept
  | literalValue node => exact invariant.closed.literalValue followed node session kept
  | addPath raw site => exact invariant.closed.addPath raw site session kept

/-- Every sequence of operations keeps the invariant. -/
theorem performAll (tree : SyntaxTree) (operations : List ScanOperation) {session : Session}
    (kept : holds session) : holds (session.performAll context tree operations) := by
  induction operations generalizing session with
  | nil => exact kept
  | cons operation rest ih => exact ih (invariant.perform tree operation kept)

end Invariant

end Session

end AssetRefs
