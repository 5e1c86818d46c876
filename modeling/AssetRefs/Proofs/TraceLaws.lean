import AssetRefs.Proofs.TraceFamilies

/-! # Laws of traces

Every resolution is put together from a few kinds of traces, so a property of traces that these
kinds have and that survives putting together holds of every resolution: see `Trace.Closed`.

The first such property is tameness. A tame trace sees nothing of the session but the declarations
being followed, and does nothing to it but register paths. In particular a declaration counts as
being followed after the trace just if it did before, also if the trace stopped halfway.
-/

namespace AssetRefs

/-- A property of traces that all the ways to put traces together preserve. -/
structure Trace.Closed (context : ScanContext) (holds : {α : Type} → Trace α → Prop) : Prop where
  done : ∀ {α : Type} (value : α), holds (Trace.done value)
  halt : ∀ {α : Type} (reason : Halt), holds (Trace.halt reason : Trace α)
  resume : ∀ {α β : Type} {first : Trace α} {next : Except Halt α → Trace β}, holds first →
    (∀ outcome, holds (next outcome)) → holds (first.resume next)
  register : ∀ {raw : String} {path : AssetPath} (line : Nat), context.pathOf raw = .ok path →
    holds (Trace.register ⟨path, line⟩)
  following : ∀ {trace : Trace Unit} (place : Address), holds trace →
    holds (Trace.following place trace)

namespace Trace.Closed

variable {context : ScanContext} {holds : {α : Type} → Trace α → Prop}
  (closed : Closed context holds) {table : BindingTable} {follow : Nat → Trace Unit}

include closed

theorem andThen {α β : Type} {first : Trace α} {next : α → Trace β} (holdsFirst : holds first)
    (holdsNext : ∀ value, holds (next value)) : holds (first.andThen next) := by
  refine closed.resume holdsFirst fun outcome => ?_
  cases outcome with
  | error reason => exact closed.halt reason
  | ok value => exact holdsNext value

theorem addPath (raw : String) (site : Site) : holds (context.addPath raw site) := by
  unfold ScanContext.addPath
  split
  · next path parsed => exact closed.andThen (closed.register _ parsed) fun _ => closed.done _
  · exact closed.halt _
  · exact closed.halt _

/-- A property of traces is one of the families with a single trace. -/
theorem family (table : BindingTable) :
    (ScanFamily.single context table).Closed fun traces => holds (traces ()) where
  done := closed.done
  halt := closed.halt
  resume holdsFirst holdsNext := closed.resume holdsFirst holdsNext
  addPath raw site := closed.andThen (closed.addPath raw site) fun _ => closed.done _
  following place holdsTrace := closed.following place holdsTrace

section

variable (followed : ∀ offset, holds (follow offset))

include followed

theorem resolveDirect (node : Node) : holds (resolveDirect context table follow node) :=
  (closed.family table).resolveDirect (fun _ => follow) followed node

theorem resolveArguments (callee : Node) (nodes : List Node) :
    holds (resolveArguments context table follow callee nodes) :=
  (closed.family table).resolveArguments (fun _ => follow) followed callee nodes

theorem resolveNested (node : Node) : holds (resolveNested context table follow node) :=
  (closed.family table).resolveNested (fun _ => follow) followed node

theorem recognize (member : Option Member) (site : Site) (nodes : List Node) :
    holds (recognize context table follow member site nodes) :=
  (closed.family table).recognize (fun _ => follow) followed member site nodes

theorem literalValue (node : Node) : holds (literalValue context table follow node) :=
  (closed.family table).literalValue (fun _ => follow) followed node

theorem resolveDeclaration (declaration : Declaration) :
    holds (resolveDeclaration context table follow declaration) :=
  (closed.family table).resolveDeclaration (fun _ => follow) followed declaration

theorem resolveStatement (node : Node) : holds (resolveStatement context table follow node) :=
  (closed.family table).resolveStatement (fun _ => follow) followed node

theorem classify (node : Node) : holds (classify context table follow node) :=
  (closed.family table).classify (fun _ => follow) followed node

end

theorem followName (rounds offset : Nat) : holds (followName context table rounds offset) :=
  (closed.family table).followName rounds offset

/-- The property holds of every visit. -/
theorem visitTrace (tree : SyntaxTree) (node : Node) : holds (visitTrace context tree node) :=
  closed.classify (closed.followName _) node

end Trace.Closed

namespace Trace

variable {α β γ : Type}

theorem done_andThen (value : α) (next : α → Trace β) : (done value).andThen next = next value :=
  rfl

theorem halt_andThen (reason : Halt) (next : α → Trace β) :
    (halt reason : Trace α).andThen next = halt reason := rfl

theorem andThen_assoc (trace : Trace α) (first : α → Trace β) (second : β → Trace γ) :
    (trace.andThen first).andThen second =
      trace.andThen fun value => (first value).andThen second := by
  simp only [andThen, resume, Trace.mk.injEq]
  funext session
  cases (trace.run session).2 <;> rfl

/-- A property of the results of a trace. -/
def Yields (trace : Trace α) (post : α → Prop) : Prop :=
  ∀ session value, (trace.run session).2 = .ok value → post value

theorem Yields.done {value : α} {post : α → Prop} (holds : post value) :
    (Trace.done value).Yields post := by
  rintro session _ ⟨⟩
  exact holds

theorem Yields.andThen {trace : Trace α} {next : α → Trace β} {post : β → Prop}
    (yields : ∀ value, (next value).Yields post) : (trace.andThen next).Yields post := by
  intro session value ended
  simp only [Trace.andThen, Trace.resume] at ended
  cases outcome : (trace.run session).2 with
  | error reason =>
    rw [outcome] at ended
    cases ended
  | ok middle =>
    rw [outcome] at ended
    exact yields middle _ value ended

end Trace

/-- Registers paths one after the other. -/
def Session.registerAll (session : Session) (entries : List Registration) : Session :=
  entries.foldl register session

namespace Session

@[simp] theorem registerAll_nil (session : Session) : session.registerAll [] = session := rfl

theorem registerAll_append (session : Session) (first second : List Registration) :
    session.registerAll (first ++ second) = (session.registerAll first).registerAll second :=
  List.foldl_append

@[simp] theorem withActive_active (session : Session) (active : List Address) :
    (session.withActive active).active = active := rfl

@[simp] theorem withActive_withActive (session : Session) (first second : List Address) :
    (session.withActive first).withActive second = session.withActive second := rfl

@[simp] theorem withActive_self (session : Session) :
    session.withActive session.active = session := rfl

theorem register_withActive (session : Session) (active : List Address) (entry : Registration) :
    (session.withActive active).register entry = (session.register entry).withActive active := by
  unfold register withActive
  split <;> rfl

@[simp] theorem registerAll_withActive (session : Session) (active : List Address)
    (entries : List Registration) : (session.withActive active).registerAll entries =
      (session.registerAll entries).withActive active := by
  induction entries generalizing session with
  | nil => rfl
  | cons entry rest ih =>
    simp only [registerAll, List.foldl_cons, register_withActive] at ih ⊢
    exact ih (session.register entry)

/-- Registering leaves the declarations being followed alone. -/
@[simp] theorem registerAll_active (session : Session) (entries : List Registration) :
    (session.registerAll entries).active = session.active := by
  have same := session.registerAll_withActive session.active entries
  rw [withActive_self] at same
  exact (congrArg Session.active same).trans (withActive_active _ _)

end Session

namespace Trace

/-- The paths that a trace registers, and how it ends. -/
structure Effect (α : Type) where
  found : List Registration
  outcome : Except Halt α

/-- The effect without the result. -/
def Effect.void {α : Type} (effect : Effect α) : Effect Unit :=
  ⟨effect.found, effect.outcome.map fun _ => ()⟩

/-- The effect of a trace in all sessions in which the given declarations are being followed. -/
def Has {α : Type} (trace : Trace α) (active : List Address) (effect : Effect α) : Prop :=
  ∀ session : Session, session.active = active →
    trace.run session = (session.registerAll effect.found, effect.outcome)

namespace Has

variable {α β : Type} {active : List Address}

theorem done (value : α) : (Trace.done value).Has active ⟨[], .ok value⟩ := fun _ _ => rfl

theorem halt (reason : Halt) : (Trace.halt reason : Trace α).Has active ⟨[], .error reason⟩ :=
  fun _ _ => rfl

theorem register (entry : Registration) : (Trace.register entry).Has active ⟨[entry], .ok ()⟩ :=
  fun _ _ => rfl

theorem resume {first : Trace α} {next : Except Halt α → Trace β} {effect : Effect α}
    {later : Effect β} (has : first.Has active effect)
    (hasNext : (next effect.outcome).Has active later) :
    (first.resume next).Has active ⟨effect.found ++ later.found, later.outcome⟩ := by
  intro session followed
  have unchanged : (session.registerAll effect.found).active = active := by
    rw [Session.registerAll_active, followed]
  simp only [Trace.resume, has session followed, hasNext _ unchanged, Session.registerAll_append]

theorem andThen_ok {trace : Trace α} {next : α → Trace β} {found : List Registration} {value : α}
    {later : Effect β} (has : trace.Has active ⟨found, .ok value⟩)
    (hasNext : (next value).Has active later) :
    (trace.andThen next).Has active ⟨found ++ later.found, later.outcome⟩ := by
  unfold Trace.andThen
  refine has.resume ?_
  exact hasNext

theorem andThen_error {trace : Trace α} {next : α → Trace β} {found : List Registration}
    {reason : Halt} (has : trace.Has active ⟨found, .error reason⟩) :
    (trace.andThen next).Has active ⟨found, .error reason⟩ := by
  intro session followed
  simp only [Trace.andThen, Trace.resume, has session followed, Trace.halt]

/-- A trace that is stopped after it ended well. -/
theorem andThen_halt {trace : Trace α} {found : List Registration} {value : α} {reason : Halt}
    (has : trace.Has active ⟨found, .ok value⟩) :
    (trace.andThen fun _ => (Trace.halt reason : Trace β)).Has active ⟨found, .error reason⟩ := by
  intro session followed
  simp only [Trace.andThen, Trace.resume, has session followed, Trace.halt]

/-- Nothing more comes of what is done afterwards. -/
theorem andThen_idle {trace : Trace α} {next : α → Trace Unit} {effect : Effect α}
    (has : trace.Has active effect) (idle : ∀ value, (next value).Has active ⟨[], .ok ()⟩) :
    (trace.andThen next).Has active effect.void := by
  match effect, has with
  | ⟨_, .error _⟩, has => exact has.andThen_error
  | ⟨found, .ok value⟩, has =>
    have whole := has.andThen_ok (idle value)
    rwa [List.append_nil] at whole

theorem deferring_ok {trace : Trace α} {next : Unit → Trace Unit} {found : List Registration}
    {value : α} {later : Effect Unit} (has : trace.Has active ⟨found, .ok value⟩)
    (hasNext : (next ()).Has active later) :
    (trace.deferring next).Has active ⟨found ++ later.found, later.outcome⟩ := by
  unfold Trace.deferring
  refine has.resume ?_
  exact hasNext

theorem deferring_problem {trace : Trace α} {next : Unit → Trace Unit} {found : List Registration}
    {error : ScanError} {later : Effect Unit}
    (has : trace.Has active ⟨found, .error (.problem error)⟩)
    (hasNext : ((next ()).andThen fun _ => Trace.halt (.problem error)).Has active later) :
    (trace.deferring next).Has active ⟨found ++ later.found, later.outcome⟩ := by
  unfold Trace.deferring
  refine has.resume ?_
  exact hasNext

theorem deferring_malformed {trace : Trace α} {next : Unit → Trace Unit} {found : List Registration}
    (has : trace.Has active ⟨found, .error .malformedLiteral⟩) :
    (trace.deferring next).Has active ⟨found, .error .malformedLiteral⟩ := by
  intro session followed
  simp only [Trace.deferring, Trace.resume, has session followed, Trace.halt]

/-- Nothing more comes of what is done afterwards even in case of a problem. -/
theorem deferring_idle {trace : Trace α} {next : Unit → Trace Unit} {effect : Effect α}
    (has : trace.Has active effect) (idle : (next ()).Has active ⟨[], .ok ()⟩) :
    (trace.deferring next).Has active effect.void := by
  match effect, has with
  | ⟨found, .ok value⟩, has =>
    have whole := has.deferring_ok idle
    rwa [List.append_nil] at whole
  | ⟨found, .error (.problem error)⟩, has =>
    have stops : (Trace.halt (.problem error) : Trace Unit).Has active ⟨[], _⟩ := .halt _
    have whole := has.deferring_problem (idle.andThen_ok stops)
    rwa [List.append_nil, List.append_nil] at whole
  | ⟨found, .error .malformedLiteral⟩, has => exact has.deferring_malformed

/-- A declaration that is being followed is not followed again. -/
theorem following_of_mem {trace : Trace Unit} {place : Address} (member : place ∈ active) :
    (trace.following place).Has active ⟨[], .ok ()⟩ := by
  intro session followed
  subst followed
  simp only [Trace.following, List.contains_iff_mem.mpr member, ↓reduceIte,
    Session.registerAll_nil]

/-- A declaration that was not being followed is not being followed afterwards, however the trace
ended. -/
theorem following_of_not_mem {trace : Trace Unit} {place : Address} {effect : Effect Unit}
    (fresh : place ∉ active) (has : trace.Has (place :: active) effect) :
    (trace.following place).Has active effect := by
  intro session followed
  subst followed
  have restored := (session.registerAll effect.found).withActive_self
  rw [Session.registerAll_active] at restored
  have ran := has (session.withActive (place :: session.active)) rfl
  simp [Trace.following, fresh, ran, restored]

end Has

/-- Whatever declarations are being followed, the trace has one effect in all sessions. -/
def Tame {α : Type} (trace : Trace α) : Prop := ∀ active, ∃ effect, trace.Has active effect

/-- Every resolution is tame. -/
theorem tame_closed (context : ScanContext) : Closed context Tame where
  done value _ := ⟨_, .done value⟩
  halt reason _ := ⟨_, .halt reason⟩
  register _ _ _ := ⟨_, .register _⟩
  resume tame tameNext active := by
    obtain ⟨effect, has⟩ := tame active
    obtain ⟨later, hasNext⟩ := tameNext effect.outcome active
    exact ⟨_, has.resume hasNext⟩
  following place tame active := by
    obtain ⟨effect, has⟩ := tame (place :: active)
    by_cases member : place ∈ active
    · exact ⟨_, .following_of_mem member⟩
    · exact ⟨_, .following_of_not_mem member has⟩

end Trace

end AssetRefs
