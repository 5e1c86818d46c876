import AssetRefs.Syntax.Scope
import Mathlib.Algebra.Ring.Int.Defs
import Mathlib.Data.List.Chain

/-! # Lexical scopes

Which scopes are open before an event, and where a name is declared first. The events of a file are
all there is to it: a scope is known by the position of the event that opens it, and it is open as
long as fewer scopes have been closed than opened since.

From one event to the next the open scopes change at the innermost end only: see `openAt_succ_iff`,
`OpenScopes.opened` and `OpenScopes.closed`.
-/

namespace AssetRefs

/-- By how much an event changes the number of open scopes. -/
def ScopeEvent.change : ScopeEvent → Int
  | opened => 1
  | closed => -1
  | _ => 0

/-- How many more scopes were opened than closed before a position. -/
def depthAt (events : List ScopeEvent) (position : Nat) : Int :=
  ((events.take position).map ScopeEvent.change).sum

/-- The scope that is opened at `start` is still open before the event at `position`. -/
def OpenAt (events : List ScopeEvent) (start position : Nat) : Prop :=
  start < position ∧ events[start]? = some .opened ∧
    ∀ later, start < later → later ≤ position → depthAt events start < depthAt events later

/-- A scope is the innermost one before the event at `position`. The package scope, which no event
opens, is that only where no other scope is open. -/
def InnermostAt (events : List ScopeEvent) (position : Nat) : (scope : Option Nat) → Prop
  | some start => OpenAt events start position ∧
      ∀ other, OpenAt events other position → other ≤ start
  | none => ∀ start, ¬ OpenAt events start position

/-- The event at `position` declares a name in a scope. -/
def DeclaresIn (events : List ScopeEvent) (scope : Option Nat) (name : String) (position : Nat)
    (target : Binding) : Prop :=
  name ≠ "_" ∧ (∃ offset, events[position]? = some (.declared name offset target)) ∧
    InnermostAt events position scope

/-- The event at `position` is the first one that declares a name in a scope. -/
def FirstIn (events : List ScopeEvent) (scope : Option Nat) (name : String) (position : Nat)
    (target : Binding) : Prop :=
  DeclaresIn events scope name position target ∧
    ∀ earlier other, earlier < position → ¬ DeclaresIn events scope name earlier other

/-- A scope has a declaration of the name before `position`. -/
def HoldsBefore (events : List ScopeEvent) (scope : Option Nat) (name : String) (position : Nat) :
    Prop :=
  ∃ earlier target, earlier < position ∧ DeclaresIn events scope name earlier target

/-- The first declaration of a name in the innermost of the scopes that are open before `position`
and have one by then. -/
def FoundOpen (events : List ScopeEvent) (position : Nat) (name : String) (target : Binding) :
    Prop :=
  ∃ start, OpenAt events start position ∧
    (∃ first, first < position ∧ FirstIn events (some start) name first target) ∧
    ∀ inner, OpenAt events inner position → start < inner →
      ¬ HoldsBefore events (some inner) name position

/-- No scope that is open before `position` has a declaration of the name by then. -/
def FreeOpen (events : List ScopeEvent) (position : Nat) (name : String) : Prop :=
  ∀ start, OpenAt events start position → ¬ HoldsBefore events (some start) name position

/-- What a name that is used at `position` refers to: a declaration in an open scope, and if there
is none, the first declaration in the package scope, be it before or after. -/
inductive RefersTo (events : List ScopeEvent) (position : Nat) (name : String) (target : Binding) :
    Prop where
  | scope : FoundOpen events position name target → RefersTo events position name target
  | package {first : Nat} : FreeOpen events position name → FirstIn events none name first target →
      RefersTo events position name target

variable {events : List ScopeEvent} {position start : Nat} {event : ScopeEvent}

theorem depthAt_succ (here : events[position]? = some event) :
    depthAt events (position + 1) = depthAt events position + event.change := by
  simp [depthAt, List.take_add_one, here]

theorem OpenAt.lt (opened : OpenAt events start position) : start < position := opened.1

/-- A scope is open after an event if it was open before or is opened now, and the event leaves it
something to be closed. -/
theorem openAt_succ_iff (here : events[position]? = some event) :
    OpenAt events start (position + 1) ↔
      (OpenAt events start position ∨ start = position ∧ event = .opened) ∧
        depthAt events start < depthAt events (position + 1) := by
  constructor
  · rintro ⟨below, opens, deeper⟩
    refine ⟨?_, deeper _ below (Nat.le_refl _)⟩
    rcases Nat.lt_succ_iff_lt_or_eq.mp below with below | rfl
    · exact .inl ⟨below, opens, fun later above within => deeper later above (by omega)⟩
    · exact .inr ⟨rfl, Option.some.inj (here.symm.trans opens)⟩
  · rintro ⟨⟨below, opens, deeper⟩ | ⟨rfl, rfl⟩, last⟩
    · refine ⟨by omega, opens, fun later above within => ?_⟩
      rcases Nat.le_succ_iff.mp within with within | rfl
      · exact deeper later above within
      · exact last
    · refine ⟨by omega, here, fun later above within => ?_⟩
      rwa [show later = start + 1 by omega]

/-- The open scopes before a position, the innermost first. Each one was opened one step deeper than
the next. -/
structure OpenScopes (events : List ScopeEvent) (position : Nat) (starts : List Nat) : Prop where
  mem_iff : ∀ start, start ∈ starts ↔ OpenAt events start position
  sorted : (position :: starts).Pairwise (· > ·)
  nested : (position :: starts).IsChain fun inner outer =>
    depthAt events outer + 1 = depthAt events inner

namespace OpenScopes

theorem initial (events : List ScopeEvent) : OpenScopes events 0 [] where
  mem_iff start := by simp [OpenAt]
  sorted := by simp
  nested := by simp

variable {starts : List Nat}

theorem innermostAt_iff (scopes : OpenScopes events position starts) {scope : Option Nat} :
    InnermostAt events position scope ↔ scope = starts.head? := by
  have sorted := scopes.sorted
  cases starts with
  | nil =>
    have closed (start : Nat) : ¬ OpenAt events start position := by simp [← scopes.mem_iff]
    cases scope with
    | none => simpa [InnermostAt] using closed
    | some start => simp [InnermostAt, closed]
  | cons first rest =>
    have opened : OpenAt events first position := (scopes.mem_iff first).mp List.mem_cons_self
    have greatest (other : Nat) (opened : OpenAt events other position) : other ≤ first := by
      rcases List.mem_cons.mp ((scopes.mem_iff other).mpr opened) with rfl | outer
      · exact Nat.le_refl _
      · exact Nat.le_of_lt (List.rel_of_pairwise_cons (List.pairwise_cons.mp sorted).2 outer)
    cases scope with
    | none => simpa [InnermostAt] using ⟨first, opened⟩
    | some start =>
      simp only [InnermostAt, List.head?_cons, Option.some.injEq]
      constructor
      · rintro ⟨inside, above⟩
        exact Nat.le_antisymm (greatest start inside) (above first opened)
      · rintro rfl
        exact ⟨opened, greatest⟩

/-- An event that is not about scopes leaves them as they are. -/
theorem kept (scopes : OpenScopes events position starts) (here : events[position]? = some event)
    (even : event.change = 0) : OpenScopes events (position + 1) starts := by
  have same : depthAt events (position + 1) = depthAt events position := by
    rw [depthAt_succ here, even, Int.add_zero]
  have other : event ≠ .opened := by
    rintro rfl
    cases even
  refine ⟨fun start => ?_, ?_, ?_⟩
  · rw [scopes.mem_iff, openAt_succ_iff here, same]
    simp only [other, and_false, or_false]
    exact ⟨fun opened => ⟨opened, opened.2.2 _ opened.1 (Nat.le_refl _)⟩, And.left⟩
  · have sorted := scopes.sorted
    rw [List.pairwise_cons] at sorted ⊢
    exact ⟨fun start member => Nat.lt_succ_of_lt (sorted.1 start member), sorted.2⟩
  · have nested := scopes.nested
    cases starts with
    | nil => simp
    | cons first rest =>
      rw [List.isChain_cons_cons] at nested ⊢
      rwa [same]

theorem opened (scopes : OpenScopes events position starts)
    (here : events[position]? = some .opened) :
    OpenScopes events (position + 1) (position :: starts) := by
  have deeper : depthAt events (position + 1) = depthAt events position + 1 := depthAt_succ here
  refine ⟨fun start => ?_, ?_, ?_⟩
  · rw [List.mem_cons, scopes.mem_iff, openAt_succ_iff here]
    constructor
    · rintro (rfl | opened)
      · exact ⟨.inr ⟨rfl, rfl⟩, by omega⟩
      · have := opened.2.2 _ opened.1 (Nat.le_refl _)
        exact ⟨.inl opened, by omega⟩
    · rintro ⟨opened | ⟨rfl, _⟩, _⟩
      · exact .inr opened
      · exact .inl rfl
  · refine List.pairwise_cons.mpr ⟨fun start member => ?_, scopes.sorted⟩
    rcases List.mem_cons.mp member with rfl | member
    · exact Nat.lt_succ_self _
    · exact Nat.lt_succ_of_lt ((List.pairwise_cons.mp scopes.sorted).1 start member)
  · exact List.isChain_cons_cons.mpr ⟨deeper.symm, scopes.nested⟩

theorem closed (scopes : OpenScopes events position starts)
    (here : events[position]? = some .closed) :
    OpenScopes events (position + 1) starts.tail := by
  have shallower : depthAt events (position + 1) = depthAt events position - 1 := depthAt_succ here
  have sorted := scopes.sorted
  have nested := scopes.nested
  cases starts with
  | nil =>
    refine ⟨fun start => ?_, by simp, by simp⟩
    have closed : ¬ OpenAt events start position := by simp [← scopes.mem_iff]
    simp [openAt_succ_iff here, closed]
  | cons first rest =>
    rw [List.pairwise_cons, List.pairwise_cons] at sorted
    rw [List.isChain_cons_cons] at nested
    -- The depth is again the one at which the innermost scope was opened.
    have back : depthAt events (position + 1) = depthAt events first := by omega
    refine ⟨fun start => ?_, ?_, ?_⟩
    · rw [openAt_succ_iff here, ← scopes.mem_iff, back]
      constructor
      · intro member
        have opened := (scopes.mem_iff start).mp (List.mem_cons_of_mem _ member)
        exact ⟨.inl (List.mem_cons_of_mem _ member), opened.2.2 first (sorted.2.1 start member)
          (Nat.le_of_lt (sorted.1 first List.mem_cons_self))⟩
      · rintro ⟨opened | ⟨_, ⟨⟩⟩, outside⟩
        rcases List.mem_cons.mp opened with rfl | member
        · exact (Int.lt_irrefl _ outside).elim
        · exact member
    · refine List.pairwise_cons.mpr ⟨fun start member => ?_, sorted.2.2⟩
      exact Nat.lt_succ_of_lt (sorted.1 start (List.mem_cons_of_mem _ member))
    · have inner := nested.2
      cases rest with
      | nil => simp
      | cons second rest =>
        rw [List.tail_cons, List.isChain_cons_cons, back]
        exact List.isChain_cons_cons.mp inner

end OpenScopes

/-! ## First declarations -/

variable {name : String} {opening : Option Nat}

theorem exists_firstIn (holds : HoldsBefore events opening name position) :
    ∃ first target, first < position ∧ FirstIn events opening name first target := by
  obtain ⟨earlier, target, before, declares⟩ := holds
  induction earlier using Nat.strongRecOn generalizing target with
  | ind earlier ih =>
    by_cases again : HoldsBefore events opening name earlier
    · obtain ⟨first, other, preceding, declared⟩ := again
      exact ih first preceding other (Nat.lt_trans preceding before) declared
    · exact ⟨earlier, target, before, declares,
        fun first other preceding declared => again ⟨first, other, preceding, declared⟩⟩

theorem FirstIn.holdsBefore {first : Nat} {target : Binding}
    (isFirst : FirstIn events opening name first target) (before : first < position) :
    HoldsBefore events opening name position :=
  ⟨first, target, before, isFirst.1⟩

theorem FirstIn.unique {first second : Nat} {target other : Binding}
    (isFirst : FirstIn events opening name first target)
    (isSecond : FirstIn events opening name second other) : first = second ∧ target = other := by
  obtain rfl : first = second := by
    rcases Nat.lt_trichotomy first second with less | same | greater
    · exact (isSecond.2 first target less isFirst.1).elim
    · exact same
    · exact (isFirst.2 second other greater isSecond.1).elim
  obtain ⟨_, ⟨_, here⟩, _⟩ := isFirst.1
  obtain ⟨_, ⟨_, here'⟩, _⟩ := isSecond.1
  rw [here] at here'
  cases here'
  exact ⟨rfl, rfl⟩

theorem FoundOpen.not_free {target : Binding} (found : FoundOpen events position name target) :
    ¬ FreeOpen events position name := by
  obtain ⟨start, opened, ⟨first, before, isFirst⟩, _⟩ := found
  exact fun free => free start opened (isFirst.holdsBefore before)

end AssetRefs
