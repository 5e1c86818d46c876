import AssetRefs.Proofs.LexicalScopes
import AssetRefs.Proofs.ScopeLaws
import Mathlib.Data.List.Forall2

/-! # Scopes of a state

Replaying the events of a file mirrors its open scopes: after any number of events, each scope that
the state keeps has the names that were declared first in it. See `NameState.Mirrors` and
`NameState.Mirrors.step`.
-/

namespace AssetRefs

variable {events : List ScopeEvent} {position : Nat} {event : ScopeEvent} {name : String}
  {opening : Option Nat}

/-- A scope has the names that are declared first in it before `position`. -/
def Scope.Records (scope : Scope) (events : List ScopeEvent) (position : Nat)
    (opening : Option Nat) : Prop :=
  ∀ name target, scope.find? name = some target ↔
    ∃ first, first < position ∧ FirstIn events opening name first target

namespace Scope.Records

variable {scope : Scope}

theorem find?_eq_none_iff (records : scope.Records events position opening) :
    scope.find? name = none ↔ ¬ HoldsBefore events opening name position := by
  constructor
  · intro missing holds
    obtain ⟨first, target, before, isFirst⟩ := exists_firstIn holds
    rw [(records name target).mpr ⟨first, before, isFirst⟩] at missing
    cases missing
  · intro free
    cases found : scope.find? name with
    | none => rfl
    | some target =>
      obtain ⟨first, before, isFirst⟩ := (records name target).mp found
      exact (free (isFirst.holdsBefore before)).elim

/-- Where nothing is declared in a scope, it stays as it is. -/
theorem kept (records : scope.Records events position opening)
    (silent : ∀ name target, ¬ DeclaresIn events opening name position target) :
    scope.Records events (position + 1) opening := by
  intro name target
  rw [records name target, Nat.exists_lt_succ_right]
  exact (or_iff_left fun isFirst => silent name target isFirst.1).symm

variable {offset : Nat} {target : Binding}

/-- What a declared name is bound to is declared first in the scope. -/
theorem exists_firstIn_declared (records : scope.Records events position opening)
    (declares : DeclaresIn events opening name position target) :
    ∃ first, first ≤ position ∧
      FirstIn events opening name first ((scope.find? name).getD target) := by
  cases found : scope.find? name with
  | some known =>
    obtain ⟨first, before, isFirst⟩ := (records name known).mp found
    exact ⟨first, Nat.le_of_lt before, isFirst⟩
  | none =>
    have free := records.find?_eq_none_iff.mp found
    exact ⟨position, Nat.le_refl _, declares,
      fun earlier other before declared => free ⟨earlier, other, before, declared⟩⟩

theorem declared_again (records : scope.Records events position opening)
    (here : events[position]? = some (.declared name offset target)) {known : Binding}
    (found : scope.find? name = some known) :
    scope.Records events (position + 1) opening := by
  obtain ⟨earlier, preceding, isEarlier⟩ := (records name known).mp found
  intro other binding
  rw [records other binding, Nat.exists_lt_succ_right]
  refine (or_iff_left fun isFirst => ?_).symm
  obtain ⟨_, ⟨_, declared⟩, _⟩ := isFirst.1
  cases here.symm.trans declared
  exact isFirst.2 earlier known preceding isEarlier.1

theorem declared_new (records : scope.Records events position opening)
    (here : events[position]? = some (.declared name offset target)) (plain : name ≠ "_")
    (innermost : InnermostAt events position opening) (missing : scope.find? name = none) :
    Records ((name, target) :: scope) events (position + 1) opening := by
  have free := records.find?_eq_none_iff.mp missing
  have isFirst : FirstIn events opening name position target :=
    ⟨⟨plain, ⟨offset, here⟩, innermost⟩,
      fun earlier other before declared => free ⟨earlier, other, before, declared⟩⟩
  intro other binding
  by_cases same : other = name
  · subst same
    have added : Scope.find? ((other, target) :: scope) other = some target := by simp [Scope.find?]
    rw [added]
    constructor
    · rintro ⟨⟩
      exact ⟨position, Nat.lt_succ_self _, isFirst⟩
    · rintro ⟨first, _, isOther⟩
      rw [(isFirst.unique isOther).2]
  · have passed : Scope.find? ((name, target) :: scope) other = scope.find? other := by
      simp [Scope.find?, List.lookup_cons, beq_false_of_ne same]
    rw [passed, records other binding, Nat.exists_lt_succ_right]
    refine (or_iff_left fun isOther => ?_).symm
    obtain ⟨_, ⟨_, declared⟩, _⟩ := isOther.1
    cases here.symm.trans declared
    exact same rfl

/-- A name that is declared in a scope is there afterwards. -/
theorem add (records : scope.Records events position opening)
    (here : events[position]? = some (.declared name offset target)) (plain : name ≠ "_")
    (innermost : InnermostAt events position opening) :
    (scope.add name target).Records events (position + 1) opening := by
  unfold Scope.add
  cases found : scope.find? name with
  | some known => exact records.declared_again here found
  | none => exact records.declared_new here plain innermost found

end Scope.Records

/-- The scopes of a state are the open scopes before `position` and the package scope. -/
structure NameState.Mirrors (state : NameState) (events : List ScopeEvent) (position : Nat)
    (starts : List Nat) : Prop where
  scopes : OpenScopes events position starts
  locals : List.Forall₂ (fun scope start => scope.Records events position (some start))
    state.locals starts
  package : state.package.Records events position none

namespace NameState.Mirrors

variable {state : NameState} {starts : List Nat}

theorem initial (events : List ScopeEvent) : Mirrors {} events 0 [] where
  scopes := .initial events
  locals := .nil
  package name target := by simp [Scope.find?]

theorem innermost (mirrors : state.Mirrors events position starts) :
    state.innermost.Records events position starts.head? := by
  obtain ⟨locals, package, bindings, waiting, packageName⟩ := state
  obtain ⟨_, locals, package⟩ := mirrors
  unfold NameState.innermost
  cases locals with
  | nil => exact package
  | cons records _ => exact records

/-- Scopes in which nothing is declared stay as they are. -/
theorem forall₂_kept {scopes : List Scope} {starts : List Nat}
    (records : List.Forall₂ (fun scope start => Scope.Records scope events position (some start))
      scopes starts)
    (silent : ∀ start ∈ starts, ∀ name target,
      ¬ DeclaresIn events (some start) name position target) :
    List.Forall₂ (fun scope start => Scope.Records scope events (position + 1) (some start))
      scopes starts := by
  induction records with
  | nil => exact .nil
  | cons first _ ih =>
    rw [List.forall_mem_cons] at silent
    exact .cons (first.kept silent.1) (ih silent.2)

/-- An event that declares nothing leaves the scopes that stay open as they are. -/
theorem step_silent (mirrors : state.Mirrors events position starts)
    (silent : ∀ opening name target, ¬ DeclaresIn events opening name position target) :
    List.Forall₂ (fun scope start => Scope.Records scope events (position + 1) (some start))
      state.locals starts ∧ state.package.Records events (position + 1) none :=
  ⟨forall₂_kept mirrors.locals fun start _ => silent (some start),
    mirrors.package.kept (silent none)⟩

/-- A declaration changes no scope but the innermost one. -/
theorem declare (mirrors : state.Mirrors events position starts) {offset : Nat} {target : Binding}
    (here : events[position]? = some (.declared name offset target)) :
    (state.declare name offset target).Mirrors events (position + 1) starts := by
  have scopes := mirrors.scopes.kept here rfl
  have silent {opening : Option Nat} (outer : name = "_" ∨ opening ≠ starts.head?) (other : String)
      (binding : Binding) : ¬ DeclaresIn events opening other position binding := by
    rintro ⟨plain, ⟨_, declared⟩, innermost⟩
    cases here.symm.trans declared
    exact outer.elim plain (· (mirrors.scopes.innermostAt_iff.mp innermost))
  by_cases blank : name = "_"
  · obtain ⟨locals, package⟩ := mirrors.step_silent fun _ => silent (.inl blank)
    rw [NameState.declare, if_pos blank]
    exact ⟨scopes, locals, package⟩
  · have innermost := mirrors.scopes.innermostAt_iff.mpr rfl
    rw [state.declare_eq offset target blank]
    obtain ⟨locals, package, bindings, waiting, packageName⟩ := state
    obtain ⟨opened, locals, package⟩ := mirrors
    cases locals with
    | nil => exact ⟨scopes, .nil, package.add here blank innermost⟩
    | cons records outer =>
      have sorted := (List.pairwise_cons.mp (List.pairwise_cons.mp opened.sorted).2).1
      refine ⟨scopes, .cons (records.add here blank innermost) (forall₂_kept outer ?_),
        package.kept (silent (.inr (by simp)))⟩
      intro start member
      refine silent (.inr fun same => ?_)
      cases same
      exact Nat.lt_irrefl _ (sorted _ member)

theorem step (mirrors : state.Mirrors events position starts)
    (here : events[position]? = some event) :
    ∃ starts, (state.step event).Mirrors events (position + 1) starts := by
  have other (quiet : ∀ name offset target, event ≠ .declared name offset target) :=
    mirrors.step_silent (fun opening name target declares => by
      obtain ⟨_, ⟨offset, declared⟩, _⟩ := declares
      exact quiet name offset target (Option.some.inj (here.symm.trans declared)))
  cases event with
  | opened =>
    obtain ⟨locals, package⟩ := other (by simp)
    refine ⟨_, mirrors.scopes.opened here, .cons (fun name target => ?_) locals, package⟩
    simp only [Scope.find?, List.lookup_nil, reduceCtorEq, false_iff]
    rintro ⟨first, before, ⟨_, _, inside⟩, _⟩
    have := inside.1.lt
    omega
  | closed =>
    obtain ⟨locals, package⟩ := other (by simp)
    refine ⟨_, mirrors.scopes.closed here, ?_, package⟩
    rw [← List.drop_one, NameState.step, ← List.drop_one]
    exact List.forall₂_drop 1 locals
  | declared name offset target => exact ⟨starts, mirrors.declare here⟩
  | used name offset =>
    obtain ⟨locals, package⟩ := other (by simp)
    refine ⟨starts, mirrors.scopes.kept here rfl, ?_, ?_⟩
    · rwa [NameState.step, NameState.use_locals]
    · rwa [NameState.step, NameState.use_package]
  | package name =>
    obtain ⟨locals, package⟩ := other (by simp)
    exact ⟨starts, mirrors.scopes.kept here rfl, locals, package⟩

end NameState.Mirrors

/-! ## Looking names up -/

/-- Scopes that record first declarations, the innermost first, are searched from the inside. -/
theorem findSome?_eq_some_iff_of_records {scopes : List Scope} {starts : List Nat}
    (records : List.Forall₂ (fun scope start => Scope.Records scope events position (some start))
      scopes starts) (sorted : starts.Pairwise (· > ·)) {target : Binding} :
    scopes.findSome? (·.find? name) = some target ↔
      ∃ start ∈ starts,
        (∃ first, first < position ∧ FirstIn events (some start) name first target) ∧
        ∀ inner ∈ starts, start < inner → ¬ HoldsBefore events (some inner) name position := by
  induction records with
  | nil => simp
  | @cons scope start scopes starts records _ ih =>
    rw [List.pairwise_cons] at sorted
    rw [List.findSome?_cons]
    cases found : scope.find? name with
    | some known =>
      obtain ⟨first, before, isFirst⟩ := (records name known).mp found
      simp only [Option.some.injEq]
      constructor
      · rintro rfl
        refine ⟨start, List.mem_cons_self, ⟨first, before, isFirst⟩, fun inner member deeper => ?_⟩
        rcases List.mem_cons.mp member with rfl | member
        · exact (Nat.lt_irrefl _ deeper).elim
        · exact (Nat.lt_asymm deeper (sorted.1 inner member)).elim
      · rintro ⟨other, member, ⟨second, _, isSecond⟩, free⟩
        rcases List.mem_cons.mp member with rfl | member
        · exact (isFirst.unique isSecond).2
        · exact (free start List.mem_cons_self (sorted.1 other member)
            (isFirst.holdsBefore before)).elim
    | none =>
      have free := records.find?_eq_none_iff.mp found
      simp only [ih sorted.2]
      constructor
      · rintro ⟨other, member, isFirst, outer⟩
        refine ⟨other, List.mem_cons_of_mem _ member, isFirst, fun inner member deeper => ?_⟩
        rcases List.mem_cons.mp member with rfl | member
        · exact free
        · exact outer inner member deeper
      · rintro ⟨other, member, ⟨first, before, isFirst⟩, outer⟩
        rcases List.mem_cons.mp member with rfl | member
        · exact (free (isFirst.holdsBefore before)).elim
        · exact ⟨other, member, ⟨first, before, isFirst⟩,
            fun inner member => outer inner (List.mem_cons_of_mem _ member)⟩

theorem findSome?_eq_none_iff_of_records {scopes : List Scope} {starts : List Nat}
    (records : List.Forall₂ (fun scope start => Scope.Records scope events position (some start))
      scopes starts) :
    scopes.findSome? (·.find? name) = none ↔
      ∀ start ∈ starts, ¬ HoldsBefore events (some start) name position := by
  induction records with
  | nil => simp
  | cons records _ ih =>
    rw [List.findSome?_eq_none_iff, List.forall_mem_cons, ← List.findSome?_eq_none_iff,
      List.forall_mem_cons, ih, records.find?_eq_none_iff]

namespace NameState.Mirrors

variable {state : NameState} {starts : List Nat}

theorem found_iff (mirrors : state.Mirrors events position starts) {target : Binding} :
    state.locals.findSome? (·.find? name) = some target ↔
      FoundOpen events position name target := by
  have sorted := (List.pairwise_cons.mp mirrors.scopes.sorted).2
  rw [findSome?_eq_some_iff_of_records mirrors.locals sorted]
  simp only [mirrors.scopes.mem_iff, FoundOpen]

theorem free_iff (mirrors : state.Mirrors events position starts) :
    state.locals.findSome? (·.find? name) = none ↔ FreeOpen events position name := by
  rw [findSome?_eq_none_iff_of_records mirrors.locals]
  simp only [mirrors.scopes.mem_iff, FreeOpen]

end NameState.Mirrors

end AssetRefs
