import AssetRefs.Proofs.EventOrigins
import AssetRefs.Proofs.ScopeMirrors

/-! # Name resolution

The binding table of a file is the one of lexical scoping: see `names_refer_lexically`.

The scopes of a state mirror the open scopes of the file, so an event binds its name as lexical
scoping says (`BindsAt`), and names at different offsets are independent of each other. What is
bound is in the table after any number of events (`NameState.Tabulates`) and at the end of the file
(`NameState.find?_finish_iff`).
-/

namespace AssetRefs

/-- The offset of the name that an event is about. -/
def ScopeEvent.offset? : ScopeEvent → Option Nat
  | declared _ offset _ | used _ offset => some offset
  | _ => none

/-- No two events are about names at the same offset. -/
def OffsetsApart (events : List ScopeEvent) : Prop :=
  (events.filterMap ScopeEvent.offset?).Nodup

instance (events : List ScopeEvent) : Decidable (OffsetsApart events) :=
  inferInstanceAs (Decidable (List.Nodup _))

variable {events : List ScopeEvent} {position : Nat} {event : ScopeEvent} {name : String}
  {opening : Option Nat}

/-! ## What an event binds -/

/-- The event at `position` binds the name at an offset right away. -/
inductive BindsAt (events : List ScopeEvent) (position offset : Nat) (target : Binding) : Prop where
  | declared {name : String} {own : Binding} {scope : Option Nat} {first : Nat} :
      events[position]? = some (.declared name offset own) → InnermostAt events position scope →
      FirstIn events scope name first target → BindsAt events position offset target
  | used {name : String} : events[position]? = some (.used name offset) →
      FoundOpen events position name target → BindsAt events position offset target

theorem BindsAt.about {offset : Nat} {target : Binding}
    (binds : BindsAt events position offset target) :
    ∃ event, events[position]? = some event ∧ event.offset? = some offset := by
  cases binds with
  | declared here _ _ => exact ⟨_, here, rfl⟩
  | used here _ => exact ⟨_, here, rfl⟩

theorem FirstIn.told {first : Nat} {target : Binding}
    (isFirst : FirstIn events opening name first target) : Told events target := by
  obtain ⟨_, ⟨offset, declared⟩, _⟩ := isFirst.1
  exact ⟨name, offset, List.mem_of_getElem? declared⟩

namespace NameState.Mirrors

variable {state : NameState} {starts : List Nat}

/-- A declaration binds its name to the first declaration in the scope. -/
theorem bindsAt_declared_iff (mirrors : state.Mirrors events position starts) {offset : Nat}
    {own : Binding} (here : events[position]? = some (.declared name offset own))
    (plain : name ≠ "_") {other : Nat} {target : Binding} :
    BindsAt events position other target ↔
      other = offset ∧ target = (state.innermost.find? name).getD own := by
  have innermost := mirrors.scopes.innermostAt_iff.mpr rfl
  obtain ⟨first, _, isFirst⟩ :=
    mirrors.innermost.exists_firstIn_declared ⟨plain, ⟨offset, here⟩, innermost⟩
  constructor
  · intro binds
    cases binds with
    | declared declared inside isOther =>
      cases here.symm.trans declared
      rw [mirrors.scopes.innermostAt_iff.mp inside] at isOther
      exact ⟨rfl, (isOther.unique isFirst).2⟩
    | used used _ => cases here.symm.trans used
  · rintro ⟨rfl, rfl⟩
    exact .declared here innermost isFirst

theorem bindsAt_used_iff (mirrors : state.Mirrors events position starts) {offset : Nat}
    (here : events[position]? = some (.used name offset)) {other : Nat} {target : Binding} :
    BindsAt events position other target ↔
      other = offset ∧ state.locals.findSome? (·.find? name) = some target := by
  rw [mirrors.found_iff]
  constructor
  · intro binds
    cases binds with
    | declared declared _ _ => cases here.symm.trans declared
    | used used found =>
      cases here.symm.trans used
      exact ⟨rfl, found⟩
  · rintro ⟨rfl, found⟩
    exact .used here found

end NameState.Mirrors

/-! ## The table of a file -/

theorem OffsetsApart.unique (apart : OffsetsApart events) {first second offset : Nat}
    {event other : ScopeEvent} (here : events[first]? = some event)
    (about : event.offset? = some offset) (there : events[second]? = some other)
    (same : other.offset? = some offset) :
    first = second := by
  unfold OffsetsApart at apart
  induction events generalizing first second with
  | nil => cases here
  | cons head rest ih =>
    have later {position : Nat} {event : ScopeEvent} (found : rest[position]? = some event)
        (same : event.offset? = some offset) : offset ∈ rest.filterMap ScopeEvent.offset? :=
      List.mem_filterMap.mpr ⟨event, List.mem_of_getElem? found, same⟩
    cases first with
    | zero =>
      cases here
      rw [List.filterMap_cons_some about, List.nodup_cons] at apart
      cases second with
      | zero => rfl
      | succ second => exact (apart.1 (later there same)).elim
    | succ first =>
      cases second with
      | zero =>
        cases there
        rw [List.filterMap_cons_some same, List.nodup_cons] at apart
        exact (apart.1 (later here about)).elim
      | succ second =>
        have apart : (rest.filterMap ScopeEvent.offset?).Nodup := by
          refine apart.sublist ?_
          exact (List.sublist_cons_self head rest).filterMap _
        rw [ih apart here there]

/-- The table of a state has what the events before `position` bind right away, and the uses that no
open scope answers wait. -/
structure NameState.Tabulates (state : NameState) (events : List ScopeEvent) (position : Nat) :
    Prop where
  drawn : state.bindings.DrawnFrom (Told events)
  bindings : ∀ offset target, state.bindings.find? offset = some target ↔
    ∃ earlier, earlier < position ∧ BindsAt events earlier offset target
  waiting : ∀ offset name, (offset, name) ∈ state.waiting ↔
    ∃ earlier, earlier < position ∧ events[earlier]? = some (.used name offset) ∧
      FreeOpen events earlier name

namespace NameState.Tabulates

variable {state : NameState} {starts : List Nat}

theorem initial (events : List ScopeEvent) : Tabulates {} events 0 where
  drawn := BindingTable.drawnFrom_empty _
  bindings offset target := by simp [BindingTable.find?_empty]
  waiting offset name := by simp

/-- An event that binds no name leaves the table as it is. -/
theorem bindings_kept (tabulates : state.Tabulates events position)
    (silent : ∀ offset target, ¬ BindsAt events position offset target) (offset : Nat)
    (target : Binding) :
    state.bindings.find? offset = some target ↔
      ∃ earlier, earlier < position + 1 ∧ BindsAt events earlier offset target := by
  rw [tabulates.bindings, Nat.exists_lt_succ_right]
  exact (or_iff_left (silent offset target)).symm

/-- An event that binds a name changes the table at its offset only. -/
theorem bindings_insert (tabulates : state.Tabulates events position)
    (coherent : Coherent (Told events)) (apart : OffsetsApart events)
    (here : events[position]? = some event) {offset : Nat} (about : event.offset? = some offset)
    {target : Binding} (told : Told events target)
    (binds : ∀ other found, BindsAt events position other found ↔ other = offset ∧ found = target)
    (other : Nat) (found : Binding) :
    (state.bindings.insert offset target).find? other = some found ↔
      ∃ earlier, earlier < position + 1 ∧ BindsAt events earlier other found := by
  rw [BindingTable.find?_insert coherent tabulates.drawn offset told, Nat.exists_lt_succ_right,
    binds]
  split_ifs with same
  · subst same
    simp only [Option.some.injEq, true_and]
    constructor
    · rintro rfl
      exact .inr rfl
    · rintro (⟨earlier, before, bound⟩ | rfl)
      · obtain ⟨event', there, about'⟩ := bound.about
        rw [apart.unique there about' here about] at before
        exact (Nat.lt_irrefl _ before).elim
      · rfl
  · rw [tabulates.bindings]
    exact (or_iff_left fun bound => same bound.1.symm).symm

theorem waiting_kept (tabulates : state.Tabulates events position)
    (here : events[position]? = some event)
    (answered : ∀ name offset, event = .used name offset → ¬ FreeOpen events position name)
    (offset : Nat) (name : String) :
    (offset, name) ∈ state.waiting ↔
      ∃ earlier, earlier < position + 1 ∧ events[earlier]? = some (.used name offset) ∧
        FreeOpen events earlier name := by
  rw [tabulates.waiting, Nat.exists_lt_succ_right]
  refine (or_iff_left fun waits => ?_).symm
  exact answered name offset (Option.some.inj (here.symm.trans waits.1)) waits.2

theorem use (tabulates : state.Tabulates events position) (coherent : Coherent (Told events))
    (apart : OffsetsApart events) (mirrors : state.Mirrors events position starts) {offset : Nat}
    (here : events[position]? = some (.used name offset)) :
    (state.use name offset).Tabulates events (position + 1) := by
  unfold NameState.use
  cases found : state.locals.findSome? (·.find? name) with
  | some target =>
    obtain ⟨_, _, ⟨first, _, isFirst⟩, _⟩ := mirrors.found_iff.mp found
    have answered : ¬ FreeOpen events position name := by
      rw [← mirrors.free_iff, found]
      simp
    refine ⟨tabulates.drawn.insert offset isFirst.told, ?_, ?_⟩
    · refine tabulates.bindings_insert coherent apart here rfl isFirst.told fun other known => ?_
      rw [mirrors.bindsAt_used_iff here, found, Option.some.injEq, eq_comm (a := target)]
    · refine tabulates.waiting_kept here ?_
      rintro _ _ ⟨⟩
      exact answered
  | none =>
    refine ⟨tabulates.drawn, ?_, fun other spelling => ?_⟩
    · refine tabulates.bindings_kept fun other target bound => ?_
      rw [mirrors.bindsAt_used_iff here, found] at bound
      cases bound.2
    · have free := mirrors.free_iff.mp found
      rw [List.mem_cons, tabulates.waiting, Nat.exists_lt_succ_right, or_comm]
      refine or_congr_right ⟨?_, ?_⟩
      · rintro ⟨⟩
        exact ⟨here, free⟩
      · rintro ⟨used, _⟩
        cases here.symm.trans used
        rfl

theorem declare (tabulates : state.Tabulates events position) (coherent : Coherent (Told events))
    (apart : OffsetsApart events) (mirrors : state.Mirrors events position starts) {offset : Nat}
    {target : Binding} (here : events[position]? = some (.declared name offset target)) :
    (state.declare name offset target).Tabulates events (position + 1) := by
  have waiting := tabulates.waiting_kept here (by simp)
  by_cases plain : name = "_"
  · rw [NameState.declare, if_pos plain]
    refine ⟨tabulates.drawn, tabulates.bindings_kept fun other found bound => ?_, waiting⟩
    cases bound with
    | declared declared _ isFirst =>
      cases here.symm.trans declared
      exact isFirst.1.1 plain
    | used used _ => cases here.symm.trans used
  · have innermost := mirrors.scopes.innermostAt_iff.mpr rfl
    obtain ⟨first, _, isFirst⟩ :=
      mirrors.innermost.exists_firstIn_declared ⟨plain, ⟨offset, here⟩, innermost⟩
    rw [state.declare_eq offset target plain]
    refine ⟨tabulates.drawn.insert offset isFirst.told, ?_, ?_⟩
    · exact tabulates.bindings_insert coherent apart here rfl isFirst.told
        fun _ _ => mirrors.bindsAt_declared_iff here plain
    · cases state.locals with
      | nil => exact waiting
      | cons scope outer => exact waiting

/-- One event keeps the table in line with what events bind. -/
theorem step (tabulates : state.Tabulates events position) (coherent : Coherent (Told events))
    (apart : OffsetsApart events) (mirrors : state.Mirrors events position starts)
    (here : events[position]? = some event) :
    (state.step event).Tabulates events (position + 1) := by
  have other (silent : event.offset? = none) : state.Tabulates events (position + 1) := by
    refine ⟨tabulates.drawn, tabulates.bindings_kept fun offset target bound => ?_,
      tabulates.waiting_kept here fun name offset used => ?_⟩
    · obtain ⟨event', there, about⟩ := bound.about
      cases here.symm.trans there
      cases silent.symm.trans about
    · rw [used] at silent
      cases silent
  cases event with
  | declared name offset target => exact tabulates.declare coherent apart mirrors here
  | used name offset => exact tabulates.use coherent apart mirrors here
  | opened =>
    obtain ⟨drawn, bindings, waiting⟩ := other rfl
    exact ⟨drawn, bindings, waiting⟩
  | closed =>
    obtain ⟨drawn, bindings, waiting⟩ := other rfl
    exact ⟨drawn, bindings, waiting⟩
  | package name =>
    obtain ⟨drawn, bindings, waiting⟩ := other rfl
    exact ⟨drawn, bindings, waiting⟩

end NameState.Tabulates

theorem NameState.replay_take_succ (state : NameState) (here : events[position]? = some event) :
    state.replay (events.take (position + 1)) =
      (state.replay (events.take position)).step event := by
  simp [replay, List.take_add_one, here]

/-- After any number of events the state mirrors the open scopes and the table is in line with what
the events bind. -/
theorem NameState.replay_mirrors (coherent : Coherent (Told events)) (apart : OffsetsApart events)
    (within : position ≤ events.length) :
    ∃ starts, (replay {} (events.take position)).Mirrors events position starts ∧
      (replay {} (events.take position)).Tabulates events position := by
  induction position with
  | zero => exact ⟨[], .initial events, .initial events⟩
  | succ position ih =>
    obtain ⟨starts, mirrors, tabulates⟩ := ih (Nat.le_of_succ_le within)
    have here : events[position]? = some events[position] := List.getElem?_eq_getElem within
    rw [replay_take_succ _ here]
    obtain ⟨next, stepped⟩ := mirrors.step here
    exact ⟨next, stepped, tabulates.step coherent apart mirrors here⟩

/-- Some event binds the name at an offset, right away or, if no open scope answers it, at the end
of the file. -/
inductive Resolves (events : List ScopeEvent) (offset : Nat) (target : Binding) : Prop where
  | atOnce {position : Nat} : BindsAt events position offset target →
      Resolves events offset target
  | late {position first : Nat} {name : String} : events[position]? = some (.used name offset) →
      FreeOpen events position name → FirstIn events none name first target →
      Resolves events offset target

/-- The final table has what the events of the file bind. -/
theorem NameState.find?_finish_iff {state : NameState} {starts : List Nat}
    (coherent : Coherent (Told events)) (apart : OffsetsApart events)
    (mirrors : state.Mirrors events events.length starts)
    (tabulates : state.Tabulates events events.length) {offset : Nat} {target : Binding} :
    state.finish.find? offset = some target ↔ Resolves events offset target := by
  have within {position : Nat} {event : ScopeEvent} (here : events[position]? = some event) :
      position < events.length := (List.getElem?_eq_some_iff.mp here).1
  have listed (name : String) (target : Binding) (found : state.package.find? name = some target) :
      Told events target := by
    obtain ⟨first, _, isFirst⟩ := (mirrors.package name target).mp found
    exact isFirst.told
  have single (offset : Nat) (first second : String)
      (here : (offset, first) ∈ state.waiting.reverse)
      (there : (offset, second) ∈ state.waiting.reverse) : first = second := by
    rw [List.mem_reverse, tabulates.waiting] at here there
    obtain ⟨position, _, used, _⟩ := here
    obtain ⟨other, _, used', _⟩ := there
    rw [apart.unique used rfl used' rfl] at used
    cases used.symm.trans used'
    rfl
  have answers : state.finish.find? offset = _ :=
    Scope.find?_foldl_answer coherent listed tabulates.drawn single offset
  rw [answers]
  cases waits : state.waiting.reverse.lookup offset with
  | none =>
    rw [Option.bind_none, Option.none_or, tabulates.bindings]
    constructor
    · rintro ⟨position, _, binds⟩
      exact .atOnce binds
    · rintro (binds | ⟨used, free, _⟩)
      · obtain ⟨_, here, _⟩ := binds.about
        exact ⟨_, within here, binds⟩
      · have entry := (tabulates.waiting offset _).mpr ⟨_, within used, used, free⟩
        have missing := List.lookup_eq_none_iff.mp waits _ (List.mem_reverse.mpr entry)
        simp at missing
  | some name =>
    have entry := List.mem_reverse.mp (mem_of_lookup waits)
    obtain ⟨position, _, used, free⟩ := (tabulates.waiting offset name).mp entry
    have unbound {other : Nat} {target : Binding} : ¬ BindsAt events other offset target := by
      intro binds
      obtain ⟨_, here, about⟩ := binds.about
      obtain rfl := apart.unique here about used rfl
      cases binds with
      | declared declared _ _ => cases used.symm.trans declared
      | used used' found =>
        cases used.symm.trans used'
        exact found.not_free free
    have missing : state.bindings.find? offset = none := by
      refine Option.eq_none_iff_forall_ne_some.mpr fun target found => ?_
      obtain ⟨_, _, binds⟩ := (tabulates.bindings offset target).mp found
      exact unbound binds
    rw [Option.bind_some, missing, Option.or_none, mirrors.package]
    constructor
    · rintro ⟨first, _, isFirst⟩
      exact .late used free isFirst
    · rintro (binds | ⟨used', _, isFirst⟩)
      · exact (unbound binds).elim
      · obtain rfl := apart.unique used' rfl used rfl
        cases used.symm.trans used'
        obtain ⟨_, ⟨_, here⟩, _⟩ := isFirst.1
        exact ⟨_, within here, isFirst⟩

theorem resolves_iff_refersTo (apart : OffsetsApart events) {offset : Nat} {target : Binding}
    (used : events[position]? = some (.used name offset)) :
    Resolves events offset target ↔ RefersTo events position name target := by
  constructor
  · rintro (binds | ⟨used', free, isFirst⟩)
    · obtain ⟨_, here, about⟩ := binds.about
      obtain rfl := apart.unique here about used rfl
      cases binds with
      | declared declared _ _ => cases used.symm.trans declared
      | used used' found =>
        cases used.symm.trans used'
        exact .scope found
    · obtain rfl := apart.unique used' rfl used rfl
      cases used.symm.trans used'
      exact .package free isFirst
  · rintro (found | ⟨free, isFirst⟩)
    · exact .atOnce (.used used found)
    · exact .late used free isFirst

theorem not_resolves_blank (apart : OffsetsApart events) {offset : Nat} {own target : Binding}
    (declared : events[position]? = some (.declared "_" offset own)) :
    ¬ Resolves events offset target := by
  rintro (binds | ⟨used, _, _⟩)
  · obtain ⟨_, here, about⟩ := binds.about
    obtain rfl := apart.unique here about declared rfl
    cases binds with
    | declared again _ isFirst =>
      cases declared.symm.trans again
      exact isFirst.1.1 rfl
    | used used _ => cases declared.symm.trans used
  · obtain rfl := apart.unique used rfl declared rfl
    cases declared.symm.trans used

theorem Resolves.about {offset : Nat} {target : Binding}
    (resolves : Resolves events offset target) :
    ∃ event ∈ events, event.offset? = some offset := by
  cases resolves with
  | atOnce binds =>
    obtain ⟨event, here, about⟩ := binds.about
    exact ⟨event, List.mem_of_getElem? here, about⟩
  | late used _ _ => exact ⟨_, List.mem_of_getElem? used, rfl⟩

/-- Names refer to declarations by lexical scope. A name that is used refers to its first
declaration in the innermost open scope that has one by then, else to its first declaration in the
package scope. A name that is declared refers to its first declaration in the same scope, except for
`_`, which refers to nothing. Nothing else is in the table. -/
theorem names_refer_lexically {source : ByteArray} {path : String} {root : Concrete} {limit : Nat}
    {tree : SyntaxTree} {node : Node} (lowered : lowerFile source path root limit = .ok tree)
    (told : lower source limit [] root = .ok (node, events)) (apart : OffsetsApart events) :
    (∀ position name offset, events[position]? = some (.used name offset) →
      ∀ target, tree.bindings.find? offset = some target ↔ RefersTo events position name target) ∧
    (∀ (position : Nat) name offset own,
      events[position]? = some (.declared name offset own) → name ≠ "_" →
      ∃ scope first target, InnermostAt events position scope ∧
        FirstIn events scope name first target ∧ tree.bindings.find? offset = some target) ∧
    (∀ (position offset : Nat) own, events[position]? = some (.declared "_" offset own) →
      tree.bindings.find? offset = none) ∧
    ∀ offset target, tree.bindings.find? offset = some target →
      ∃ event ∈ events, event.offset? = some offset := by
  have coherent := coherent_of_lower told
  obtain ⟨starts, mirrors, tabulates⟩ :=
    NameState.replay_mirrors coherent apart (Nat.le_refl events.length)
  rw [List.take_length] at mirrors tabulates
  have bindings : tree.bindings = (NameState.replay {} events).finish := by
    simp only [lowerFile, told] at lowered
    cases lowered
    rfl
  have found_iff (offset : Nat) (target : Binding) :
      tree.bindings.find? offset = some target ↔ Resolves events offset target := by
    rw [bindings]
    exact NameState.find?_finish_iff coherent apart mirrors tabulates
  refine ⟨?_, ?_, ?_, ?_⟩
  · intro position name offset used target
    rw [found_iff, resolves_iff_refersTo apart used]
  · intro position name offset own declared plain
    obtain ⟨_, before, _⟩ := NameState.replay_mirrors coherent apart
      (Nat.le_of_lt (List.getElem?_eq_some_iff.mp declared).1)
    have innermost := before.scopes.innermostAt_iff.mpr rfl
    obtain ⟨first, target, _, isFirst⟩ := exists_firstIn
      ⟨position, own, Nat.lt_succ_self position, plain, ⟨offset, declared⟩, innermost⟩
    exact ⟨_, first, target, innermost, isFirst,
      (found_iff offset target).mpr (.atOnce (.declared declared innermost isFirst))⟩
  · intro position offset own declared
    refine Option.eq_none_iff_forall_ne_some.mpr fun target found => ?_
    exact not_resolves_blank apart declared ((found_iff offset target).mp found)
  · exact fun offset target found => ((found_iff offset target).mp found).about

/-- The source of a file in which a variable of the package and one of a block have one name. -/
def shadowedSource : ByteArray := "func f() { y; { y := 1; y; y, _ := 2, 3 } } var y = 4".toUTF8

/-- The tree of `shadowedSource`. -/
def shadowedFile : Concrete :=
  .node { kind := "source_file" }
    [.node { kind := "function_declaration" }
      [.leaf "identifier" "name" 5 6,
        .node { kind := "block", field := some "body" }
          [.leaf "identifier" "" 11 12,
            .node { kind := "block" }
              [.node { kind := "short_var_declaration" }
                [.leaf "identifier" "left" 16 17, .leaf "int_literal" "right" 21 22],
              .leaf "identifier" "" 24 25,
              .node { kind := "short_var_declaration" }
                [.node { kind := "expression_list", field := some "left" }
                  [.leaf "identifier" "" 27 28, .leaf "identifier" "" 30 31],
                .node { kind := "expression_list", field := some "right" }
                  [.leaf "int_literal" "" 35 36, .leaf "int_literal" "" 38 39]]]]],
    .node { kind := "var_declaration" }
      [.node { kind := "var_spec" }
        [.leaf "identifier" "name" 48 49, .leaf "int_literal" "value" 52 53]]]

/-- The declaration `y := 1`. -/
def blockVariable : Declaration :=
  .assignment ⟨"short_var_declaration", 1, 1⟩ [.ident ⟨"identifier", 1, 17⟩ "y" 16]
    [.literal ⟨"int_literal", 1, 22⟩ "1"] true

/-- The declaration `y, _ := 2, 3`. -/
def blockRedeclaration : Declaration :=
  .assignment ⟨"short_var_declaration", 1, 1⟩
    [.ident ⟨"identifier", 1, 28⟩ "y" 27, .ident ⟨"identifier", 1, 31⟩ "_" 30]
    [.literal ⟨"int_literal", 1, 36⟩ "2", .literal ⟨"int_literal", 1, 39⟩ "3"] true

/-- The declaration `y = 4`. -/
def packageVariable : Declaration :=
  .valueSpec ⟨"var_spec", 1, 1⟩ [.ident ⟨"identifier", 1, 49⟩ "y" 48] none
    [.literal ⟨"int_literal", 1, 53⟩ "4"] false

/-- The root of `shadowedFile` after lowering. -/
def shadowedRoot : Node :=
  .generic ⟨"source_file", 1, 1⟩
    [.function ⟨"function_declaration", 1, 1⟩ "f" [] (some [.ident ⟨"identifier", 1, 12⟩ "y" 11,
      .generic ⟨"block", 1, 1⟩ [blockVariable.node, .ident ⟨"identifier", 1, 25⟩ "y" 24,
        blockRedeclaration.node]]),
    .group ⟨"var_declaration", 1, 1⟩ [packageVariable.node]]

/-- The events of `shadowedFile`. -/
def shadowedEvents : List ScopeEvent :=
  [.declared "f" 5 (.marker .func), .opened, .used "y" 11, .opened,
    .declared "y" 16 (.declaration [0, 1, 0] blockVariable), .used "y" 24,
    .declared "y" 27 (.declaration [2, 1, 0] blockRedeclaration),
    .declared "_" 30 (.declaration [2, 1, 0] blockRedeclaration), .closed, .closed,
    .declared "y" 48 (.declaration [0, 1] packageVariable)]

theorem lower_shadowedFile :
    lower shadowedSource nestingLimit [] shadowedFile = .ok (shadowedRoot, shadowedEvents) := by
  rw [nestingLimit, lower_of_isShapeless _ _ _ (by decide +kernel), lowerGeneric_eq,
    lowerAll_lowerPart (by decide +kernel)]
  with_unfolding_all rfl

/-- Before the block has the name, it refers to the variable of the package, which is declared
later. In the block it refers to the first variable there. -/
theorem names_refer_lexically_shadowed :
    ∃ tree, lowerFile shadowedSource "main.go" shadowedFile = .ok tree ∧
      lower shadowedSource nestingLimit [] shadowedFile = .ok (shadowedRoot, shadowedEvents) ∧
      OffsetsApart shadowedEvents ∧
      RefersTo shadowedEvents 2 "y" (.declaration [0, 1] packageVariable) ∧
      RefersTo shadowedEvents 5 "y" (.declaration [0, 1, 0] blockVariable) ∧
      (∃ scope first target, InnermostAt shadowedEvents 6 scope ∧
        FirstIn shadowedEvents scope "y" first target ∧ tree.bindings.find? 27 = some target) ∧
      tree.bindings.find? 30 = none := by
  have apart : OffsetsApart shadowedEvents := by decide
  have lowered : lowerFile shadowedSource "main.go" shadowedFile = .ok
      { path := "main.go", root := shadowedRoot, package := none
        bindings := (NameState.replay {} shadowedEvents).finish } := by
    rw [lowerFile, lower_shadowedFile]
    rfl
  obtain ⟨used, declared, blank, _⟩ := names_refer_lexically lowered lower_shadowedFile apart
  refine ⟨_, lowered, lower_shadowedFile, apart, ?_, ?_, ?_, ?_⟩
  · exact (used 2 "y" 11 rfl _).mp rfl
  · exact (used 5 "y" 24 rfl _).mp rfl
  · exact declared 6 "y" 27 _ rfl (by decide)
  · exact blank 7 30 _ rfl

end AssetRefs
