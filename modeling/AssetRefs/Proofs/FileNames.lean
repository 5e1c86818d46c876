import AssetRefs.Proofs.NameResolution
import AssetRefs.Proofs.Placement
import AssetRefs.Proofs.SignatureScopes
import AssetRefs.Proofs.WellFormedTables
import Mathlib.Data.List.Nodup

/-! # The names of a file

Each part of a file can be replayed for itself. Before the end of the file a part learns nothing
from the parts before it but which names the package has, and this matters only to a part that
declares such a name again. So as long as parts do not share names, the state after the whole file
is put together from the states of its parts: see `NameState.Joins.replay` for one more part and
`WellPlaced.sums` for all of them. What the table of the file has for an offset can then be said
without the order of the parts: see `WellPlaced.find?_finish_iff`.
-/

namespace AssetRefs

/-! ## Other places -/

/-- The scope with its declarations at other places. -/
def Scope.relocate (move : Address → Address) (scope : Scope) : Scope :=
  scope.map fun entry => (entry.1, entry.2.relocate move)

namespace Scope

theorem find?_append (first second : Scope) (name : String) :
    Scope.find? (first ++ second) name = (first.find? name).or (second.find? name) :=
  List.lookup_append

theorem find?_relocate (move : Address → Address) (scope : Scope) (name : String) :
    (scope.relocate move).find? name = (scope.find? name).map (Binding.relocate move) := by
  induction scope with
  | nil => rfl
  | cons entry rest ih =>
    obtain ⟨other, target⟩ := entry
    change List.lookup name ((other, target.relocate move) :: relocate move rest) =
      (List.lookup name ((other, target) :: rest)).map _
    rw [List.lookup_cons, List.lookup_cons]
    cases name == other with
    | true => rfl
    | false => exact ih

theorem findSome?_relocate (move : Address → Address) (scopes : List Scope) (name : String) :
    (scopes.map (relocate move)).findSome? (·.find? name) =
      (scopes.findSome? (·.find? name)).map (Binding.relocate move) := by
  induction scopes with
  | nil => rfl
  | cons scope outer ih =>
    rw [List.map_cons, List.findSome?_cons, List.findSome?_cons, find?_relocate, ih]
    cases scope.find? name <;> rfl

/-- A name that the rest of a scope does not have is added to the part in front. -/
theorem add_relocate_append {rest : Scope} {name : String} (fresh : rest.find? name = none)
    (move : Address → Address) (scope : Scope) (target : Binding) :
    Scope.add (scope.relocate move ++ rest) name (target.relocate move) =
      (scope.add name target).relocate move ++ rest := by
  unfold Scope.add
  rw [find?_append, find?_relocate, fresh, Option.or_none]
  cases scope.find? name <;> rfl

theorem add_relocate (move : Address → Address) (scope : Scope) (name : String)
    (target : Binding) :
    Scope.add (scope.relocate move) name (target.relocate move) =
      (scope.add name target).relocate move := by
  rw [← List.append_nil (scope.relocate move),
    ← List.append_nil ((scope.add name target).relocate move)]
  exact add_relocate_append rfl move scope target

end Scope

/-- The events of a part are among the events of the whole, where its declarations have other
places. -/
structure PartOf (move : Address → Address) (block events : List ScopeEvent) : Prop where
  coherent : Coherent (Told events)
  inside : ∀ event ∈ block, event.relocate move ∈ events

namespace PartOf

variable {move : Address → Address} {block events : List ScopeEvent}
  (part : PartOf move block events)

include part

theorem told {target : Binding} (told : Told block target) :
    Told events (target.relocate move) := by
  obtain ⟨name, offset, member⟩ := told
  exact ⟨name, offset, part.inside _ member⟩

theorem own : Coherent (Told block) := by
  intro place first second here there
  exact part.coherent (part.told here) (part.told there)

end PartOf

/-! ## One more part -/

/-- A table that has the entries of its own at other places and the entries of a base. -/
def BindingTable.Joins (move : Address → Address) (base own whole : BindingTable) : Prop :=
  ∀ offset, whole.find? offset =
    ((own.find? offset).map (Binding.relocate move)).or (base.find? offset)

theorem BindingTable.Joins.insert {move : Address → Address} {base own whole : BindingTable}
    {block events : List ScopeEvent} (joins : Joins move base own whole)
    (part : PartOf move block events) (drawn : own.DrawnFrom (Told block))
    (placed : whole.DrawnFrom (Told events)) (offset : Nat) {target : Binding}
    (told : Told block target) :
    Joins move base (own.insert offset target) (whole.insert offset (target.relocate move)) := by
  intro other
  rw [find?_insert part.coherent placed offset (part.told told),
    find?_insert part.own drawn offset told]
  split_ifs
  · rfl
  · exact joins other

/-- The state after a base and a part, where the part alone leads to a state of its own. -/
structure NameState.Joins (move : Address → Address) (base own whole : NameState) : Prop where
  locals : whole.locals = own.locals.map (Scope.relocate move)
  package : whole.package = own.package.relocate move ++ base.package
  bindings : BindingTable.Joins move base.bindings own.bindings whole.bindings
  waiting : whole.waiting = own.waiting ++ base.waiting

namespace NameState.Joins

variable {move : Address → Address} {base own whole : NameState} {block events : List ScopeEvent}
  {name : String} {offset : Nat} {target : Binding}

/-- At its start a part has nothing of its own. -/
theorem start (closed : base.locals = []) : Joins move base {} base where
  locals := closed
  package := rfl
  bindings offset := by simp [BindingTable.find?_empty]
  waiting := rfl

theorem find?_innermost (joins : Joins move base own whole)
    (fresh : own.locals = [] → base.package.find? name = none) :
    whole.innermost.find? name = (own.innermost.find? name).map (Binding.relocate move) := by
  unfold innermost
  rw [joins.locals, joins.package]
  cases scopes : own.locals with
  | nil =>
    change Scope.find? (own.package.relocate move ++ base.package) name =
      (own.package.find? name).map _
    rw [Scope.find?_append, Scope.find?_relocate, fresh scopes, Option.or_none]
  | cons scope outer => exact scope.find?_relocate move name

theorem declare (joins : Joins move base own whole) (part : PartOf move block events)
    (traced : own.Traced block) (placed : whole.Traced events)
    (told : .declared name offset target ∈ block)
    (fresh : own.locals = [] → name ≠ "_" → base.package.find? name = none) :
    Joins move base (own.declare name offset target)
      (whole.declare name offset (target.relocate move)) := by
  by_cases plain : name = "_"
  · rwa [NameState.declare, NameState.declare, if_pos plain, if_pos plain]
  · -- Inside a scope the part meets only names of its own; outside, the base lacks the name.
    have unknown (outside : own.locals = []) := fresh outside plain
    have found := joins.find?_innermost unknown
    have first : Told block ((own.innermost.find? name).getD target) := by
      cases known : own.innermost.find? name with
      | none => exact ⟨name, offset, told⟩
      | some target => exact (traced.innermost name target known).told
    have bindings := joins.bindings.insert part traced.bindings.1 placed.bindings.1 offset first
    rw [own.declare_eq offset target plain, whole.declare_eq offset _ plain, found, Option.getD_map]
    obtain ⟨locals, package, table, waiting, packageName⟩ := own
    obtain ⟨_, _, table', _, packageName'⟩ := whole
    obtain ⟨rfl, rfl, _, rfl⟩ := joins
    cases locals with
    | nil =>
      exact ⟨rfl, Scope.add_relocate_append (unknown rfl) move package target, bindings, rfl⟩
    | cons scope outer =>
      refine ⟨?_, rfl, bindings, rfl⟩
      change Scope.add (scope.relocate move) name (target.relocate move) :: _ = _
      rw [Scope.add_relocate]
      rfl

theorem use (joins : Joins move base own whole) (part : PartOf move block events)
    (traced : own.Traced block) (placed : whole.Traced events) :
    Joins move base (own.use name offset) (whole.use name offset) := by
  have found := Scope.findSome?_relocate move own.locals name
  rw [← joins.locals] at found
  unfold NameState.use
  rw [found]
  cases known : own.locals.findSome? (·.find? name) with
  | none =>
    refine ⟨joins.locals, joins.package, joins.bindings, ?_⟩
    change (offset, name) :: whole.waiting = (offset, name) :: (own.waiting ++ base.waiting)
    rw [joins.waiting]
  | some target =>
    obtain ⟨scope, member, listed⟩ := List.exists_of_findSome?_eq_some known
    have told := (traced.locals scope member name target listed).told
    exact ⟨joins.locals, joins.package,
      joins.bindings.insert part traced.bindings.1 placed.bindings.1 offset told, joins.waiting⟩

theorem step (joins : Joins move base own whole) (part : PartOf move block events)
    (traced : own.Traced block) (placed : whole.Traced events) {event : ScopeEvent}
    (told : event ∈ block)
    (fresh : ∀ entry ∈ exposedFrom own.locals.length [event], entry.1 ≠ "_" →
      base.package.find? entry.1 = none) :
    Joins move base (own.step event) (whole.step (event.relocate move)) := by
  cases event with
  | opened =>
    refine ⟨?_, joins.package, joins.bindings, joins.waiting⟩
    change [] :: whole.locals = _
    rw [joins.locals]
    rfl
  | closed =>
    refine ⟨?_, joins.package, joins.bindings, joins.waiting⟩
    change whole.locals.tail = own.locals.tail.map _
    rw [joins.locals, List.map_tail]
  | declared name offset target =>
    refine joins.declare part traced placed told fun outside => ?_
    rw [outside] at fresh
    exact fresh (name, target) List.mem_cons_self
  | used name offset => exact joins.use part traced placed
  | package name => exact ⟨joins.locals, joins.package, joins.bindings, joins.waiting⟩

end NameState.Joins

theorem NameState.length_locals_declare (state : NameState) (name : String) (offset : Nat)
    (target : Binding) :
    (state.declare name offset target).locals.length = state.locals.length := by
  by_cases plain : name = "_"
  · rw [declare, if_pos plain]
  · rw [state.declare_eq offset target plain]
    cases state.locals with
    | nil => rfl
    | cons scope outer => rfl

/-- The open scopes say how far out the following declarations go. -/
theorem exposedFrom_cons (state : NameState) (event : ScopeEvent) (rest : List ScopeEvent) :
    exposedFrom state.locals.length (event :: rest) =
      exposedFrom state.locals.length [event] ++
        exposedFrom (state.step event).locals.length rest := by
  cases event with
  | opened => cases depth : state.locals.length <;> simp [exposedFrom, NameState.step, depth]
  | closed => cases depth : state.locals.length <;> simp [exposedFrom, NameState.step, depth]
  | declared name offset target =>
    rw [NameState.step, state.length_locals_declare]
    cases state.locals.length <;> simp [exposedFrom]
  | used name offset =>
    rw [NameState.step, state.use_locals]
    cases state.locals.length <;> simp [exposedFrom]
  | package name =>
    rw [NameState.step]
    cases state.locals.length <;> simp [exposedFrom]

/-- A part does after a base what it does alone, unless it declares a name of the base again. -/
theorem NameState.Joins.replay {move : Address → Address} {base own whole : NameState}
    {block events rest : List ScopeEvent} (joins : Joins move base own whole)
    (part : PartOf move block events) (traced : own.Traced block) (placed : whole.Traced events)
    (told : ∀ event ∈ rest, event ∈ block)
    (fresh : ∀ entry ∈ exposedFrom own.locals.length rest, entry.1 ≠ "_" →
      base.package.find? entry.1 = none) :
    Joins move base (own.replay rest) (whole.replay (rest.map (ScopeEvent.relocate move))) := by
  induction rest generalizing own whole with
  | nil => exact joins
  | cons event rest ih =>
    rw [List.forall_mem_cons] at told
    rw [exposedFrom_cons, List.forall_mem_append] at fresh
    exact ih (joins.step part traced placed told.1 fresh.1) (traced.step part.own told.1)
      (placed.step part.coherent (part.inside event told.1)) told.2 fresh.2

/-! ## The names for the package -/

/-- The names that events declare outside the scopes that they open, `_` left out. -/
def packageNames (events : List ScopeEvent) : List String :=
  ((exposed events).map Prod.fst).filter (· ≠ "_")

theorem Balanced.relocate {events : List ScopeEvent} (balanced : Balanced events)
    (move : Address → Address) : Balanced (events.map (ScopeEvent.relocate move)) := by
  induction balanced with
  | nil => exact .nil
  | declared _ ih => exact .declared ih
  | used _ ih => exact .used ih
  | package _ ih => exact .package ih
  | scope _ _ within ih =>
    rw [List.map_cons, List.map_append, List.map_cons]
    exact .scope within ih

theorem exposedFrom_relocate (move : Address → Address) (depth : Nat)
    (events : List ScopeEvent) :
    exposedFrom depth (events.map (ScopeEvent.relocate move)) =
      Scope.relocate move (exposedFrom depth events) := by
  induction events generalizing depth with
  | nil => cases depth <;> rfl
  | cons event rest ih =>
    cases event <;> cases depth <;>
      simp [ScopeEvent.relocate, exposedFrom, Scope.relocate, ih]

theorem packageNames_relocate (move : Address → Address) (events : List ScopeEvent) :
    packageNames (events.map (ScopeEvent.relocate move)) = packageNames events := by
  unfold packageNames exposed
  rw [exposedFrom_relocate, Scope.relocate, List.map_map]
  rfl

theorem packageNames_append {first : List ScopeEvent} (balanced : Balanced first)
    (second : List ScopeEvent) :
    packageNames (first ++ second) = packageNames first ++ packageNames second := by
  unfold packageNames exposed
  rw [balanced.exposedFrom_append, List.map_append, List.filter_append]

theorem Scope.mem_of_find?_addAll {entries : List (String × Binding)} {scope : Scope}
    {name : String} (known : (scope.addAll entries).find? name ≠ none) :
    scope.find? name ≠ none ∨ name ≠ "_" ∧ name ∈ entries.map Prod.fst := by
  induction entries generalizing scope with
  | nil => exact .inl known
  | cons entry rest ih =>
    obtain ⟨other, target⟩ := entry
    change (Scope.addAll (if other = "_" then scope else scope.add other target) rest).find? name ≠
      none at known
    rcases ih known with before | ⟨plain, later⟩
    · split_ifs at before with blank
      · exact .inl before
      · unfold Scope.add at before
        split at before
        · exact .inl before
        · rw [Scope.find?, List.lookup_cons] at before
          split at before
          · next same =>
            rw [eq_of_beq same]
            exact .inr ⟨blank, List.mem_cons_self⟩
          · exact .inl before
    · exact .inr ⟨plain, List.mem_cons_of_mem _ later⟩

section

variable {events : List ScopeEvent} (balanced : Balanced events)

include balanced

theorem Balanced.locals_replay : (NameState.replay {} events).locals = [] :=
  congrArg Prod.fst (NameState.scopes_replay balanced {})

theorem Balanced.mem_packageNames {name : String}
    (known : (NameState.replay {} events).package.find? name ≠ none) :
    name ∈ packageNames events := by
  have package : (NameState.replay {} events).package = Scope.addAll [] (exposed events) :=
    congrArg Prod.snd (NameState.scopes_replay balanced {})
  rw [package] at known
  rcases Scope.mem_of_find?_addAll known with nothing | ⟨plain, listed⟩
  · exact absurd rfl nothing
  · exact List.mem_filter.mpr ⟨listed, by simpa using plain⟩

end

/-! ## All parts -/

theorem placedFrom_concat (first : Nat) (blocks : List (List ScopeEvent))
    (block : List ScopeEvent) :
    placedFrom first (blocks ++ [block]) =
      placedFrom first blocks ++
        block.map (ScopeEvent.relocate (· ++ [first + blocks.length])) := by
  simp [placedFrom, List.zipIdx_append]

/-- The parts of a file that share no names. -/
structure WellPlaced (blocks : List (List ScopeEvent)) : Prop where
  balanced : ∀ block ∈ blocks, Balanced block
  coherent : Coherent (Told (placedFrom 0 blocks))
  apart : OffsetsApart (placedFrom 0 blocks)
  once : (packageNames (placedFrom 0 blocks)).Nodup

/-- What one of the states of the parts has, at the place that the part has in the file. -/
def StemsFrom (blocks : List (List ScopeEvent)) (get : NameState → Option Binding)
    (target : Binding) : Prop :=
  ∃ position block own, blocks[position]? = some block ∧
    get (NameState.replay {} block) = some own ∧ target = own.relocate (· ++ [position])

theorem stemsFrom_concat_iff {blocks : List (List ScopeEvent)} {block : List ScopeEvent}
    {get : NameState → Option Binding} {target : Binding} :
    StemsFrom (blocks ++ [block]) get target ↔
      (get (NameState.replay {} block)).map (Binding.relocate (· ++ [blocks.length])) =
        some target ∨ StemsFrom blocks get target := by
  constructor
  · rintro ⟨position, other, own, here, found, rfl⟩
    rw [List.getElem?_append] at here
    split_ifs at here with earlier
    · exact .inr ⟨position, other, own, here, found, rfl⟩
    · obtain ⟨last, rfl⟩ : position = blocks.length ∧ block = other := by
        rw [List.getElem?_singleton] at here
        split_ifs at here with first
        cases here
        exact ⟨by omega, rfl⟩
      rw [found, last]
      exact .inl rfl
  · rintro (last | ⟨position, other, own, here, found, rfl⟩)
    · obtain ⟨own, found, rfl⟩ := Option.map_eq_some_iff.mp last
      exact ⟨blocks.length, block, own, List.getElem?_concat_length, found, rfl⟩
    · have earlier := (List.getElem?_eq_some_iff.mp here).1
      exact ⟨position, other, own, (List.getElem?_append_left earlier).trans here, found, rfl⟩

/-- The state has what the states of the parts have, and nothing else. -/
structure NameState.Sums (state : NameState) (blocks : List (List ScopeEvent)) : Prop where
  locals : state.locals = []
  package : ∀ name target, state.package.find? name = some target ↔
    StemsFrom blocks (·.package.find? name) target
  bindings : ∀ offset target, state.bindings.find? offset = some target ↔
    StemsFrom blocks (·.bindings.find? offset) target
  waiting : ∀ entry, entry ∈ state.waiting ↔
    ∃ block ∈ blocks, entry ∈ (NameState.replay {} block).waiting

theorem or_eq_some_of_apart {α : Type} {first second : Option α} {value : α}
    (apart : first = none ∨ second = none) :
    first.or second = some value ↔ first = some value ∨ second = some value := by
  rcases apart with rfl | rfl <;> simp

theorem NameState.Sums.concat {base whole : NameState} {blocks : List (List ScopeEvent)}
    {block : List ScopeEvent} (sums : base.Sums blocks) (balanced : Balanced block)
    (joins : Joins (· ++ [blocks.length]) base (replay {} block) whole)
    (names : ∀ name, (replay {} block).package.find? name = none ∨
      base.package.find? name = none)
    (offsets : ∀ offset, (replay {} block).bindings.find? offset = none ∨
      base.bindings.find? offset = none) :
    whole.Sums (blocks ++ [block]) where
  locals := by
    rw [joins.locals, balanced.locals_replay]
    rfl
  package name target := by
    have apart : ((replay {} block).package.find? name).map
        (Binding.relocate (· ++ [blocks.length])) = none ∨ base.package.find? name = none := by
      simpa using names name
    rw [joins.package, Scope.find?_append, Scope.find?_relocate, stemsFrom_concat_iff,
      or_eq_some_of_apart apart, sums.package]
  bindings offset target := by
    have apart : ((replay {} block).bindings.find? offset).map
        (Binding.relocate (· ++ [blocks.length])) = none ∨ base.bindings.find? offset = none := by
      simpa using offsets offset
    rw [joins.bindings, stemsFrom_concat_iff, or_eq_some_of_apart apart, sums.bindings]
  waiting entry := by
    rw [joins.waiting, List.mem_append, sums.waiting]
    simp [or_and_right, exists_or, or_comm]

theorem offsets_relocate (move : Address → Address) (events : List ScopeEvent) :
    (events.map (ScopeEvent.relocate move)).filterMap ScopeEvent.offset? =
      events.filterMap ScopeEvent.offset? := by
  rw [List.filterMap_map]
  congr
  funext event
  cases event <;> rfl

theorem Mentions.mem_offsets {events : List ScopeEvent} {name : String} {offset : Nat}
    (mentioned : Mentions events name offset) :
    offset ∈ events.filterMap ScopeEvent.offset? := by
  rcases mentioned with used | ⟨target, declared⟩
  · exact List.mem_filterMap.mpr ⟨_, used, rfl⟩
  · exact List.mem_filterMap.mpr ⟨_, declared, rfl⟩

theorem balanced_placedFrom {blocks : List (List ScopeEvent)}
    (balanced : ∀ block ∈ blocks, Balanced block) (first : Nat) :
    Balanced (placedFrom first blocks) := by
  induction blocks generalizing first with
  | nil => exact .nil
  | cons block rest ih =>
    rw [List.forall_mem_cons] at balanced
    exact (balanced.1.relocate _).append (ih balanced.2 (first + 1))

theorem Coherent.mono {known other : Binding → Prop} (coherent : Coherent known)
    (fewer : ∀ target, other target → known target) : Coherent other := by
  intro place first second here there
  exact coherent (fewer _ here) (fewer _ there)

namespace WellPlaced

variable {blocks : List (List ScopeEvent)} {block : List ScopeEvent}

theorem partOf (placed : WellPlaced (blocks ++ [block])) :
    PartOf (· ++ [blocks.length]) block (placedFrom 0 (blocks ++ [block])) where
  coherent := placed.coherent
  inside event member := by
    rw [placedFrom_concat, Nat.zero_add]
    exact List.mem_append_right _ (List.mem_map_of_mem member)

theorem init (placed : WellPlaced (blocks ++ [block])) : WellPlaced blocks := by
  obtain ⟨balanced, coherent, apart, once⟩ := placed
  rw [List.forall_mem_append] at balanced
  rw [placedFrom_concat] at coherent apart once
  rw [packageNames_append (balanced_placedFrom balanced.1 0)] at once
  unfold OffsetsApart at apart
  rw [List.filterMap_append] at apart
  refine ⟨balanced.1, coherent.mono ?_, apart.of_append_left, once.of_append_left⟩
  rintro target ⟨name, offset, told⟩
  exact ⟨name, offset, List.mem_append_left _ told⟩

/-- A part declares no name for the package that the parts before it declare. -/
theorem fresh (placed : WellPlaced (blocks ++ [block])) {name : String}
    (listed : name ∈ packageNames block) :
    (NameState.replay {} (placedFrom 0 blocks)).package.find? name = none := by
  by_contra known
  have before := balanced_placedFrom placed.init.balanced 0
  have once := placed.once
  rw [placedFrom_concat, packageNames_append before, packageNames_relocate] at once
  exact List.disjoint_of_nodup_append once (before.mem_packageNames known) listed

/-- A part binds no offset that the parts before it bind. -/
theorem unbound (placed : WellPlaced (blocks ++ [block])) (offset : Nat) :
    (NameState.replay {} block).bindings.find? offset = none ∨
      (NameState.replay {} (placedFrom 0 blocks)).bindings.find? offset = none := by
  have later := (NameState.Traced.initial block).replay placed.partOf.own fun _ told => told
  have earlier := (NameState.Traced.initial _).replay placed.init.coherent fun _ told => told
  have apart := placed.apart
  unfold OffsetsApart at apart
  rw [placedFrom_concat, List.filterMap_append, offsets_relocate] at apart
  cases here : (NameState.replay {} block).bindings.find? offset with
  | none => exact .inl rfl
  | some target =>
    cases there : (NameState.replay {} (placedFrom 0 blocks)).bindings.find? offset with
    | none => exact .inr rfl
    | some other =>
      obtain ⟨_, mentioned, _⟩ := later.bindings.2 offset target here
      obtain ⟨_, mentioned', _⟩ := earlier.bindings.2 offset other there
      exact absurd mentioned.mem_offsets
        (List.disjoint_of_nodup_append apart mentioned'.mem_offsets)

/-- The state after a file has what the states of its parts have. -/
theorem sums (placed : WellPlaced blocks) :
    (NameState.replay {} (placedFrom 0 blocks)).Sums blocks := by
  -- A part is added at the end: the parts before it are the base that it joins.
  induction blocks using List.reverseRecOn with
  | nil =>
    have nothing {get : NameState → Option Binding} {target : Binding} :
        ¬ StemsFrom [] get target := by
      rintro ⟨position, block, own, ⟨⟩, _⟩
    refine ⟨rfl, fun name target => ?_, fun offset target => ?_, fun entry => ?_⟩
    · exact iff_of_false nofun nothing
    · refine iff_of_false ?_ nothing
      change BindingTable.empty.find? offset ≠ some target
      rw [BindingTable.find?_empty]
      exact nofun
    · exact iff_of_false nofun nofun
  | append_singleton blocks block ih =>
    have sums := ih placed.init
    have balanced := placed.balanced block (List.mem_append_right _ List.mem_cons_self)
    have part := placed.partOf
    have split : NameState.replay {} (placedFrom 0 (blocks ++ [block])) =
        (NameState.replay {} (placedFrom 0 blocks)).replay
          (block.map (ScopeEvent.relocate (· ++ [blocks.length]))) := by
      rw [placedFrom_concat, Nat.zero_add]
      exact List.foldl_append
    have traced : (NameState.replay {} (placedFrom 0 blocks)).Traced
        (placedFrom 0 (blocks ++ [block])) := by
      refine (NameState.Traced.initial _).replay placed.coherent fun event told => ?_
      rw [placedFrom_concat]
      exact List.mem_append_left _ told
    have joins := (NameState.Joins.start sums.locals).replay part (.initial block) traced
      (fun _ told => told) fun entry exposed plain => placed.fresh
        (List.mem_filter.mpr ⟨List.mem_map_of_mem exposed, by simpa using plain⟩)
    rw [split]
    refine sums.concat balanced joins (fun name => ?_) placed.unbound
    by_cases known : (NameState.replay {} block).package.find? name = none
    · exact .inl known
    · exact .inr (placed.fresh (balanced.mem_packageNames known))

end WellPlaced

/-! ## The table of the file -/

theorem OffsetsApart.eq_of_mem {events : List ScopeEvent} (apart : OffsetsApart events)
    {offset : Nat} {event other : ScopeEvent} (here : event ∈ events)
    (about : event.offset? = some offset) (there : other ∈ events)
    (same : other.offset? = some offset) : event = other := by
  obtain ⟨first, here⟩ := List.mem_iff_getElem?.mp here
  obtain ⟨second, there⟩ := List.mem_iff_getElem?.mp there
  rw [apart.unique here about there same, there] at here
  exact (Option.some.inj here).symm

theorem OffsetsApart.same_name {events : List ScopeEvent} (apart : OffsetsApart events)
    {offset : Nat} {first second : String} (here : Mentions events first offset)
    (there : Mentions events second offset) : first = second := by
  rcases here with here | ⟨_, here⟩ <;> rcases there with there | ⟨_, there⟩ <;>
    cases apart.eq_of_mem here rfl there rfl <;> rfl

theorem lookup_eq_some_iff_of_single {entries : List (Nat × String)} {offset : Nat}
    (single : ∀ first second, (offset, first) ∈ entries → (offset, second) ∈ entries →
      first = second) {name : String} :
    entries.lookup offset = some name ↔ (offset, name) ∈ entries := by
  refine ⟨mem_of_lookup, fun member => ?_⟩
  cases found : entries.lookup offset with
  | none =>
    have missing := List.lookup_eq_none_iff.mp found _ member
    simp at missing
  | some other => rw [single other name (mem_of_lookup found) member]

/-- Some part waits for a name at an offset. -/
def Waits (blocks : List (List ScopeEvent)) (offset : Nat) (name : String) : Prop :=
  ∃ block ∈ blocks, (offset, name) ∈ (NameState.replay {} block).waiting

/-- The table of a file has for an offset what some part declares for the package, if a part waits
for that name there, and otherwise what a part has for the offset itself. -/
theorem WellPlaced.find?_finish_iff {blocks : List (List ScopeEvent)}
    (placed : WellPlaced blocks) {offset : Nat} {target : Binding} :
    (NameState.replay {} (placedFrom 0 blocks)).finish.find? offset = some target ↔
      (∃ name, Waits blocks offset name ∧ StemsFrom blocks (·.package.find? name) target) ∨
      (∀ name, Waits blocks offset name →
          ∀ other, ¬ StemsFrom blocks (·.package.find? name) other) ∧
        StemsFrom blocks (·.bindings.find? offset) target := by
  have sums := placed.sums
  have traced := (NameState.Traced.initial _).replay placed.coherent fun _ told => told
  generalize NameState.replay {} (placedFrom 0 blocks) = state at sums traced ⊢
  have single (offset : Nat) (first second : String)
      (here : (offset, first) ∈ state.waiting.reverse)
      (there : (offset, second) ∈ state.waiting.reverse) : first = second :=
    placed.apart.same_name (traced.waiting _ (List.mem_reverse.mp here))
      (traced.waiting _ (List.mem_reverse.mp there))
  have waits (name : String) :
      state.waiting.reverse.lookup offset = some name ↔ Waits blocks offset name := by
    rw [lookup_eq_some_iff_of_single (single offset), List.mem_reverse, sums.waiting]
    rfl
  have answers : state.finish.find? offset = _ :=
    Scope.find?_foldl_answer placed.coherent
      (fun name target found => (traced.package name target found).told) traced.bindings.1
      single offset
  rw [answers, Option.or_eq_some_iff, Option.bind_eq_some_iff, Option.bind_eq_none_iff,
    sums.bindings]
  simp only [waits, sums.package, Option.eq_none_iff_forall_ne_some, ne_eq]

end AssetRefs
