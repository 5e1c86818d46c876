import AssetRefs.Proofs.Containment
import AssetRefs.Proofs.Layout
import AssetRefs.Proofs.ScopeLaws

/-! # Where scope events come from

Every event of a lowering that is about a name has the text and the start of an identifier of the
concrete tree. A declaration that an event refers to is the node at its place in the lowered tree:
see `Origin` and `lower_hasOrigins`. So events that refer to one place refer to one declaration.
-/

namespace AssetRefs

open Lowering

/-- The node at a place in a tree. -/
def Node.at? (root : Node) : Address → Option Node
  | [] => some root
  | index :: outer => (root.at? outer).bind fun node => node.children[index]?

theorem Node.at?_append (root : Node) (inner outer : Address) :
    root.at? (inner ++ outer) = (root.at? outer).bind fun node => node.at? inner := by
  induction inner with
  | nil => simp [at?]
  | cons index inner ih => simp only [List.cons_append, at?, ih, Option.bind_assoc]

theorem Node.contains_of_at? {root node : Node} {place : Address}
    (found : root.at? place = some node) : root.Contains node := by
  induction place generalizing node with
  | nil =>
    cases found
    exact .self
  | cons index outer ih =>
    obtain ⟨parent, above, child⟩ := Option.bind_eq_some_iff.mp found
    exact (ih above).child (List.mem_of_getElem? child)

theorem Declaration.node_injective {first second : Declaration} (same : first.node = second.node) :
    first = second := by
  cases first <;> cases second <;> simp_all [Declaration.node]

/-- Where an event comes from, in the lowering of a concrete tree to a node at a place. -/
inductive Origin (source : ByteArray) (place : Address) (tree : Concrete) (node : Node) :
    ScopeEvent → Prop where
  | opened : Origin source place tree node .opened
  | closed : Origin source place tree node .closed
  | package (name : String) : Origin source place tree node (.package name)
  | used {part : Concrete} : tree.HasIdentifier part →
      Origin source place tree node (.used (part.text source) part.label.start)
  | marked {part : Concrete} (marker : Marker) : tree.HasIdentifier part →
      Origin source place tree node
        (.declared (part.text source) part.label.start (.marker marker))
  | bound {part : Concrete} {inner : Address} {declaration : Declaration} {site : Site} :
      tree.HasIdentifier part → node.at? inner = some declaration.node → declaration.Defines →
      .ident site (part.text source) part.label.start ∈ declaration.names →
      Origin source place tree node (.declared (part.text source) part.label.start
        (.declaration (inner ++ place) declaration))

/-- Names and events of a lowering have their origin in the concrete tree. -/
structure HasOrigins (source : ByteArray) (place : Address) (tree : Concrete) (node : Node)
    (events : List ScopeEvent) : Prop where
  name : ∀ site name offset, node = .ident site name offset →
    ∃ part, tree.HasIdentifier part ∧ part.text source = name ∧ part.label.start = offset
  event : ∀ event ∈ events, Origin source place tree node event

section

variable {source : ByteArray} {place : Address} {tree : Concrete} {node : Node}
  {event : ScopeEvent}

theorem Origin.wrapper {inner : Concrete} (contained : tree.Contains inner)
    (origin : Origin source place inner node event) : Origin source place tree node event := by
  cases origin with
  | opened => exact .opened
  | closed => exact .closed
  | package name => exact .package name
  | used identifier => exact .used (identifier.trans contained)
  | marked marker identifier => exact .marked marker (identifier.trans contained)
  | bound identifier found defines listed =>
    exact .bound (identifier.trans contained) found defines listed

theorem Origin.part {part : Concrete} {index : Nat} {child : Node} (contained : tree.Contains part)
    (placed : node.children[index]? = some child)
    (origin : Origin source (index :: place) part child event) :
    Origin source place tree node event := by
  cases origin with
  | opened => exact .opened
  | closed => exact .closed
  | package name => exact .package name
  | used identifier => exact .used (identifier.trans contained)
  | marked marker identifier => exact .marked marker (identifier.trans contained)
  | @bound spelling inner declaration site identifier found defines listed =>
    have below : node.at? (inner ++ [index]) = some declaration.node := by
      simp [Node.at?_append, Node.at?, placed, found]
    rw [List.append_cons]
    exact .bound (identifier.trans contained) below defines listed

theorem LoweredFrom.spelling {site : Site} {name : String} {offset : Nat}
    (origin : LoweredFrom (HasOrigins source) source place tree (.ident site name offset)) :
    ∃ part, tree.HasIdentifier part ∧ part.text source = name ∧ part.label.start = offset := by
  generalize ident : Node.ident site name offset = node at origin
  cases origin with
  | spelled identifier =>
    cases ident
    exact ⟨_, identifier, rfl, rfl⟩
  | lowered contained lowers =>
    obtain ⟨part, identifier, spelled⟩ := lowers.name site name offset ident.symm
    exact ⟨part, identifier.trans contained, spelled⟩

theorem OwnEvent.origin (own : OwnEvent (HasOrigins source) source place tree node event) :
    Origin source place tree node event := by
  cases own with
  | package name => exact .package name
  | marked marker identifier => exact .marked marker identifier
  | @bound declaration _ _ _ same defines listed origin =>
    obtain ⟨part, identifier, rfl, rfl⟩ := origin.spelling
    have here : node.at? [] = some declaration.node := congrArg some same.symm
    have origin : Origin source place tree node _ := .bound identifier here defines listed
    exact origin

theorem Tells.origins {events : List ScopeEvent}
    (tells : Tells (HasOrigins source) source place tree node events) :
    ∀ event ∈ events, Origin source place tree node event := by
  induction tells with
  | nil => simp
  | own own _ ih => exact List.forall_mem_cons.mpr ⟨own.origin, ih⟩
  | part contained placed lowers _ ih =>
    exact List.forall_mem_append.mpr
      ⟨fun event member => (lowers.event event member).part contained placed, ih⟩
  | scope _ _ inner rest =>
    simp only [List.forall_mem_cons, List.forall_mem_append]
    exact ⟨.opened, inner, .closed, rest⟩

/-- One level of the lowering adds no names of its own. -/
theorem Layout.hasOrigins {events : List ScopeEvent}
    (layout : Layout (HasOrigins source) source place tree node events) :
    HasOrigins source place tree node events := by
  cases layout with
  | wrapper contained lowers =>
    constructor
    · intro site name offset ident
      obtain ⟨part, identifier, spelled⟩ := lowers.name site name offset ident
      exact ⟨part, identifier.trans contained, spelled⟩
    · exact fun event member => (lowers.event event member).wrapper contained
  | name identifier =>
    constructor
    · rintro site name offset ⟨⟩
      exact ⟨tree, identifier, rfl, rfl⟩
    · simpa using Origin.used identifier
  | compound other tells =>
    exact ⟨fun site name offset ident => (other site name offset ident).elim, tells.origins⟩

end

/-- The names and events of every lowering have their origin in the concrete tree. -/
theorem lower_hasOrigins {source : ByteArray} {limit : Nat} {place : Address} {tree : Concrete}
    {node : Node} {events : List ScopeEvent}
    (lowers : (lower source limit place tree).Gives node events) :
    HasOrigins source place tree node events :=
  lower_induction Layout.hasOrigins limit tree place node events lowers

/-- Some event is about a name at an offset. -/
def Mentions (events : List ScopeEvent) (name : String) (offset : Nat) : Prop :=
  .used name offset ∈ events ∨ ∃ target, .declared name offset target ∈ events

/-- A name that an event is about is spelled by an identifier at its offset. -/
theorem Mentions.identifier {source : ByteArray} {place : Address} {tree : Concrete} {node : Node}
    {events : List ScopeEvent} {name : String} {offset : Nat}
    (mentioned : Mentions events name offset)
    (hasOrigins : HasOrigins source place tree node events) :
    ∃ part, tree.HasIdentifier part ∧ part.label.start = offset ∧ part.text source = name := by
  have origins := hasOrigins.event
  rcases mentioned with used | ⟨target, declared⟩
  · have origin := origins _ used
    generalize same : ScopeEvent.used name offset = event at origin
    cases origin with
    | used identifier =>
      cases same
      exact ⟨_, identifier, rfl, rfl⟩
    | _ => cases same
  · have origin := origins _ declared
    generalize same : ScopeEvent.declared name offset target = event at origin
    cases origin with
    | marked _ identifier | bound identifier _ _ _ =>
      cases same
      exact ⟨_, identifier, rfl, rfl⟩
    | _ => cases same

/-- Some event declares a name with the given target. -/
def Told (events : List ScopeEvent) (target : Binding) : Prop :=
  ∃ name offset, .declared name offset target ∈ events

section

variable {source : ByteArray} {limit : Nat} {root : Concrete} {node : Node}
  {events : List ScopeEvent} (lowers : lower source limit [] root = .ok (node, events))

include lowers

/-- A declaration that an event refers to is the node at its place, and it declares the name. -/
theorem declaration_of_told {name : String} {offset : Nat} {place : Address}
    {declaration : Declaration}
    (told : .declared name offset (.declaration place declaration) ∈ events) :
    node.at? place = some declaration.node ∧ declaration.Defines ∧
      ∃ site, .ident site name offset ∈ declaration.names := by
  have origin := (lower_hasOrigins lowers).event _ told
  generalize same : ScopeEvent.declared name offset (.declaration place declaration) = event
    at origin
  cases origin with
  | bound _ found defines listed =>
    cases same
    rw [List.append_nil]
    exact ⟨found, defines, _, listed⟩
  | _ => cases same

/-- Events that refer to one place refer to one declaration. -/
theorem coherent_of_lower : Coherent (Told events) := by
  rintro place first second ⟨_, _, here⟩ ⟨_, _, there⟩
  refine Declaration.node_injective (Option.some.inj ?_)
  rw [← (declaration_of_told lowers here).1, ← (declaration_of_told lowers there).1]

end

end AssetRefs
