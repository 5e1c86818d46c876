import AssetRefs.Proofs.CallSites
import AssetRefs.Proofs.FileNames
import Mathlib.Data.List.ModifyLast
import Mathlib.Data.List.Perm.Basic

/-! # The order of declarations

Go lets a name at the top level of a file be used before the line that declares it. Here this means
that the parts of a file can stand in any order: the lowered tree has the same parts at other
positions, every name refers to the same declaration, and a scan gives the same paths and errors.
See `declaration_order_makes_no_difference`.

A reordering sends positions to positions, and an address follows the position of the part that it
leads into. The tables agree up to such a move, because they are sums over the parts of the file
(`WellPlaced.find?_finish_iff`). The scans of the two trees follow declarations that correspond to
each other, so each visit has one effect in both: see `Reordered.visits`.
-/

namespace AssetRefs

/-! ## Positions -/

/-- Keeps the first position and moves the positions behind it. -/
def moveBehindFirst (positions : Nat → Nat) : Nat → Nat
  | 0 => 0
  | position + 1 => positions position + 1

theorem bijective_moveBehindFirst {positions : Nat → Nat} (bijective : positions.Bijective) :
    (moveBehindFirst positions).Bijective := by
  constructor
  · rintro (_ | first) (_ | second) same
    · rfl
    · cases same
    · cases same
    · rw [bijective.injective (Nat.succ.inj same)]
  · rintro (_ | position)
    · exact ⟨0, rfl⟩
    · obtain ⟨origin, rfl⟩ := bijective.surjective position
      exact ⟨origin + 1, rfl⟩

/-- Reordering a list moves positions. -/
theorem exists_positions_of_perm {α : Type} {first second : List α}
    (reordered : first.Perm second) :
    ∃ positions : Nat → Nat, positions.Bijective ∧
      ∀ position, second[positions position]? = first[position]? := by
  induction reordered with
  | nil => exact ⟨id, Function.bijective_id, fun _ => rfl⟩
  | cons head _ ih =>
    obtain ⟨positions, bijective, moved⟩ := ih
    refine ⟨moveBehindFirst positions, bijective_moveBehindFirst bijective, ?_⟩
    rintro (_ | position)
    · rfl
    · exact moved position
  | swap first second rest =>
    refine ⟨Equiv.swap 0 1, (Equiv.swap 0 1).bijective, ?_⟩
    rintro (_ | _ | position)
    · rfl
    · rfl
    · rw [Equiv.swap_apply_of_ne_of_ne (by omega) (by omega)]
      rfl
  | trans _ _ earlier later =>
    obtain ⟨positions, bijective, moved⟩ := earlier
    obtain ⟨positions', bijective', moved'⟩ := later
    exact ⟨positions' ∘ positions, bijective'.comp bijective, fun position =>
      (moved' (positions position)).trans (moved position)⟩

theorem mem_iff_of_moved {α : Type} {first second : List α} {positions : Nat → Nat}
    (surjective : positions.Surjective)
    (moved : ∀ position, second[positions position]? = first[position]?) {entry : α} :
    entry ∈ second ↔ entry ∈ first := by
  rw [List.mem_iff_getElem?, List.mem_iff_getElem?, surjective.exists]
  simp only [moved]

/-- The position of the part is the last entry of an address. -/
theorem injective_modifyLast {positions : Nat → Nat} (injective : positions.Injective) :
    Function.Injective (List.modifyLast positions : Address → Address) := by
  intro first second same
  have none : List.modifyLast positions [] = [] := rfl
  rcases List.eq_nil_or_concat' first with rfl | ⟨inner, last, rfl⟩ <;>
    rcases List.eq_nil_or_concat' second with rfl | ⟨inner', last', rfl⟩
  · rfl
  · simp [none, List.modifyLast_concat] at same
  · simp [none, List.modifyLast_concat] at same
  · rw [List.modifyLast_concat, List.modifyLast_concat, List.append_singleton_inj] at same
    rw [same.1, injective same.2]

theorem Binding.relocate_modifyLast (positions : Nat → Nat) (position : Nat) (own : Binding) :
    (own.relocate (· ++ [position])).relocate (List.modifyLast positions) =
      own.relocate (· ++ [positions position]) := by
  cases own with
  | marker kind => rfl
  | declaration place declaration => simp only [relocate, List.modifyLast_concat]

/-! ## Tables -/

namespace BindingTable

theorem DrawnFrom.find?_eq_none_iff {table : BindingTable} {known : Binding → Prop}
    (drawn : table.DrawnFrom known) {offset : Nat} :
    table.find? offset = none ↔ offset ∉ table.references := by
  rw [find?, Std.TreeMap.mem_iff_isSome_getElem?]
  cases refers : table.references[offset]? with
  | none => simp
  | some reference =>
    cases reference with
    | marker kind => simp [target?]
    | declaration place =>
      obtain ⟨declaration, stored⟩ := drawn.complete refers
      simp [target?, stored]

/-- Tables that know the same offsets have one size. -/
theorem DrawnFrom.size_eq {first second : BindingTable} {known other : Binding → Prop}
    (drawn : first.DrawnFrom known) (drawn' : second.DrawnFrom other)
    (same : ∀ offset, first.find? offset = none ↔ second.find? offset = none) :
    first.size = second.size := by
  have keys : first.references.keys.Perm second.references.keys := by
    rw [List.perm_ext_iff_of_nodup Std.TreeMap.nodup_keys Std.TreeMap.nodup_keys]
    intro offset
    have both := same offset
    rw [drawn.find?_eq_none_iff, drawn'.find?_eq_none_iff, not_iff_not] at both
    rw [Std.TreeMap.mem_keys, Std.TreeMap.mem_keys, both]
  rw [size, size, ← Std.TreeMap.length_keys, ← Std.TreeMap.length_keys, keys.length_eq]

end BindingTable

theorem offsets_placedFrom (first : Nat) (blocks : List (List ScopeEvent)) :
    (placedFrom first blocks).filterMap ScopeEvent.offset? =
      blocks.flatMap (List.filterMap ScopeEvent.offset?) := by
  induction blocks generalizing first with
  | nil => rfl
  | cons block rest ih =>
    change (block.map _ ++ placedFrom (first + 1) rest).filterMap _ = _
    rw [List.filterMap_append, offsets_relocate, ih, List.flatMap_cons]

theorem packageNames_placedFrom {blocks : List (List ScopeEvent)}
    (balanced : ∀ block ∈ blocks, Balanced block) (first : Nat) :
    packageNames (placedFrom first blocks) = blocks.flatMap packageNames := by
  induction blocks generalizing first with
  | nil => rfl
  | cons block rest ih =>
    rw [List.forall_mem_cons] at balanced
    change packageNames (block.map _ ++ placedFrom (first + 1) rest) = _
    rw [packageNames_append (balanced.1.relocate _), packageNames_relocate, ih balanced.2,
      List.flatMap_cons]

/-- Parts that share no names share none in any order. -/
theorem WellPlaced.of_perm {blocks other : List (List ScopeEvent)} (placed : WellPlaced blocks)
    (reordered : other.Perm blocks) (coherent : Coherent (Told (placedFrom 0 other))) :
    WellPlaced other := by
  have balanced : ∀ block ∈ other, Balanced block := fun block member =>
    placed.balanced block (reordered.mem_iff.mp member)
  refine ⟨balanced, coherent, ?_, ?_⟩
  · have apart := placed.apart
    unfold OffsetsApart at apart ⊢
    rw [offsets_placedFrom] at apart ⊢
    exact (reordered.flatMap_right _).nodup_iff.mpr apart
  · have once := placed.once
    rw [packageNames_placedFrom placed.balanced] at once
    rw [packageNames_placedFrom balanced]
    exact (reordered.flatMap_right _).nodup_iff.mpr once

section

variable {blocks other : List (List ScopeEvent)} {positions : Nat → Nat}
  (surjective : positions.Surjective)
  (moved : ∀ position, other[positions position]? = blocks[position]?)

include surjective moved

theorem stemsFrom_iff_of_moved {get : NameState → Option Binding} {target : Binding} :
    StemsFrom other get target ↔ ∃ origin, StemsFrom blocks get origin ∧
      origin.relocate (List.modifyLast positions) = target := by
  constructor
  · rintro ⟨position, block, own, here, found, rfl⟩
    obtain ⟨origin, rfl⟩ := surjective position
    rw [moved] at here
    exact ⟨_, ⟨origin, block, own, here, found, rfl⟩, own.relocate_modifyLast positions origin⟩
  · rintro ⟨_, ⟨position, block, own, here, found, rfl⟩, rfl⟩
    rw [← moved] at here
    exact ⟨positions position, block, own, here, found, own.relocate_modifyLast positions position⟩

/-- The tables of the two files have the same entries, up to the places of declarations. -/
theorem find?_finish_of_moved (placed : WellPlaced blocks) (placed' : WellPlaced other)
    (offset : Nat) :
    (NameState.replay {} (placedFrom 0 other)).finish.find? offset =
      ((NameState.replay {} (placedFrom 0 blocks)).finish.find? offset).map
        (Binding.relocate (List.modifyLast positions)) := by
  have stems {get : NameState → Option Binding} {target : Binding} :
      StemsFrom other get target ↔ ∃ origin, StemsFrom blocks get origin ∧
        origin.relocate (List.modifyLast positions) = target :=
    stemsFrom_iff_of_moved surjective moved
  have unknown {get : NameState → Option Binding} :
      (∀ target, ¬ StemsFrom other get target) ↔ ∀ target, ¬ StemsFrom blocks get target := by
    simp only [stems]
    exact ⟨fun none origin found => none _ ⟨origin, found, rfl⟩,
      fun none _ ⟨origin, found, _⟩ => none origin found⟩
  have waits {name : String} : Waits other offset name ↔ Waits blocks offset name := by
    unfold Waits
    simp only [mem_iff_of_moved surjective moved]
  -- The two descriptions differ in the stems only, and each stem comes from one of the first file.
  ext target
  simp only [Option.map_eq_some_iff, placed.find?_finish_iff, placed'.find?_finish_iff, waits,
    unknown]
  simp only [stems]
  constructor
  · rintro (⟨name, waiting, origin, found, rfl⟩ | ⟨missing, origin, found, rfl⟩)
    · exact ⟨origin, .inl ⟨name, waiting, found⟩, rfl⟩
    · exact ⟨origin, .inr ⟨missing, found⟩, rfl⟩
  · rintro ⟨origin, ⟨name, waiting, found⟩ | ⟨missing, found⟩, rfl⟩
    · exact .inl ⟨name, waiting, origin, found, rfl⟩
    · exact .inr ⟨missing, origin, found, rfl⟩

end

/-! ## Files -/

/-- The tree of a file and the tree of the same file with its parts at other positions. -/
structure Reordered (positions : Nat → Nat) (tree other : SyntaxTree) : Prop where
  bijective : positions.Bijective
  generic : ∃ site parts, tree.root = .generic site parts
  generic_other : ∃ site parts, other.root = .generic site parts
  moved : ∀ position, other.root.children[positions position]? = tree.root.children[position]?
  size_eq : other.bindings.size = tree.bindings.size
  find?_eq : ∀ offset, other.bindings.find? offset =
    (tree.bindings.find? offset).map (Binding.relocate (List.modifyLast positions))

theorem lowerFile_of_gives {source : ByteArray} {path : String} {root : Concrete} {limit : Nat}
    {node : Node} {events : List ScopeEvent}
    (gives : (lower source limit [] root).Gives node events) :
    lowerFile source path root limit = .ok
      { path, root := node, package := (NameState.replay {} events).packageName,
        bindings := (NameState.replay {} events).finish } := by
  rw [lowerFile, gives]

/-- The lowerings of the parts close the scopes that they open. -/
theorem balanced_of_forall₂ {source : ByteArray} {limit : Nat} {parts : List Concrete}
    {pieces : List (Node × List ScopeEvent)}
    (lowered : List.Forall₂ (fun part piece =>
      (lowerPart (lower source limit) [] part).Gives piece.1 piece.2) parts pieces) :
    ∀ block ∈ pieces.map Prod.snd, Balanced block := by
  induction lowered with
  | nil => exact nofun
  | @cons part piece _ _ gives _ ih =>
    obtain ⟨room, same⟩ := exists_lowerPart_eq source limit part
    rw [same] at gives
    exact List.forall_mem_cons.mpr ⟨lower_balanced source room part [] piece.1 piece.2 gives, ih⟩

/-- A file with its parts in another order is lowered too, to the same parts. -/
theorem exists_reordered {source : ByteArray} {path : String} {root : Concrete} {limit : Nat}
    {tree : SyntaxTree} {node : Node} {events : List ScopeEvent} (kind : root.kind = "source_file")
    (lowered : lowerFile source path root limit = .ok tree)
    (told : lower source limit [] root = .ok (node, events)) (apart : OffsetsApart events)
    (once : (packageNames events).Nodup) {children : List Concrete}
    (reordered : children.Perm root.children) :
    ∃ other positions, lowerFile source path (.node root.label children) limit = .ok other ∧
      Reordered positions tree other := by
  obtain rfl := Except.ok.inj ((lowerFile_of_gives told).symm.trans lowered)
  obtain _ | limit := limit
  · cases told
  obtain ⟨pieces, parts, rfl, rfl⟩ := (gives_sourceFile_iff kind).mp told
  -- A part is lowered for itself, so the other file has the same pieces in another order.
  have kept : (Concrete.node root.label children).parts.Perm root.parts := reordered.filter _
  obtain ⟨pieces', parts', shuffled⟩ := List.perm_comp_forall₂ kept parts
  have sameKind : (Concrete.node root.label children).kind = "source_file" := kind
  have gives : (lower source (limit + 1) [] (.node root.label children)).Gives _ _ :=
    (gives_sourceFile_iff sameKind).mpr ⟨pieces', parts', rfl, rfl⟩
  have coherent := coherent_of_lower gives
  have placed : WellPlaced (pieces.map Prod.snd) :=
    ⟨balanced_of_forall₂ parts, coherent_of_lower told, apart, once⟩
  have placed' := placed.of_perm (shuffled.map Prod.snd) coherent
  obtain ⟨positions, bijective, moved⟩ := exists_positions_of_perm shuffled.symm
  have movedIn {α : Type} (get : Node × List ScopeEvent → α) (position : Nat) :
      (pieces'.map get)[positions position]? = (pieces.map get)[position]? := by
    rw [List.getElem?_map, List.getElem?_map, moved]
  have found := find?_finish_of_moved bijective.surjective (movedIn Prod.snd) placed placed'
  have table {blocks : List (List ScopeEvent)} (placed : WellPlaced blocks) :=
    ((NameState.Traced.initial _).replay placed.coherent fun _ told => told).finish placed.coherent
  refine ⟨_, positions, lowerFile_of_gives gives, bijective, ⟨_, _, rfl⟩, ⟨_, _, rfl⟩,
    movedIn Prod.fst, ?_, found⟩
  refine (table placed').1.size_eq (table placed).1 fun offset => ?_
  rw [found, Option.map_eq_none_iff]

namespace Reordered

variable {positions : Nat → Nat} {tree other : SyntaxTree}

/-- The nodes below the roots are the same. -/
theorem at?_modifyLast (reordered : Reordered positions tree other) {place : Address}
    (below : place ≠ []) :
    other.root.at? (place.modifyLast positions) = tree.root.at? place := by
  obtain ⟨inner, position, rfl⟩ := (List.eq_nil_or_concat' place).resolve_left below
  rw [List.modifyLast_concat, Node.at?_append, Node.at?_append]
  simp only [Node.at?, Option.bind_some, reordered.moved]

theorem mem_children_iff (reordered : Reordered positions tree other) {node : Node} :
    node ∈ other.root.children ↔ node ∈ tree.root.children :=
  mem_iff_of_moved reordered.bijective.surjective reordered.moved

end Reordered

/-! ## Scans -/

/-- Scans with one setting that have declarations at different places do the same. -/
theorem ScanFamily.alike_closed {ι : Type} (family : ScanFamily ι)
    (same : ∀ i, family.context i = family.base)
    (injective : ∀ i, Function.Injective (family.move i)) :
    family.Closed fun traces => ∀ active : List Address, ∃ effect, ∀ i,
      (traces i).Has (active.map (family.move i)) effect where
  done value _ := ⟨_, fun _ => .done value⟩
  halt reason _ := ⟨_, fun _ => .halt reason⟩
  resume first next active := by
    obtain ⟨effect, has⟩ := first active
    obtain ⟨later, hasNext⟩ := next effect.outcome active
    exact ⟨_, fun i => (has i).resume (hasNext i)⟩
  addPath raw site active := by
    simp only [same]
    exact ⟨_, fun i => (addPath_has raw site).andThen_idle fun _ => .done ()⟩
  following place traced active := by
    by_cases member : place ∈ active
    · exact ⟨_, fun i => .following_of_mem (List.mem_map_of_mem member)⟩
    · obtain ⟨effect, has⟩ := traced (place :: active)
      refine ⟨effect, fun i => .following_of_not_mem ?_ (has i)⟩
      rwa [List.mem_map_of_injective (injective i)]

namespace Reordered

variable {positions : Nat → Nat} {tree other : SyntaxTree}

/-- The scans of the tree and of the other one. -/
def family (reordered : Reordered positions tree other) (context : ScanContext) :
    ScanFamily Bool where
  context _ := context
  table side := if side then other.bindings else tree.bindings
  move side := if side then List.modifyLast positions else id
  base := context
  names := tree.bindings
  file_eq _ := rfl
  spaceName_eq _ := rfl
  size_eq side := by
    cases side with
    | true => exact reordered.size_eq
    | false => rfl
  find?_eq side offset := by
    cases side with
    | true => exact reordered.find?_eq offset
    | false => exact (Binding.map_relocate_id _).symm

/-- A visit to a node has one effect in both trees. -/
theorem visits (reordered : Reordered positions tree other) (context : ScanContext) (node : Node) :
    ∃ effect, (visitTrace context tree node).Has [] effect ∧
      (visitTrace context other node).Has [] effect := by
  have injective (side : Bool) : Function.Injective ((reordered.family context).move side) := by
    cases side with
    | true => exact injective_modifyLast reordered.bijective.injective
    | false => exact Function.injective_id
  have closed := (reordered.family context).alike_closed (fun _ => rfl) injective
  obtain ⟨effect, has⟩ := closed.classify _ closed.followFresh node []
  exact ⟨effect, has false, has true⟩

end Reordered

/-- Each visit to a node of the first tree has the effect of some visit to a node of the second. -/
def MatchedBy (context : ScanContext) (tree other : SyntaxTree) : Prop :=
  ∀ node ∈ tree.root.walk, ∃ node' ∈ other.root.walk, ∃ effect,
    (visitTrace context tree node).Has [] effect ∧ (visitTrace context other node').Has [] effect

namespace MatchedBy

variable {context : ScanContext} {tree other : SyntaxTree} {result result' : ScanResult}
  (matched : MatchedBy context tree other)

include matched

theorem completes (completed : scanTree context other = .ok result') :
    ∃ result, scanTree context tree = .ok result := by
  obtain ⟨returns, _⟩ := scanTree_collects completed
  have all (node : Node) (walked : node ∈ tree.root.walk) : VisitReturns context tree node := by
    obtain ⟨node', walked', effect, has, has'⟩ := matched node walked
    exact has.visitReturns_iff.mpr (has'.visitReturns_iff.mp (returns node' walked'))
  obtain ⟨paths, errors, ran⟩ := exists_scanTree_eq_ok all
  exact ⟨_, ran⟩

variable (completed : scanTree context tree = .ok result)
  (completed' : scanTree context other = .ok result')

include completed completed'

theorem paths_subset : result.paths ⊆ result'.paths := by
  intro path listed
  obtain ⟨node, walked, found⟩ := (mem_paths_iff completed).mp listed
  obtain ⟨node', walked', effect, has, has'⟩ := matched node walked
  rw [has.mem_found_visitAlone, ← has'.mem_found_visitAlone] at found
  exact (mem_paths_iff completed').mpr ⟨node', walked', found⟩

theorem errors_subset : result.errors ⊆ result'.errors := by
  intro error listed
  obtain ⟨node, walked, logged⟩ := (mem_errors_iff completed).mp listed
  obtain ⟨node', walked', effect, has, has'⟩ := matched node walked
  rw [has.errors_visitAlone, ← has'.errors_visitAlone] at logged
  exact (mem_errors_iff completed').mpr ⟨node', walked', logged⟩

end MatchedBy

/-- Files with the same parts match each other. Nothing comes of visits to the roots, which are the
only nodes that differ. -/
theorem MatchedBy.of_children {context : ScanContext} {tree other : SyntaxTree}
    (generic : ∃ site parts, tree.root = .generic site parts)
    (generic' : ∃ site parts, other.root = .generic site parts)
    (children : ∀ node ∈ tree.root.children, node ∈ other.root.children)
    (visits : ∀ node, ∃ effect, (visitTrace context tree node).Has [] effect ∧
      (visitTrace context other node).Has [] effect) : MatchedBy context tree other := by
  intro node walked
  rw [Node.walk_eq, List.mem_cons, List.mem_flatMap] at walked
  rw [Node.walk_eq]
  rcases walked with rfl | ⟨child, member, walked⟩
  · obtain ⟨site, parts, root⟩ := generic
    obtain ⟨site', parts', root'⟩ := generic'
    refine ⟨_, List.mem_cons_self, ⟨[], .ok ()⟩, ?_, ?_⟩
    · rw [root]
      exact .done ()
    · rw [root']
      exact .done ()
  · have below := List.mem_flatMap.mpr ⟨child, children child member, walked⟩
    exact ⟨node, List.mem_cons_of_mem _ below, visits node⟩

theorem Reordered.matchedBy {positions : Nat → Nat} {tree other : SyntaxTree}
    (reordered : Reordered positions tree other) (context : ScanContext) :
    MatchedBy context tree other ∧ MatchedBy context other tree := by
  have visits := reordered.visits context
  have back (node : Node) : ∃ effect, (visitTrace context other node).Has [] effect ∧
      (visitTrace context tree node).Has [] effect := by
    obtain ⟨effect, has, has'⟩ := visits node
    exact ⟨effect, has', has⟩
  exact ⟨.of_children reordered.generic reordered.generic_other
      (fun _ member => reordered.mem_children_iff.mpr member) visits,
    .of_children reordered.generic_other reordered.generic
      (fun _ member => reordered.mem_children_iff.mp member) back⟩

/-- The order of the declarations of a file makes no difference, provided that no two names are at
one offset and that no name is declared twice for the package. With its children in another order
the file can be lowered too. The nodes below the root are the same at other places, and every name
refers to the same declaration, at the place that the declaration has then, or to the same marker. A
scan of the one tree is completed just if a scan of the other one is, and both give the same list of
paths and the same errors. -/
theorem declaration_order_makes_no_difference {source : ByteArray} {path : String}
    {root : Concrete} {limit : Nat} {tree : SyntaxTree} {node : Node} {events : List ScopeEvent}
    (kind : root.kind = "source_file") (lowered : lowerFile source path root limit = .ok tree)
    (told : lower source limit [] root = .ok (node, events)) (apart : OffsetsApart events)
    (once : (packageNames events).Nodup) {children : List Concrete}
    (reordered : children.Perm root.children) :
    ∃ other, lowerFile source path (.node root.label children) limit = .ok other ∧
      (∃ move : Address → Address, move.Injective ∧
        (∀ place, place ≠ [] → other.root.at? (move place) = tree.root.at? place) ∧
        ∀ offset, other.bindings.find? offset =
          (tree.bindings.find? offset).map (Binding.relocate move)) ∧
      ∀ context : ScanContext,
        ((∃ result, scanTree context tree = .ok result) ↔
          ∃ result, scanTree context other = .ok result) ∧
        ∀ result result', scanTree context tree = .ok result →
          scanTree context other = .ok result' →
          result'.paths = result.paths ∧
            ∀ error, error ∈ result'.errors ↔ error ∈ result.errors := by
  obtain ⟨other, positions, lowered', moved⟩ :=
    exists_reordered kind lowered told apart once reordered
  refine ⟨other, lowered', ⟨List.modifyLast positions, ?_, ?_, moved.find?_eq⟩, ?_⟩
  · exact injective_modifyLast moved.bijective.injective
  · exact fun place below => moved.at?_modifyLast below
  intro context
  obtain ⟨forth, back⟩ := moved.matchedBy context
  refine ⟨⟨?_, ?_⟩, ?_⟩
  · rintro ⟨result, completed⟩
    exact back.completes completed
  · rintro ⟨result, completed⟩
    exact forth.completes completed
  · intro result result' completed completed'
    constructor
    · obtain ⟨_, session, collects, paths, _⟩ := scanTree_collects completed
      obtain ⟨_, session', collects', paths', _⟩ := scanTree_collects completed'
      refine AssetPath.increasing_ext (paths' ▸ collects'.increasing)
        (paths ▸ collects.increasing) fun path => ?_
      exact ⟨fun listed => back.paths_subset completed' completed listed,
        fun listed => forth.paths_subset completed completed' listed⟩
    · intro error
      exact ⟨fun listed => back.errors_subset completed' completed listed,
        fun listed => forth.errors_subset completed completed' listed⟩

/-- The source of a file that uses a constant before it declares it. -/
def lateSource : ByteArray := "func f() { pkger.Open(p) } const p = \"/a\"".toUTF8

/-- The tree of `lateSource`. -/
def lateFile : Concrete :=
  .node { kind := "source_file" }
    [.node { kind := "function_declaration" }
      [.leaf "identifier" "name" 5 6,
        .node { kind := "block", field := some "body" }
          [.node { kind := "call_expression" }
            [.node { kind := "selector_expression", field := some "function" }
              [.leaf "identifier" "operand" 11 16, .leaf "field_identifier" "field" 17 21],
            .node { kind := "argument_list", field := some "arguments" }
              [.leaf "identifier" "" 22 23]]]],
    .node { kind := "const_declaration" }
      [.node { kind := "const_spec" }
        [.leaf "identifier" "name" 33 34,
          .leaf "interpreted_string_literal" "value" 37 41]]]

/-- The declaration `p = "/a"`. -/
def lateConstant : Declaration :=
  .valueSpec ⟨"const_spec", 1, 1⟩ [.ident ⟨"identifier", 1, 34⟩ "p" 33] none
    [.literal ⟨"interpreted_string_literal", 1, 38⟩ "\"/a\""] true

/-- The root of `lateFile` after lowering. -/
def lateRoot : Node :=
  .generic ⟨"source_file", 1, 1⟩
    [.function ⟨"function_declaration", 1, 1⟩ "f" [] (some
      [.call ⟨"call_expression", 1, 1⟩
        (.selector ⟨"selector_expression", 1, 1⟩ (.ident ⟨"identifier", 1, 12⟩ "pkger" 11) "Open")
        [.ident ⟨"identifier", 1, 23⟩ "p" 22]]),
    .group ⟨"const_declaration", 1, 1⟩ [lateConstant.node]]

/-- The events of `lateFile`. -/
def lateEvents : List ScopeEvent :=
  [.declared "f" 5 (.marker .func), .opened, .used "pkger" 11, .used "p" 22, .closed,
    .declared "p" 33 (.declaration [0, 1] lateConstant)]

theorem lower_lateFile :
    lower lateSource nestingLimit [] lateFile = .ok (lateRoot, lateEvents) := by
  rw [nestingLimit, lower_of_isShapeless _ _ _ (by decide +kernel), lowerGeneric_eq,
    lowerAll_lowerPart (by decide +kernel)]
  with_unfolding_all rfl

/-- The tree of the file after lowering. -/
def lateTree : SyntaxTree :=
  { path := "main.go", root := lateRoot, package := none
    bindings := (NameState.replay {} lateEvents).finish }

/-- With the constant first, the argument refers to it still, and the call opens the same path. -/
theorem declaration_order_makes_no_difference_late :
    lateFile.kind = "source_file" ∧ OffsetsApart lateEvents ∧ (packageNames lateEvents).Nodup ∧
      lateFile.children.reverse.Perm lateFile.children ∧
      ∃ other, lowerFile lateSource "main.go"
          (.node lateFile.label lateFile.children.reverse) = .ok other ∧
        (∃ place, other.bindings.find? 22 = some (.declaration place lateConstant) ∧
          other.root.at? place = some lateConstant.node) ∧
        ∃ result, scanTree { file := "main.go", package := "app" } other = .ok result ∧
          result.paths = [⟨"app", "/a"⟩] ∧ ∀ error, error ∉ result.errors := by
  have lowered : lowerFile lateSource "main.go" lateFile = .ok lateTree := by
    rw [lowerFile, lower_lateFile]
    rfl
  have apart : OffsetsApart lateEvents := by decide
  have once : (packageNames lateEvents).Nodup := by decide
  have reordered := List.reverse_perm lateFile.children
  have named : lateTree.bindings.find? 22 = some (.declaration [0, 1] lateConstant) := rfl
  have scanned : scanTree { file := "main.go", package := "app" } lateTree =
      .ok ⟨"main.go", "app", [⟨"app", "/a"⟩], []⟩ := by decide +kernel
  obtain ⟨other, lowered', ⟨move, _, placed, tables⟩, scans⟩ :=
    declaration_order_makes_no_difference rfl lowered lower_lateFile apart once reordered
  obtain ⟨completes, agree⟩ := scans { file := "main.go", package := "app" }
  obtain ⟨result, scanned'⟩ := completes.mp ⟨_, scanned⟩
  obtain ⟨paths, errors⟩ := agree _ _ scanned scanned'
  refine ⟨rfl, apart, once, reordered, other, lowered', ⟨move [0, 1], ?_, ?_⟩, result, scanned',
    paths, fun error logged => ?_⟩
  · rw [tables, named]
    rfl
  · rw [placed [0, 1] (by decide)]
    rfl
  · exact absurd ((errors error).mp logged) List.not_mem_nil

end AssetRefs
