import AssetRefs.Proofs.ConcreteShapes
import AssetRefs.Proofs.Containment
import Mathlib.Data.List.Basic

/-! # Preorder

A node of a tree is reached from the root on a route, given by the index of a child at every step.
Lexicographic order of routes is preorder: the route to a node continues the one to its parent, and
the routes to siblings differ in their last index. A traversal by recursion comes to the nodes in
this order, to each of them once (`Branching.listsInOrder_preorder`). The traversals of lowered and
of concrete trees keep the trees that they have still to enter, at all depths, on one stack; what
they have left to do is the recursion on each of these, one after the other. See
`traversals_are_preorder`.
-/

namespace AssetRefs

/-- Finite trees: a node has children, and they are smaller than it. -/
class Branching (α : Type) where
  children : α → List α
  size : α → Nat
  size_lt {child parent : α} : child ∈ children parent → size child < size parent

namespace Branching

variable {α : Type} [Branching α]

/-- What holds of a node if it holds of its children holds of every node. -/
@[elab_as_elim]
theorem induct {motive : α → Prop}
    (step : ∀ root, (∀ child ∈ children root, motive child) → motive root) (root : α) :
    motive root :=
  step root fun child _ => induct step child
termination_by size root
decreasing_by exact size_lt ‹_›

/-- The nodes of a tree by recursion: the root, then those of its children, child by child. -/
def preorder (root : α) : List α :=
  root :: (children root).attach.flatMap fun child => preorder child.1
termination_by size root
decreasing_by exact size_lt child.2

theorem preorder_eq (root : α) : preorder root = root :: (children root).flatMap preorder := by
  rw [preorder, List.flatMap_subtype, List.unattach_attach]
  exact fun _ _ => rfl

/-- The node that a route leads to from the root. -/
def at? (root : α) : List Nat → Option α
  | [] => some root
  | index :: route => (children root)[index]?.bind fun child => at? child route

/-- The nodes of the list are those of the tree, each of them once, in the order of their routes:
parents before their children, siblings in order. -/
def ListsInOrder (root : α) (nodes : List α) : Prop :=
  ∃ routes : List (List Nat), routes.Pairwise (· < ·) ∧
    (∀ route, route ∈ routes ↔ (at? root route).isSome) ∧ routes.map (at? root) = nodes.map some

/-! ## Recursion comes to every route in order -/

/-- The nodes of a tree by recursion, with the routes to them. -/
def places (root : α) : List (List Nat × α) :=
  ([], root) :: (children root).attach.zipIdx.flatMap fun entry =>
    (places entry.1.1).map fun place => (entry.2 :: place.1, place.2)
termination_by size root
decreasing_by exact size_lt entry.1.2

theorem places_eq (root : α) :
    places root = ([], root) :: (children root).zipIdx.flatMap fun entry =>
      (places entry.1).map fun place => (entry.2 :: place.1, place.2) := by
  rw [places, ← List.attach_map_subtype_val (children root), List.zipIdx_map, List.flatMap_map,
    List.attach_map_subtype_val]
  rfl

omit [Branching α] in
theorem mem_of_mem_zipIdx {trees : List α} {entry : α × Nat} (member : entry ∈ trees.zipIdx) :
    entry.1 ∈ trees :=
  List.mem_of_getElem? (List.mem_zipIdx_iff_getElem?.mp member)

theorem map_snd_places (root : α) : (places root).map Prod.snd = preorder root := by
  induction root using induct with
  | step root ih =>
    have below : ∀ entry ∈ (children root).zipIdx,
        ((places entry.1).map fun place => (entry.2 :: place.1, place.2)).map Prod.snd =
          preorder entry.1 := by
      intro entry member
      rw [List.map_map, ← ih _ (mem_of_mem_zipIdx member)]
      rfl
    rw [places_eq, preorder_eq, List.map_cons, List.map_flatMap, List.flatMap_congr below,
      ← List.flatMap_map Prod.fst, List.zipIdx_map_fst]

theorem mem_places_iff {route : List Nat} {node root : α} :
    (route, node) ∈ places root ↔ at? root route = some node := by
  induction route generalizing root with
  | nil =>
    rw [places_eq]
    simp [at?, eq_comm]
  | cons index route ih =>
    rw [places_eq]
    simp only [at?, Option.bind_eq_some_iff, List.mem_cons, List.mem_flatMap, List.mem_map,
      Prod.mk.injEq, List.cons.injEq, reduceCtorEq, false_and, false_or]
    constructor
    · rintro ⟨⟨child, _⟩, indexed, ⟨_, _⟩, place, ⟨rfl, rfl⟩, rfl⟩
      exact ⟨child, List.mem_zipIdx_iff_getElem?.mp indexed, ih.mp place⟩
    · rintro ⟨child, indexed, found⟩
      exact ⟨(child, index), List.mem_zipIdx_iff_getElem?.mpr indexed, (route, node),
        ih.mpr found, ⟨rfl, rfl⟩, rfl⟩

omit [Branching α] in
theorem pairwise_zipIdx (trees : List α) (start : Nat) :
    (trees.zipIdx start).Pairwise fun first second => first.2 < second.2 := by
  have increasing := List.pairwise_lt_range' (s := start) (n := trees.length)
  rw [← List.zipIdx_map_snd, List.pairwise_map] at increasing
  exact increasing

theorem pairwise_places (root : α) :
    (places root).Pairwise fun first second => first.1 < second.1 := by
  induction root using induct with
  | step root ih =>
    rw [places_eq, List.pairwise_cons, List.pairwise_flatMap]
    refine ⟨?_, ?_, ?_⟩
    · -- The root comes before what is below it.
      intro place below
      simp only [List.mem_flatMap, List.mem_map] at below
      obtain ⟨entry, -, place, -, rfl⟩ := below
      exact List.nil_lt_cons _ _
    · -- Two places below one child differ in the rest of their routes.
      intro entry member
      rw [List.pairwise_map]
      apply (ih _ (mem_of_mem_zipIdx member)).imp
      intro first second less
      exact List.cons_lt_cons_iff.mpr (.inr ⟨rfl, less⟩)
    · -- Places below two children differ in the first index.
      refine (pairwise_zipIdx _ _).imp fun less place first other second => ?_
      obtain ⟨_, _, rfl⟩ := List.mem_map.mp first
      obtain ⟨_, _, rfl⟩ := List.mem_map.mp second
      exact List.cons_lt_cons_iff.mpr (.inl less)

/-- Recursion comes to the nodes of a tree in the order of their routes. -/
theorem listsInOrder_preorder (root : α) : ListsInOrder root (preorder root) := by
  refine ⟨(places root).map Prod.fst, List.pairwise_map.mpr (pairwise_places root), ?_, ?_⟩
  · intro route
    simp only [List.mem_map, Prod.exists, exists_and_right, exists_eq_right, mem_places_iff,
      Option.isSome_iff_exists]
  · rw [← map_snd_places, List.map_map, List.map_map]
    exact List.map_congr_left fun place member => mem_places_iff.mp member

/-- The route leads to a node that passes a test, and none before it leads to one that does. -/
structure LeadsToFirst (test : α → Bool) (root : α) (route : List Nat) (node : α) : Prop where
  found : at? root route = some node
  passes : test node = true
  first {earlier : List Nat} {other : α} : earlier < route → at? root earlier = some other →
    test other = false

theorem exists_leadsToFirst {test : α → Bool} {root node : α}
    (found : (preorder root).find? test = some node) :
    ∃ route, LeadsToFirst test root route node := by
  rw [← map_snd_places, List.find?_map, Option.map_eq_some_iff] at found
  obtain ⟨⟨route, _⟩, found, rfl⟩ := found
  obtain ⟨passes, before, after, split, failed⟩ := List.find?_eq_some_iff_append.mp found
  have ordered := pairwise_places root
  rw [split, List.pairwise_append, List.pairwise_cons] at ordered
  obtain ⟨-, ⟨later, -⟩, -⟩ := ordered
  refine ⟨route, mem_places_iff.mp (List.mem_of_find?_eq_some found), passes, ?_⟩
  intro earlier other less reached
  have member := mem_places_iff.mpr reached
  rw [split, List.mem_append, List.mem_cons] at member
  rcases member with member | same | member
  · simpa using failed _ member
  · cases same
    exact absurd less (List.lt_irrefl _)
  · exact absurd less (List.lt_asymm (later _ member))

theorem not_of_find?_eq_none {test : α → Bool} {root node : α} {route : List Nat}
    (none : (preorder root).find? test = none) (found : at? root route = some node) :
    test node = false := by
  rw [← map_snd_places] at none
  have failed := List.find?_eq_none.mp none node
    (List.mem_map.mpr ⟨(route, node), mem_places_iff.mpr found, rfl⟩)
  exact Bool.eq_false_iff.mpr failed

end Branching

/-! ## The two traversals -/

instance : Branching Node where
  children := Node.children
  size := Node.size
  size_lt {child parent} member := by
    have part := Node.size_le_sizes_of_mem member
    have whole := parent.size_eq
    omega

instance : Branching Concrete where
  children := Concrete.children
  size := Concrete.weight
  size_lt {child parent} member := by
    have part := Concrete.weight_le_weights_of_mem member
    have whole := parent.weight_eq
    omega

open Branching

theorem Node.walk_eq_preorder (root : Node) : root.walk = preorder root := by
  induction root using Branching.induct with
  | step root ih => rw [walk_eq, preorder_eq, ← List.flatMap_congr ih]; rfl

/-- What is looked for is the first faulty node of the trees on the stack, one after the other. -/
theorem Concrete.firstFaulty?_eq_find? (pending : List Concrete) :
    firstFaulty? pending = (pending.flatMap preorder).find? isFaulty := by
  induction pending using firstFaulty?.induct with
  | case1 => simp [firstFaulty?]
  | case2 tree pending faulty =>
    rw [firstFaulty?, if_pos faulty, List.flatMap_cons, preorder_eq, List.cons_append,
      List.find?_cons_of_pos faulty]
  | case3 tree pending sound ih =>
    rw [firstFaulty?, if_neg sound, ih, List.flatMap_cons, preorder_eq tree, List.cons_append,
      List.find?_cons_of_neg sound, List.flatMap_append]
    rfl

/-- A walk through a lowered tree comes to the nodes that recursion comes to: to every node once, to
parents before their children and to siblings in order. A syntax error is reported at the first
node in the same order that is an error or missing, over all children of a concrete tree, and at the
root if there is no such node. -/
theorem traversals_are_preorder :
    (∀ root : Node, root.walk = preorder root ∧ ListsInOrder root root.walk) ∧
    ∀ root : Concrete,
      let isFault (node : Concrete) : Bool := node.kind == "ERROR" || node.label.missing
      root.faultNode = ((preorder root).find? isFault).getD root ∧
      ((∃ route, LeadsToFirst isFault root route root.faultNode) ∨
        (∀ route node, at? root route = some node → isFault node = false) ∧
          root.faultNode = root) := by
  constructor
  · intro root
    rw [root.walk_eq_preorder]
    exact ⟨rfl, listsInOrder_preorder root⟩
  · intro root isFault
    have recursive : root.faultNode = ((preorder root).find? isFault).getD root := by
      rw [Concrete.faultNode, Concrete.firstFaulty?_eq_find?, List.flatMap_singleton]
      rfl
    refine ⟨recursive, ?_⟩
    rw [recursive]
    cases found : (preorder root).find? isFault with
    | some node => exact .inl (exists_leadsToFirst found)
    | none => exact .inr ⟨fun _ _ => not_of_find?_eq_none found, rfl⟩

end AssetRefs
