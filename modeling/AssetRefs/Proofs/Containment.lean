import AssetRefs.Syntax.Node

/-! # The nodes of a tree

A tree contains its root and the children of every node that it contains. The walk reaches just
these nodes, at any depth. It is the walk of recursion: a node comes before what the walks of its
children reach, see `Node.walk_eq`.
-/

namespace AssetRefs.Node

/-- The tree with the given root contains a node. -/
inductive Contains (root : Node) : Node → Prop where
  | self : root.Contains root
  | child {parent node : Node} : root.Contains parent → node ∈ parent.children →
      root.Contains node

theorem Contains.trans {a b c : Node} (outer : a.Contains b) (inner : b.Contains c) :
    a.Contains c := by
  induction inner with
  | self => exact outer
  | child _ member ih => exact ih.child member

/-- A tree contains its root and what the trees of the children contain. -/
theorem contains_iff {root node : Node} :
    root.Contains node ↔ node = root ∨ ∃ child ∈ root.children, child.Contains node := by
  constructor
  · intro contains
    induction contains with
    | self => exact .inl rfl
    | child _ member ih =>
      rcases ih with rfl | ⟨child, first, below⟩
      · exact .inr ⟨_, member, .self⟩
      · exact .inr ⟨child, first, below.child member⟩
  · rintro (rfl | ⟨child, member, below⟩)
    · exact .self
    · exact (Contains.self.child member).trans below

theorem size_le_sizes_of_mem {node : Node} {nodes : List Node} (member : node ∈ nodes) :
    node.size ≤ sizes nodes := by
  induction member with
  | head rest => exact Nat.le_add_right ..
  | tail first _ ih => exact Nat.le_trans ih (Nat.le_add_left ..)

theorem mem_walkFrom_iff {node : Node} (seen pending : List Node) :
    node ∈ walkFrom seen pending ↔ node ∈ seen ∨ ∃ tree ∈ pending, tree.Contains node := by
  induction seen, pending using walkFrom.induct with
  | case1 seen => simp [walkFrom]
  | case2 seen tree pending ih =>
    rw [walkFrom, ih]
    simp only [List.mem_cons, List.mem_append, or_and_right, exists_or, exists_eq_left, or_assoc]
    rw [@contains_iff tree node]
    constructor
    · rintro (rfl | visited | below | later)
      · exact .inr (.inl (.inl rfl))
      · exact .inl visited
      · exact .inr (.inl (.inr below))
      · exact .inr (.inr later)
    · rintro (visited | (rfl | below) | later)
      · exact .inr (.inl visited)
      · exact .inl rfl
      · exact .inr (.inr (.inl below))
      · exact .inr (.inr (.inr later))

/-- The walk visits the nodes that the tree contains and no others. -/
theorem mem_walk_iff {root node : Node} : node ∈ root.walk ↔ root.Contains node := by
  rw [walk, mem_walkFrom_iff]
  simp

/-! ## The walk of recursion -/

theorem sizes_children_append_lt (node : Node) (pending : List Node) :
    sizes (node.children ++ pending) < sizes (node :: pending) := by
  have whole := node.size_eq
  simp only [sizes_append, sizes]
  omega

theorem walkFrom_eq_append (seen pending : List Node) :
    walkFrom seen pending = seen.reverse ++ walkFrom [] pending := by
  induction size : sizes pending using Nat.strongRecOn generalizing seen pending with
  | ind size ih =>
    subst size
    cases pending with
    | nil => simp [walkFrom]
    | cons node pending =>
      have later (seen : List Node) :=
        ih _ (sizes_children_append_lt node pending) seen (node.children ++ pending) rfl
      rw [walkFrom, walkFrom, later (node :: seen), later [node]]
      simp

theorem walkFrom_append (first second : List Node) :
    walkFrom [] (first ++ second) = walkFrom [] first ++ walkFrom [] second := by
  induction size : sizes first using Nat.strongRecOn generalizing first with
  | ind size ih =>
    subst size
    cases first with
    | nil => simp [walkFrom]
    | cons node rest =>
      have later := ih _ (sizes_children_append_lt node rest) (node.children ++ rest) rfl
      rw [List.cons_append, walkFrom, walkFrom, walkFrom_eq_append [node],
        walkFrom_eq_append [node], ← List.append_assoc node.children, later, List.append_assoc]

theorem walkFrom_nil (pending : List Node) : walkFrom [] pending = pending.flatMap walk := by
  induction pending with
  | nil => simp [walkFrom]
  | cons node rest ih =>
    rw [List.flatMap_cons, ← ih, walk, ← walkFrom_append, List.singleton_append]

/-- A node is walked before its children. -/
theorem walk_eq (node : Node) : node.walk = node :: node.children.flatMap walk := by
  rw [walk, walkFrom, walkFrom_eq_append, List.append_nil, walkFrom_nil]
  rfl

end AssetRefs.Node
