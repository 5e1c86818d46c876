import AssetRefs.Text.Utf8

/-! # Concrete trees

The tree of a source file with every token in it. A node knows its kind, the field it fills in its
parent, its extent in bytes and the place where it starts. Trees come from the parser of this
library or from elsewhere, so nothing is assumed about their shape.
-/

namespace AssetRefs

/-- What a concrete node says of itself. -/
structure Concrete.Label where
  kind : String
  /-- The field that the node fills in its parent. -/
  field : Option String := none
  /-- Byte extent, the end not included. -/
  start : Nat := 0
  stop : Nat := 0
  /-- Where the node starts, counted from zero; columns count bytes. -/
  row : Nat := 0
  column : Nat := 0
  /-- Punctuation and keywords are not named. -/
  named : Bool := true
  /-- The node stands for a token that the source lacks. -/
  missing : Bool := false
  /-- There is a syntax error at or below the node. -/
  erroneous : Bool := false
deriving DecidableEq, Inhabited, Repr

/-- A node and its children in source order. -/
inductive Concrete where
  | node (label : Concrete.Label) (children : List Concrete)
deriving Inhabited, Repr

namespace Concrete

/-- What the node says of itself. -/
def label : Concrete → Label
  | node label _ => label

/-- The children in source order. -/
def children : Concrete → List Concrete
  | node _ children => children

/-- The kind of the node. -/
def kind (tree : Concrete) : String := tree.label.kind

/-- The named children that are no comments. -/
def parts (tree : Concrete) : List Concrete :=
  tree.children.filter fun child => child.label.named && child.kind != "comment"

/-- The first child that fills the field. -/
def child? (tree : Concrete) (field : String) : Option Concrete :=
  tree.children.find? fun child => child.label.field == some field

/-- All children that fill the field. -/
def childrenIn (tree : Concrete) (field : String) : List Concrete :=
  tree.children.filter fun child => child.label.field == some field

/-- Whether two nodes have the same extent and kind. -/
def sameAs (a b : Concrete) : Bool :=
  a.label.start == b.label.start && a.label.stop == b.label.stop && a.kind == b.kind

/-- The source text of the node; an extent beyond the source is cut off. -/
def text (source : ByteArray) (tree : Concrete) : String :=
  String.ofList (Text.Utf8.decode (source.extract tree.label.start tree.label.stop).toList)

mutual

/-- Two for every node; what a traversal with an explicit stack has left to do is measured by
it. -/
def weight : Concrete → Nat
  | node _ children => 2 + weights children

/-- The weight of several trees. -/
def weights : List Concrete → Nat
  | [] => 0
  | tree :: rest => tree.weight + weights rest

end

theorem weight_eq (tree : Concrete) : tree.weight = 2 + weights tree.children := by
  cases tree; rfl

theorem weights_append (first second : List Concrete) :
    weights (first ++ second) = weights first + weights second := by
  induction first with
  | nil => simp [weights]
  | cons tree rest ih => simp only [List.cons_append, weights, ih]; omega

theorem weights_filter_le (keep : Concrete → Bool) (trees : List Concrete) :
    weights (trees.filter keep) ≤ weights trees := by
  induction trees with
  | nil => simp [weights]
  | cons tree rest ih =>
    by_cases kept : keep tree
    · simp only [List.filter_cons_of_pos kept, weights]; omega
    · simp only [List.filter_cons_of_neg kept, weights]; omega

theorem weights_parts_lt (tree : Concrete) : weights tree.parts + 1 < tree.weight := by
  have bound : weights tree.parts ≤ weights tree.children := weights_filter_le _ _
  have whole := tree.weight_eq
  omega

/-- Whether the node itself marks a syntax error. -/
def isFaulty (tree : Concrete) : Bool := tree.kind == "ERROR" || tree.label.missing

/-- The first faulty node below the pending trees, parents before children and children in
order. -/
def firstFaulty? : List Concrete → Option Concrete
  | [] => none
  | tree :: pending => if tree.isFaulty then some tree else firstFaulty? (tree.children ++ pending)
termination_by pending => weights pending
decreasing_by
  have whole := tree.weight_eq
  simp only [weights_append, weights]
  omega

/-- The node where a syntax error is reported: the first faulty node, or the root. -/
def faultNode (root : Concrete) : Concrete := (firstFaulty? [root]).getD root

end Concrete

end AssetRefs
