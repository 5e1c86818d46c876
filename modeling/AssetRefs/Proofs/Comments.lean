import AssetRefs.Proofs.LoweringCongruence
import AssetRefs.Scan.Run
import AssetRefs.Syntax.Source

/-! # Comments

The lowering looks at the named children of a node that are no comments and at the children that
fill a field, so comments that fill no field can be deleted from a concrete tree: see
`comments_make_no_difference`. Deleting them keeps the parts of every node
(`Concrete.keepsParts_withoutComments`) and its shape (`Concrete.shape_withoutComments`).
-/

namespace AssetRefs

namespace Concrete

mutual

/-- The tree without the comments in it. Everything else stays where it is. -/
def withoutComments : Concrete → Concrete
  | node label children => node label (withoutCommentsIn children)

/-- The trees that are no comments, without the comments in them. -/
def withoutCommentsIn : List Concrete → List Concrete
  | [] => []
  | tree :: rest =>
    if tree.kind = "comment" then withoutCommentsIn rest
    else tree.withoutComments :: withoutCommentsIn rest

end

/-- No comment in the tree fills a field. -/
def CommentsFillNoField (root : Concrete) : Prop :=
  ∀ tree ∈ root.nodes, tree.kind = "comment" → tree.label.field = none

instance (root : Concrete) : Decidable root.CommentsFillNoField :=
  inferInstanceAs (Decidable (∀ tree ∈ root.nodes, _))

theorem CommentsFillNoField.below {root tree : Concrete} (free : root.CommentsFillNoField)
    (contained : root.Contains tree) : tree.CommentsFillNoField := fun inner member =>
  free inner ((mem_nodes_iff root).mpr (contained.trans ((mem_nodes_iff tree).mp member)))

theorem label_withoutComments (tree : Concrete) : tree.withoutComments.label = tree.label := by
  cases tree
  rfl

theorem kind_withoutComments (tree : Concrete) : tree.withoutComments.kind = tree.kind :=
  congrArg Label.kind tree.label_withoutComments

theorem withoutCommentsIn_eq (trees : List Concrete) :
    withoutCommentsIn trees = (trees.filter (·.kind != "comment")).map withoutComments := by
  induction trees with
  | nil => rfl
  | cons tree rest ih =>
    rw [withoutCommentsIn, ih]
    by_cases comment : tree.kind = "comment" <;> simp [comment]

theorem children_withoutComments (tree : Concrete) :
    tree.withoutComments.children =
      (tree.children.filter (·.kind != "comment")).map withoutComments := by
  cases tree
  exact withoutCommentsIn_eq _

theorem parts_withoutComments (tree : Concrete) :
    tree.withoutComments.parts = tree.parts.map withoutComments := by
  simp only [parts, children_withoutComments, List.filter_map, List.filter_filter,
    Function.comp_def, label_withoutComments, kind_withoutComments]
  congr 2
  funext child
  cases child.label.named <;> simp

theorem keepsParts_withoutComments : KeepsParts withoutComments :=
  ⟨label_withoutComments, parts_withoutComments⟩

theorem hasDefine_withoutComments (tree : Concrete) :
    tree.withoutComments.hasDefine = tree.hasDefine := by
  simp only [hasDefine, children_withoutComments, List.any_map, List.any_filter, Function.comp_def,
    kind_withoutComments]
  congr 1
  funext child
  by_cases comment : child.kind = "comment" <;> simp [comment]

theorem statements_withoutComments (tree : Concrete) :
    tree.withoutComments.statements = tree.statements.map withoutComments := by
  simp only [statements, parts_withoutComments, List.flatMap_map, List.map_flatMap,
    kind_withoutComments]
  congr 1
  funext part
  split_ifs <;> rfl

mutual

theorem specs_withoutComments (tree : Concrete) :
    tree.withoutComments.specs = tree.specs.map withoutComments := by
  cases tree with
  | node label children => exact specsIn_withoutCommentsIn children
termination_by structural tree

theorem specsIn_withoutCommentsIn (trees : List Concrete) :
    specsIn (withoutCommentsIn trees) = (specsIn trees).map withoutComments := by
  cases trees with
  | nil => rfl
  | cons tree rest =>
    have first := specs_withoutComments tree
    have later := specsIn_withoutCommentsIn rest
    by_cases comment : tree.kind = "comment"
    · simp [withoutCommentsIn, specsIn, comment, later]
    · simp only [withoutCommentsIn, specsIn, comment, ↓reduceIte, label_withoutComments,
        kind_withoutComments, first, later]
      split_ifs <;> simp
termination_by structural trees

end

section

variable {tree : Concrete}
  (free : ∀ child ∈ tree.children, child.kind = "comment" → child.label.field = none)

include free

theorem childrenIn_withoutComments (field : String) :
    tree.withoutComments.childrenIn field = (tree.childrenIn field).map withoutComments := by
  simp only [childrenIn, children_withoutComments, List.filter_map, List.filter_filter,
    Function.comp_def, label_withoutComments]
  congr 1
  refine List.filter_congr fun child member => ?_
  by_cases comment : child.kind = "comment"
  · simp [free child member comment]
  · simp [comment]

theorem child?_withoutComments (field : String) :
    tree.withoutComments.child? field = (tree.child? field).map withoutComments := by
  have filled := childrenIn_withoutComments free field
  simp only [childrenIn] at filled
  simp only [child?, ← List.head?_filter, filled, List.head?_map]

theorem binderShape_withoutComments (marker : Marker) :
    tree.withoutComments.binderShape marker =
      (tree.binderShape marker).map withoutComments := by
  simp only [binderShape, hasDefine_withoutComments, child?_withoutComments free]
  split_ifs <;> rfl

theorem functionShape_withoutComments (declares : Bool) :
    tree.withoutComments.functionShape declares =
      (tree.functionShape declares).map withoutComments := by
  have body (statements : Option Concrete) :
      (statements.map withoutComments).map Concrete.statements =
        (statements.map Concrete.statements).map (List.map withoutComments) := by
    simp [Function.comp_def, statements_withoutComments]
  simp only [functionShape, Shape.map, child?_withoutComments free, parts_withoutComments,
    List.filter_map, Function.comp_def, kind_withoutComments,
    keepsParts_withoutComments.any_sameAs, body]

/-- Without comments, the same nodes play the same roles. -/
theorem shape_withoutComments :
    tree.withoutComments.shape = tree.shape.map withoutComments := by
  have filled := child?_withoutComments free
  have parts := parts_withoutComments tree
  unfold shape
  rw [kind_withoutComments]
  split
  all_goals first
    -- An element and a statement depend on how many parts they have.
    | (rw [parts]; rcases tree.parts with _ | ⟨inner, _ | _⟩ <;> rfl)
    | simp only [Shape.map, filled, parts, keepsParts_withoutComments.parts_option,
        statements_withoutComments, specs_withoutComments, childrenIn_withoutComments free,
        binderShape_withoutComments free, functionShape_withoutComments free, List.filter_map,
        Function.comp_def, kind_withoutComments]

end

end Concrete

open Lowering

theorem lower_withoutComments {root : Concrete} (free : root.CommentsFillNoField)
    (source : ByteArray) (limit : Nat) (place : Address) :
    lower source limit place root.withoutComments = lower source limit place root := by
  induction limit generalizing root place with
  | zero => rfl
  | succ limit ih =>
    have children : ∀ child ∈ root.children, child.kind = "comment" → child.label.field = none :=
      fun child member => free child ((Concrete.mem_nodes_iff root).mpr (.child .self member))
    exact LoweringCongruence.equality.related_lowerShape Concrete.keepsParts_withoutComments
      (Concrete.shape_withoutComments children)
      fun part enclosed place => ih (free.below enclosed.contains) place

/-- Deleting the comments of a tree without syntax errors changes neither what it is lowered to, be
it the lowered tree, the package name or the binding table, nor what a run finds in it. -/
theorem comments_make_no_difference {root : Concrete} (sound : root.label.erroneous = false)
    (free : root.CommentsFillNoField) (source : ByteArray) (path : String) (limit : Nat) :
    loadTree source path root.withoutComments limit = loadTree source path root limit ∧
    ∀ (context : ScanContext) (session : Session),
      (loadTree source path root.withoutComments limit).map (session.run context) =
        (loadTree source path root limit).map (session.run context) := by
  have same : loadTree source path root.withoutComments limit =
      loadTree source path root limit := by
    simp only [loadTree, root.label_withoutComments, sound, lowerFile,
      lower_withoutComments free]
    rfl
  refine ⟨same, fun context session => ?_⟩
  rw [same]

/-- The source of a statement with comments in it and beside it. -/
def commentedSource : ByteArray :=
  "\x7b pkger.Open(/* page */ \"/a\") /* done */ \x7d".toUTF8

/-- The tree of `commentedSource`. -/
def commentedBlock : Concrete :=
  .node { kind := "block", stop := 42 }
    [.node { kind := "expression_statement", start := 2, stop := 40, column := 2 }
      [.node { kind := "call_expression", start := 2, stop := 29, column := 2 }
        [.node { kind := "selector_expression", field := some "function", start := 2, stop := 12 }
          [.leaf "identifier" "operand" 2 7, .leaf "field_identifier" "field" 8 12],
        .node { kind := "argument_list", field := some "arguments", start := 12, stop := 29 }
          [.node { kind := "comment", start := 13, stop := 23, column := 13 } [],
            .node { kind := "interpreted_string_literal", start := 24, stop := 28 } []]],
      .node { kind := "comment", start := 30, stop := 40, column := 30 } []]]

theorem loadTree_commentedBlock :
    loadTree commentedSource "main.go" commentedBlock = .ok
      { path := "main.go"
        root := .generic ⟨"block", 1, 1⟩
          [.statement ⟨"expression_statement", 1, 3⟩
            (.call ⟨"call_expression", 1, 3⟩
              (.selector ⟨"selector_expression", 1, 1⟩
                (.ident ⟨"identifier", 1, 3⟩ "pkger" 2) "Open")
              [.literal ⟨"interpreted_string_literal", 1, 1⟩ "\"/a\""])]
        package := none
        bindings := .empty } := by
  with_unfolding_all rfl

/-- The call is the only part of its statement, and the path its first argument. -/
theorem comments_make_no_difference_commented :
    commentedBlock.label.erroneous = false ∧ commentedBlock.CommentsFillNoField ∧
      commentedBlock.nodes.length = 10 ∧ commentedBlock.withoutComments.nodes.length = 8 ∧
      ∃ tree, loadTree commentedSource "main.go" commentedBlock = .ok tree ∧
        loadTree commentedSource "main.go" commentedBlock.withoutComments = .ok tree := by
  have free : commentedBlock.CommentsFillNoField := by decide
  obtain ⟨same, _⟩ := comments_make_no_difference rfl free commentedSource "main.go" nestingLimit
  exact ⟨rfl, free, rfl, rfl, _, loadTree_commentedBlock, same.trans loadTree_commentedBlock⟩

end AssetRefs
