import AssetRefs.Proofs.Operands
import Mathlib.Algebra.BigOperators.Group.List.Basic
import Mathlib.Algebra.Order.Group.Multiset
import Mathlib.Tactic.Abel
import Mathlib.Tactic.MkIffOfInductiveProp

/-! # Trees that follow the grammar

What the lowering relies on in a tree that the grammar allows is said of each node by itself: see
`Concrete.Conforms`. In such a tree the operands of a node hold all calls below it, each of them
once, except those in the type arguments of a call: see `Concrete.FollowsGrammar.calls_eq`.
-/

namespace AssetRefs.Concrete

/-! ## Calls of concrete trees -/

mutual

/-- The places of the calls in a tree, except those in the type arguments of a call. -/
def callSites : Concrete → List Site
  | node label children =>
    (node label children).callSite?.toList ++
      callSitesIn (label.kind = "call_expression") children

/-- The places of the calls in the children of a node, which may be a call itself. -/
def callSitesIn (ofCall : Bool) : List Concrete → List Site
  | [] => []
  | tree :: rest =>
    if ofCall && tree.label.field == some "type_arguments" then callSitesIn ofCall rest
    else tree.callSites ++ callSitesIn ofCall rest

end

/-- The calls in a tree, however they are ordered. -/
def calls (tree : Concrete) : Multiset Site := tree.callSites

/-- The calls in several trees. -/
def callsAmong (trees : List Concrete) : Multiset Site := (trees.map calls).sum

@[simp] theorem callsAmong_nil : callsAmong [] = 0 := rfl

@[simp] theorem callsAmong_cons (tree : Concrete) (rest : List Concrete) :
    callsAmong (tree :: rest) = tree.calls + callsAmong rest := by
  simp [callsAmong]

@[simp] theorem callsAmong_append (first second : List Concrete) :
    callsAmong (first ++ second) = callsAmong first + callsAmong second := by
  simp [callsAmong]

theorem callsAmong_eq_zero {trees : List Concrete} (silent : ∀ tree ∈ trees, tree.calls = 0) :
    callsAmong trees = 0 := by
  induction trees with
  | nil => rfl
  | cons tree rest ih =>
    rw [List.forall_mem_cons] at silent
    rw [callsAmong_cons, silent.1, ih silent.2, add_zero]

/-- Which trees without calls are left out makes no difference. -/
theorem callsAmong_filter_congr {keep other : Concrete → Bool} {trees : List Concrete}
    (same : ∀ tree ∈ trees, tree.calls = 0 ∨ keep tree = other tree) :
    callsAmong (trees.filter keep) = callsAmong (trees.filter other) := by
  induction trees with
  | nil => rfl
  | cons tree rest ih =>
    rw [List.forall_mem_cons] at same
    have later := ih same.2
    rcases same.1 with silent | same
    · cases kept : keep tree <;> cases left : other tree <;> simp [kept, left, silent, later]
    · cases left : other tree <;> simp [same, left, later]

theorem callsAmong_filter {keep : Concrete → Bool} {trees : List Concrete}
    (silent : ∀ tree ∈ trees, tree.calls = 0 ∨ keep tree = true) :
    callsAmong (trees.filter keep) = callsAmong trees := by
  have all : callsAmong (trees.filter keep) = callsAmong (trees.filter fun _ => true) :=
    callsAmong_filter_congr silent
  rwa [List.filter_true] at all

theorem callsAmong_partition (keep : Concrete → Bool) (trees : List Concrete) :
    callsAmong trees =
      callsAmong (trees.filter keep) + callsAmong (trees.filter fun tree => !keep tree) := by
  induction trees with
  | nil => rfl
  | cons tree rest ih =>
    rw [List.filter_cons, List.filter_cons, callsAmong_cons, ih]
    cases keep tree
    · exact add_left_comm _ _ _
    · exact (add_assoc _ _ _).symm

theorem callSitesIn_eq (ofCall : Bool) (trees : List Concrete) :
    (callSitesIn ofCall trees : Multiset Site) =
      callsAmong (trees.filter fun tree =>
        !(ofCall && tree.label.field == some "type_arguments")) := by
  induction trees with
  | nil => rfl
  | cons tree rest ih =>
    rw [callSitesIn, List.filter_cons]
    cases skipped : ofCall && tree.label.field == some "type_arguments"
    · simp [ih, ← Multiset.coe_add, calls]
    · simp [ih]

theorem calls_of_call {tree : Concrete} (kind : tree.kind = "call_expression") :
    tree.calls = {tree.site} +
      callsAmong (tree.children.filter fun child =>
        !(child.label.field == some "type_arguments")) := by
  obtain ⟨label, below⟩ := tree
  have called : (node label below).callSite? = some (node label below).site := if_pos kind
  have labelled : label.kind = "call_expression" := kind
  rw [calls, callSites, ← Multiset.coe_add, callSitesIn_eq, called]
  simp [labelled, children]

theorem calls_of_kind {tree : Concrete} (kind : tree.kind ≠ "call_expression") :
    tree.calls = callsAmong tree.children := by
  obtain ⟨label, below⟩ := tree
  have called : (node label below).callSite? = none := if_neg kind
  have labelled : label.kind ≠ "call_expression" := kind
  rw [calls, callSites, ← Multiset.coe_add, callSitesIn_eq, called]
  simp [labelled, children]

/-- Trees that are told apart by the fields they fill. -/
theorem callsAmong_fields {fields : List String} {trees : List Concrete} (distinct : fields.Nodup)
    (covered : ∀ tree ∈ trees, tree.calls = 0 ∨ ∃ field ∈ fields, tree.label.field = some field) :
    callsAmong trees = (fields.map fun field =>
      callsAmong (trees.filter fun tree => tree.label.field == some field)).sum := by
  induction fields generalizing trees with
  | nil =>
    refine callsAmong_eq_zero fun tree member => ?_
    simpa using covered tree member
  | cons field fields ih =>
    rw [List.nodup_cons] at distinct
    have others : ∀ tree ∈ trees.filter (fun tree => !(tree.label.field == some field)),
        tree.calls = 0 ∨ ∃ field ∈ fields, tree.label.field = some field := by
      intro tree member
      obtain ⟨member, filled⟩ := List.mem_filter.mp member
      refine (covered tree member).imp_right ?_
      rintro ⟨other, listed, filling⟩
      rcases List.mem_cons.mp listed with rfl | listed
      · simp [filling] at filled
      · exact ⟨other, listed, filling⟩
    rw [callsAmong_partition (fun tree => tree.label.field == some field), ih distinct.2 others,
      List.map_cons, List.sum_cons]
    congr 2
    refine List.map_congr_left fun other listed => ?_
    rw [List.filter_filter]
    congr 1
    refine List.filter_congr fun tree _ => ?_
    by_cases filled : tree.label.field = some other
    · have differs : other ≠ field := fun same => distinct.1 (same ▸ listed)
      simp [filled, differs]
    · simp [filled]

/-! ## The grammar -/

/-- Whether the node counts as a part of its parent. -/
def isPart (tree : Concrete) : Bool := tree.label.named && tree.kind != "comment"

/-- The fields of a node whose parts are told apart by them. -/
def fieldsRead? (tree : Concrete) : Option (List String) :=
  match tree.kind with
  | "call_expression" => some ["function", "type_arguments", "arguments"]
  | "selector_expression" => some ["operand", "field"]
  | "composite_literal" => some ["type", "body"]
  | "short_var_declaration" | "assignment_statement" => some ["left", "right"]
  | "range_clause" | "receive_statement" => if tree.hasDefine then some ["left", "right"] else none
  | "const_spec" | "var_spec" => some ["name", "type", "value"]
  | "parameter_declaration" | "variadic_parameter_declaration" => some ["name", "type"]
  | _ => none

/-- The children that are read from a field: all names, and the first of the others. -/
def filling (tree : Concrete) (field : String) : List Concrete :=
  if field = "name" then tree.childrenIn field else (tree.child? field).toList

/-- The nodes that are read for their text alone: names, literals and the members of selectors. -/
def spellings (tree : Concrete) : List Concrete :=
  match tree.shape with
  | .name | .literal => [tree]
  | .selector _ member => member.toList
  | .valueSpec .. | .parameter .. => tree.childrenIn "name"
  | .function _ name _ _ => name.toList
  | _ => if tree.kind = "field_identifier" then [tree] else []

theorem mem_spellings_of_mem_names {tree name : Concrete} (member : name ∈ tree.shape.names) :
    name ∈ tree.spellings := by
  unfold spellings shape at *
  split at member <;> grind [Shape.names, binderShape, functionShape]

/-- The nodes that are read for their parts alone: arguments of calls and bodies of literals. -/
def lists (tree : Concrete) : List Concrete :=
  match tree.kind with
  | "call_expression" => (tree.child? "arguments").toList
  | "composite_literal" => (tree.child? "body").toList
  | _ => []

/-- No two of the nodes have the same extent and kind. -/
abbrev Apart (trees : List Concrete) : Prop :=
  trees.Pairwise fun first second => first.sameAs second = false

/-- The node and its children are as the grammar has them, as far as the lowering relies on it. -/
@[mk_iff]
structure Conforms (tree : Concrete) : Prop where
  /-- Tokens and comments hold no calls. -/
  tokens : ∀ child ∈ tree.children, child.isPart = false → child.callSites = []
  apart : Apart tree.children
  /-- Names and literals hold no calls. -/
  spelled : ∀ name ∈ tree.spellings, name.callSites = []
  /-- Arguments and bodies are lists and not calls themselves. -/
  listed : ∀ list ∈ tree.lists, list.kind ≠ "call_expression"
  /-- Where fields are read, every part fills one of them. -/
  covered : ∀ fields ∈ tree.fieldsRead?, ∀ part ∈ tree.parts, ∃ field ∈ fields,
    part.label.field = some field
  /-- Only names fill a field together. -/
  single : ∀ fields ∈ tree.fieldsRead?, ∀ field ∈ fields, field ≠ "name" →
    (tree.childrenIn field).length ≤ 1
  /-- No part is missing. -/
  complete : tree.shape.isComplete
  /-- A keyed element is a key and a value. -/
  keyed : tree.kind = "keyed_element" → tree.parts.length = 2
  /-- A type switch has a value. -/
  switched : tree.kind = "type_switch_statement" → (tree.child? "value").any isPart
  /-- The body of a function is a block, and its parts have no other block. -/
  body : tree.kind = "function_declaration" ∨ tree.kind = "method_declaration" →
    (∀ part ∈ tree.parts, part.kind = "block" → part.label.field = some "body") ∧
    (∀ body ∈ tree.childrenIn "body", body.kind = "block") ∧
    (tree.childrenIn "body").length ≤ 1

instance (tree : Concrete) : Decidable tree.Conforms :=
  decidable_of_iff _ (conforms_iff tree).symm

/-- Every node of the tree is as the grammar has it. -/
def FollowsGrammar (root : Concrete) : Prop := ∀ tree ∈ root.nodes, tree.Conforms

instance (root : Concrete) : Decidable root.FollowsGrammar :=
  inferInstanceAs (Decidable (∀ tree ∈ root.nodes, _))

theorem FollowsGrammar.below {root tree : Concrete} (follows : root.FollowsGrammar)
    (contained : root.Contains tree) : tree.FollowsGrammar := by
  intro part member
  exact follows part ((mem_nodes_iff root).mpr (contained.trans ((mem_nodes_iff tree).mp member)))

theorem FollowsGrammar.conforms {root : Concrete} (follows : root.FollowsGrammar) :
    root.Conforms :=
  follows root ((mem_nodes_iff root).mpr .self)

/-! ## Calls of conforming nodes -/

theorem calls_eq_zero {tree : Concrete} (silent : tree.callSites = []) : tree.calls = 0 := by
  rw [calls, silent, Multiset.coe_nil]

namespace Conforms

variable {tree : Concrete} (conforms : tree.Conforms)

include conforms

theorem calls_eq_zero_or_isPart {child : Concrete} (member : child ∈ tree.children) :
    child.calls = 0 ∨ child.isPart = true := by
  cases part : child.isPart
  · exact .inl (calls_eq_zero (conforms.tokens child member part))
  · exact .inr rfl

/-- All calls below a node are in its parts. -/
theorem calls_eq_parts (kind : tree.kind ≠ "call_expression") :
    tree.calls = callsAmong tree.parts := by
  rw [calls_of_kind kind]
  exact (callsAmong_filter fun child => conforms.calls_eq_zero_or_isPart).symm

theorem callsAmong_listed : callsAmong tree.listed = tree.calls := by
  unfold Concrete.listed
  split_ifs with kind
  · exact (conforms.calls_eq_parts (by simp [kind])).symm
  · simp

theorem calls_unwrapped : tree.unwrapped.calls = tree.calls := by
  unfold unwrapped
  split_ifs with kind
  · split
    · next inner only =>
      rw [conforms.calls_eq_parts (by simp [kind]), only]
      simp
    · rfl
  · rfl

/-- All calls below a node are in the fields that are read. -/
theorem callsAmong_children {fields : List String} (read : tree.fieldsRead? = some fields)
    (distinct : fields.Nodup) :
    callsAmong tree.children =
      (fields.map fun field => callsAmong (tree.childrenIn field)).sum := by
  refine callsAmong_fields distinct fun child member => ?_
  refine (conforms.calls_eq_zero_or_isPart member).imp_right fun part => ?_
  exact conforms.covered fields read child (List.mem_filter.mpr ⟨member, part⟩)

theorem calls_of_mem_spellings : ∀ name ∈ tree.spellings, name.calls = 0 :=
  fun name member => calls_eq_zero (conforms.spelled name member)

end Conforms

theorem toList_child? {tree : Concrete} {field : String}
    (single : (tree.childrenIn field).length ≤ 1) :
    (tree.child? field).toList = tree.childrenIn field := by
  have first : tree.child? field = (tree.childrenIn field).head? := List.head?_filter.symm
  rw [first]
  generalize tree.childrenIn field = filling at single
  rcases filling with _ | ⟨child, _ | ⟨second, rest⟩⟩
  · rfl
  · rfl
  · simp at single

/-! ## Lists taken apart -/

theorem callsAmong_listed_option {list : Option Concrete}
    (conforms : ∀ tree ∈ list, tree.Conforms) :
    callsAmong ((list.map listed).getD []) = callsAmong list.toList := by
  cases list with
  | none => rfl
  | some tree =>
    have listed := (conforms tree rfl).callsAmong_listed
    simpa using listed

theorem callsAmong_parts_option {list : Option Concrete} (conforms : ∀ tree ∈ list, tree.Conforms)
    (kinds : ∀ tree ∈ list, tree.kind ≠ "call_expression") :
    callsAmong ((list.map parts).getD []) = callsAmong list.toList := by
  cases list with
  | none => rfl
  | some tree =>
    have below := (conforms tree rfl).calls_eq_parts (kinds tree rfl)
    simpa using below.symm

theorem callsAmong_flatMap {trees : List Concrete} {f : Concrete → List Concrete}
    (same : ∀ tree ∈ trees, callsAmong (f tree) = tree.calls) :
    callsAmong (trees.flatMap f) = callsAmong trees := by
  induction trees with
  | nil => rfl
  | cons tree rest ih =>
    rw [List.forall_mem_cons] at same
    rw [List.flatMap_cons, callsAmong_append, callsAmong_cons, same.1, ih same.2]

theorem FollowsGrammar.callsAmong_statements {tree : Concrete} (follows : tree.FollowsGrammar) :
    callsAmong tree.statements = callsAmong tree.parts := by
  refine callsAmong_flatMap fun part member => ?_
  have conforms := (follows.below (contains_of_mem_parts member)).conforms
  split_ifs with kind
  · exact (conforms.calls_eq_parts (by simp [kind])).symm
  · simp

mutual

theorem callsAmong_specs (tree : Concrete) (follows : tree.FollowsGrammar) :
    callsAmong tree.specs = callsAmong tree.parts := by
  cases tree with
  | node label children =>
    exact callsAmong_specsIn children fun child member => follows.below (.child .self member)
termination_by structural tree

theorem callsAmong_specsIn (trees : List Concrete)
    (follows : ∀ tree ∈ trees, tree.FollowsGrammar) :
    callsAmong (specsIn trees) = callsAmong (trees.filter isPart) := by
  cases trees with
  | nil => rfl
  | cons tree rest =>
    rw [List.forall_mem_cons] at follows
    have later := callsAmong_specsIn rest follows.2
    have below := callsAmong_specs tree follows.1
    rw [specsIn, List.filter_cons, isPart]
    split_ifs with part kind
    · have other : tree.kind ≠ "call_expression" := by
        intro same
        rw [same] at kind
        exact absurd kind (by decide +kernel)
      rw [callsAmong_append, callsAmong_cons, below, later, follows.1.conforms.calls_eq_parts other]
    · rw [callsAmong_cons, callsAmong_cons, later]
    · exact later
termination_by structural trees

end

/-! ## Nodes that stand apart -/

theorem sameAs_comm (first second : Concrete) : first.sameAs second = second.sameAs first := by
  simp only [sameAs, Bool.beq_comm]

/-- In a row of nodes that stand apart, each is the same as itself only. -/
theorem sameAs_of_apart {before after : List Concrete} {tree : Concrete}
    (apart : Apart (before ++ tree :: after)) :
    ∀ other ∈ before ++ after, other.sameAs tree = false := by
  rw [Apart, List.pairwise_append, List.pairwise_cons] at apart
  intro other member
  rcases List.mem_append.mp member with earlier | later
  · exact apart.2.2 other earlier tree List.mem_cons_self
  · rw [sameAs_comm]
    exact apart.2.1.1 other later

theorem eq_of_sameAs {trees : List Concrete} {first second : Concrete}
    (apart : Apart trees)
    (here : first ∈ trees) (there : second ∈ trees) (same : first.sameAs second) :
    first = second := by
  obtain ⟨before, after, rfl⟩ := List.append_of_mem there
  have others := sameAs_of_apart apart first
  grind

/-- Leaving out what has the extent and kind of a node leaves out this node. -/
theorem callsAmong_of_apart {trees : List Concrete} {tree : Concrete} (member : tree ∈ trees)
    (apart : Apart trees) :
    callsAmong (trees.filter fun other => !other.sameAs tree) + tree.calls = callsAmong trees := by
  obtain ⟨before, after, rfl⟩ := List.append_of_mem member
  have self : tree.sameAs tree = true := by simp [sameAs]
  have kept : (before ++ after).filter (fun other => !other.sameAs tree) = before ++ after :=
    List.filter_eq_self.mpr fun other member => by simp [sameAs_of_apart apart other member]
  rw [List.filter_append] at kept
  rw [List.filter_append, List.filter_cons_of_neg (by simp [self]), kept]
  simp only [callsAmong_append, callsAmong_cons]
  abel

theorem Conforms.callsAmong_without {tree name : Concrete} (conforms : tree.Conforms)
    (member : name ∈ tree.children) :
    callsAmong (tree.parts.filter fun part => !part.sameAs name) + name.calls =
      callsAmong tree.parts := by
  rcases conforms.calls_eq_zero_or_isPart member with silent | part
  · rw [silent, add_zero]
    refine callsAmong_filter fun part listed => ?_
    cases same : part.sameAs name
    · exact .inr rfl
    · rw [eq_of_sameAs conforms.apart (List.mem_filter.mp listed).1 member same]
      exact .inl silent
  · exact callsAmong_of_apart (List.mem_filter.mpr ⟨member, part⟩) (conforms.apart.filter _)

theorem switchOperands_append (bound value : Option Concrete) (first second : List Concrete) :
    switchOperands bound value (first ++ second) =
      switchOperands bound value first ++ switchOperands bound value second := by
  induction first with
  | nil => rfl
  | cons part rest ih =>
    simp only [List.cons_append, switchOperands, ih]
    split_ifs <;> simp

theorem switchOperands_of_sameAs {bound value : Option Concrete} {parts : List Concrete}
    (others : ∀ part ∈ parts, value.any part.sameAs = false) :
    switchOperands bound value parts = parts.filter fun part => !bound.any part.sameAs := by
  induction parts with
  | nil => rfl
  | cons part rest ih =>
    rw [List.forall_mem_cons] at others
    rw [switchOperands, ih others.2, others.1, List.filter_cons]
    cases bound.any part.sameAs <;> simp

/-- The bound name is moved and nothing else. -/
theorem callsAmong_switchOperands {bound : Option Concrete} {value : Concrete}
    {parts : List Concrete} (apart : Apart parts) (member : value ∈ parts)
    (differs : bound.any value.sameAs = false) :
    callsAmong (switchOperands bound (some value) parts) =
      callsAmong (parts.filter fun part => !bound.any part.sameAs) +
        callsAmong ((bound.map listed).getD []) := by
  obtain ⟨before, after, rfl⟩ := List.append_of_mem member
  have others : ∀ part ∈ before ++ after, (some value).any part.sameAs = false :=
    sameAs_of_apart apart
  rw [List.forall_mem_append] at others
  have self : value.sameAs value = true := by simp [sameAs]
  rw [switchOperands_append, switchOperands, switchOperands_of_sameAs others.1,
    switchOperands_of_sameAs others.2, List.filter_append,
    List.filter_cons_of_pos (by simp [differs])]
  simp only [differs, Option.any_some, self, Bool.false_eq_true, if_false, if_true,
    callsAmong_append, callsAmong_cons, List.cons_append]
  abel

/-! ## Calls of operands -/

namespace FollowsGrammar

variable {tree : Concrete} (follows : tree.FollowsGrammar)

include follows

theorem child?_conforms (field : String) : ∀ child ∈ tree.child? field, child.Conforms :=
  fun _ filled => (follows.below (encloses_of_child? filled).contains).conforms

theorem callsAmong_child? {fields : List String} {field : String}
    (read : tree.fieldsRead? = some fields) (member : field ∈ fields) (other : field ≠ "name") :
    callsAmong (tree.child? field).toList = callsAmong (tree.childrenIn field) := by
  rw [toList_child? (follows.conforms.single fields read field member other)]

/-- All calls below a node are in what is read from the fields. -/
theorem calls_eq_filling {fields : List String} (read : tree.fieldsRead? = some fields)
    (kind : tree.kind ≠ "call_expression") (distinct : fields.Nodup) :
    tree.calls = (fields.map fun field => callsAmong (tree.filling field)).sum := by
  rw [calls_of_kind kind, follows.conforms.callsAmong_children read distinct]
  congr 1
  refine List.map_congr_left fun field member => ?_
  unfold filling
  split_ifs with named
  · rfl
  · exact (follows.callsAmong_child? read member named).symm

theorem calls_call (kind : tree.kind = "call_expression") :
    tree.calls = {tree.site} + callsAmong ((tree.child? "function").toList ++
      ((tree.child? "arguments").map parts).getD []) := by
  have conforms := follows.conforms
  have read : tree.fieldsRead? = some ["function", "type_arguments", "arguments"] := by
    simp only [fieldsRead?, kind]
  have kinds : ∀ list ∈ tree.child? "arguments", list.kind ≠ "call_expression" := by
    intro list filled
    exact conforms.listed list (by simpa [lists, kind] using filled)
  have whole : callsAmong tree.children = callsAmong (tree.childrenIn "function") +
      (callsAmong (tree.childrenIn "type_arguments") +
        callsAmong (tree.childrenIn "arguments")) := by
    simpa using conforms.callsAmong_children read (by decide)
  have parted : callsAmong tree.children = callsAmong (tree.childrenIn "type_arguments") +
      callsAmong (tree.children.filter fun child =>
        !(child.label.field == some "type_arguments")) :=
    callsAmong_partition ..
  have rest : callsAmong (tree.children.filter fun child =>
        !(child.label.field == some "type_arguments")) =
      callsAmong (tree.childrenIn "function") + callsAmong (tree.childrenIn "arguments") := by
    refine add_left_cancel (parted.symm.trans (whole.trans ?_))
    exact add_left_comm _ _ _
  rw [calls_of_call kind, rest, callsAmong_append,
    callsAmong_parts_option (follows.child?_conforms _) kinds,
    follows.callsAmong_child? read (by simp) (by decide),
    follows.callsAmong_child? read (by simp) (by decide)]

theorem calls_switch (kind : tree.kind = "type_switch_statement") :
    tree.calls =
      callsAmong (switchOperands (tree.child? "alias") (tree.child? "value") tree.parts) := by
  have conforms := follows.conforms
  have apart : Apart tree.parts := conforms.apart.filter _
  have present := conforms.switched kind
  cases filled : tree.child? "value" with
  | none => simp [filled] at present
  | some value =>
    have labelled : value.label.field = some "value" := by simpa using List.find?_some filled
    have part : value.isPart = true := by simpa [filled] using present
    have here := List.mem_of_find?_eq_some filled
    have member : value ∈ tree.parts := List.mem_filter.mpr ⟨here, part⟩
    rw [conforms.calls_eq_parts (by simp [kind])]
    cases bound : tree.child? "alias" with
    | none =>
      rw [callsAmong_switchOperands apart member rfl]
      simp
    | some name =>
      have named : name.label.field = some "alias" := by simpa using List.find?_some bound
      have there := List.mem_of_find?_eq_some bound
      have differs : (some name).any value.sameAs = false := by
        by_contra same
        have equal := eq_of_sameAs conforms.apart here there (by simpa using same)
        simp [equal, named] at labelled
      rw [callsAmong_switchOperands apart member differs]
      have listed := (follows.child?_conforms "alias" name bound).callsAmong_listed
      simp only [Option.any_some, Option.map_some, Option.getD_some, listed]
      exact (conforms.callsAmong_without there).symm

theorem callsAmong_signature
    (kind : tree.kind = "function_declaration" ∨ tree.kind = "method_declaration") :
    callsAmong (tree.parts.filter fun part =>
        part.kind != "block" && !((tree.child? "name").any part.sameAs)) =
      callsAmong (tree.parts.filter fun part => part.kind != "block") := by
  have conforms := follows.conforms
  refine callsAmong_filter_congr fun part member => ?_
  have here := (List.mem_filter.mp member).1
  cases named : tree.child? "name" with
  | none => simp
  | some name =>
    cases same : part.sameAs name
    · simp [same]
    · have there := List.mem_of_find?_eq_some named
      rw [eq_of_sameAs conforms.apart here there same]
      have spelled : name ∈ tree.spellings := by
        rcases kind with kind | kind <;> simp [spellings, shape, kind, functionShape, named]
      exact .inl (conforms.calls_of_mem_spellings name spelled)

theorem callsAmong_body
    (kind : tree.kind = "function_declaration" ∨ tree.kind = "method_declaration") :
    callsAmong (tree.parts.filter fun part => !(part.kind != "block")) =
      callsAmong (((tree.child? "body").map statements).getD []) := by
  have conforms := follows.conforms
  obtain ⟨blocks, bodies, single⟩ := conforms.body kind
  calc callsAmong (tree.parts.filter fun part => !(part.kind != "block"))
    _ = callsAmong (tree.childrenIn "body") := by
      rw [parts, List.filter_filter]
      refine callsAmong_filter_congr fun child member => ?_
      refine (conforms.calls_eq_zero_or_isPart member).imp_right fun part => ?_
      have inside := blocks child (List.mem_filter.mpr ⟨member, part⟩)
      have outside : child.label.field = some "body" → child.kind = "block" := fun filled =>
        bodies child (List.mem_filter.mpr ⟨member, by simp [filled]⟩)
      simp only [isPart] at part
      grind
    _ = callsAmong (tree.child? "body").toList := by rw [toList_child? single]
    _ = callsAmong (((tree.child? "body").map statements).getD []) := by
      cases filled : tree.child? "body" with
      | none => rfl
      | some block =>
        have below := follows.below (encloses_of_child? filled).contains
        have listed : block ∈ tree.childrenIn "body" := by
          rw [← toList_child? single, filled]
          exact List.mem_singleton_self block
        have stated := below.conforms.calls_eq_parts (by simp [bodies block listed])
        simp [stated, below.callsAmong_statements]

theorem calls_function
    (kind : tree.kind = "function_declaration" ∨ tree.kind = "method_declaration") :
    tree.calls = callsAmong
      ((tree.parts.filter fun part =>
        part.kind != "block" && !((tree.child? "name").any part.sameAs)) ++
      ((tree.child? "body").map statements).getD []) := by
  have other : tree.kind ≠ "call_expression" := by rcases kind with kind | kind <;> simp [kind]
  rw [follows.conforms.calls_eq_parts other, callsAmong_append, follows.callsAmong_signature kind,
    ← follows.callsAmong_body kind]
  exact callsAmong_partition ..

theorem callsAmong_listed_child? (field : String) :
    callsAmong (((tree.child? field).map listed).getD []) =
      callsAmong (tree.child? field).toList :=
  callsAmong_listed_option (follows.child?_conforms field)

/-- The operands of a node that is no call hold the calls below it. -/
theorem calls_eq_operands (kind : tree.kind ≠ "call_expression") :
    tree.calls = callsAmong tree.operands := by
  have conforms := follows.conforms
  have below := conforms.calls_eq_parts kind
  have spelled := conforms.calls_of_mem_spellings
  have listed := follows.callsAmong_listed_child?
  have fields {fields : List String} (read : tree.fieldsRead? = some fields)
      (distinct : fields.Nodup) := follows.calls_eq_filling read kind distinct
  unfold operands
  generalize shaped : tree.shape = shape
  simp only [spellings, shaped] at spelled
  cases Shaped.of_eq shaped with
  | name | literal => exact spelled tree List.mem_cons_self
  | call called => exact absurd called kind
  | selector =>
    have read : tree.fieldsRead? = some ["operand", "field"] := by simp only [fieldsRead?, *]
    rw [fields read (by decide)]
    simp [filling, callsAmong_eq_zero spelled]
  | composite literal =>
    have read : tree.fieldsRead? = some ["type", "body"] := by simp only [fieldsRead?, *]
    have kinds : ∀ list ∈ tree.child? "body", list.kind ≠ "call_expression" := by
      intro list filled
      exact conforms.listed list (by simpa [lists, literal] using filled)
    rw [callsAmong_append, callsAmong_parts_option (follows.child?_conforms _) kinds,
      fields read (by decide)]
    simp [filling]
  | element _ only | statement _ only => rw [below, only]
  | keyed pair =>
    obtain ⟨key, value, both⟩ := List.length_eq_two.mp (conforms.keyed pair)
    have keyed := follows.below (contains_of_mem_parts (both ▸ List.mem_cons_self))
    simp [below, both, keyed.conforms.calls_unwrapped]
  | define | assign =>
    have read : tree.fieldsRead? = some ["left", "right"] := by simp only [fieldsRead?, *]
    rw [callsAmong_append, listed, listed, fields read (by decide)]
    simp [filling]
  | block => rw [below, follows.callsAmong_statements]
  | binder clause defines =>
    have read : tree.fieldsRead? = some ["left", "right"] := by
      simp only [List.mem_cons, List.not_mem_nil, or_false] at clause
      rcases clause with clause | clause <;> simp only [fieldsRead?, clause, defines, if_true]
    rw [callsAmong_append, listed, fields read (by decide)]
    simp [filling]
  | typeSwitch switch => exact follows.calls_switch switch
  | group => rw [below, callsAmong_specs tree follows]
  | valueSpec spec =>
    have read : tree.fieldsRead? = some ["name", "type", "value"] := by
      simp only [List.mem_cons, List.not_mem_nil, or_false] at spec
      rcases spec with spec | spec <;> simp only [fieldsRead?, spec]
    rw [callsAmong_append, callsAmong_append, listed,
      callsAmong_filter fun name member => .inl (spelled name member), fields read (by decide)]
    simp [filling, add_assoc]
  | function declared => exact follows.calls_function (by simpa using declared)
  | parameter declared =>
    have read : tree.fieldsRead? = some ["name", "type"] := by
      simp only [List.mem_cons, List.not_mem_nil, or_false] at declared
      rcases declared with declared | declared <;> simp only [fieldsRead?, declared]
    rw [callsAmong_append, fields read (by decide)]
    simp [filling]
  -- The other nodes only carry their parts.
  | values | closure | packageClause | loose | plain | other => simpa using below

theorem calls_eq : tree.calls = tree.callSite?.toList + callsAmong tree.operands := by
  by_cases kind : tree.kind = "call_expression"
  · have called : tree.callSite? = some tree.site := if_pos kind
    have shaped : tree.operands = (tree.child? "function").toList ++
        ((tree.child? "arguments").map parts).getD [] := by
      simp only [operands, shape, kind]
    rw [follows.calls_call kind, called, shaped]
    rfl
  · have plain : tree.callSite? = none := if_neg kind
    rw [follows.calls_eq_operands kind, plain]
    simp

end FollowsGrammar

end AssetRefs.Concrete
