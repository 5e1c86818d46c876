import AssetRefs.Proofs.Containment
import AssetRefs.Proofs.GrammarShapes

/-! # Conservation of calls

The lowering neither loses nor repeats a call. What it keeps of one node are the calls of the
operands and the call that the node itself may be, so the lowered tree has the calls of the concrete
one: see `calls_are_conserved`.
-/

namespace AssetRefs

namespace Node

/-- The calls in a lowered tree, however they are ordered. -/
def calls (node : Node) : Multiset Site := (node.walk.filterMap callSite? : List Site)

theorem calls_eq (node : Node) :
    node.calls = node.callSite?.toList + (node.children.map calls).sum := by
  have below (nodes : List Node) :
      ((nodes.flatMap walk).filterMap callSite? : Multiset Site) = (nodes.map calls).sum := by
    induction nodes with
    | nil => rfl
    | cons node rest ih =>
      rw [List.flatMap_cons, List.filterMap_append, ← Multiset.coe_add, ih, List.map_cons,
        List.sum_cons, calls]
  rw [calls, walk_eq, ← below]
  cases called : node.callSite? <;> simp [called]

end Node

open Lowering

/-- The lowered node has the calls of the concrete one. -/
def SameCalls (tree : Concrete) (node : Node) : Prop := node.calls = tree.calls

theorem sameCalls_identNode {tree : Concrete} (silent : tree.calls = 0) (source : ByteArray) :
    SameCalls tree (tree.identNode source) := by
  rw [SameCalls, silent, Node.calls_eq]
  rfl

theorem Concrete.FollowsGrammar.sameCalls_of_assembled {tree : Concrete} {node : Node}
    (follows : tree.FollowsGrammar) (assembled : Assembled SameCalls tree node) :
    SameCalls tree node := by
  rw [SameCalls, follows.calls_eq]
  rcases assembled with ⟨inner, shaped, same⟩ | ⟨called, children⟩
  · have plain : tree.callSite? = none := by rw [callSite?_eq, shaped]
    have operands : tree.operands = [inner] := by simp only [operands, shaped]
    rw [plain, operands, callsAmong_cons, callsAmong_nil, add_zero]
    exact same.trans (zero_add _).symm
  · have same : node.children.map Node.calls = tree.operands.map calls := by
      generalize tree.operands = parts, node.children = nodes at children
      induction children with
      | nil => rfl
      | cons here _ ih => rw [List.map_cons, List.map_cons, here, ih]
    rw [Node.calls_eq, called, same, callsAmong]

theorem Concrete.FollowsGrammar.calls_of_takesForName {tree part : Concrete}
    (follows : tree.FollowsGrammar) (member : part ∈ tree.operands)
    (named : tree.TakesForName part) : part.calls = 0 := by
  have conforms := (follows.below (encloses_of_mem_operands member).contains).conforms
  rcases named with kind | kind | listed
  · exact conforms.calls_of_mem_spellings part (by simp [spellings, shape, kind])
  · exact conforms.calls_of_mem_spellings part (by simp [spellings, shape, kind])
  · exact follows.conforms.calls_of_mem_spellings part (mem_spellings_of_mem_names listed)

theorem Concrete.FollowsGrammar.yields_sameCalls {tree : Concrete} (follows : tree.FollowsGrammar)
    (source : ByteArray) (place : Address) :
    (lowerFully source place tree).Yields (SameCalls tree) := by
  induction size : tree.weight using Nat.strongRecOn generalizing tree place with
  | ind size ih =>
    subst size
    have lowered : ∀ part ∈ tree.operands, ∀ place,
        (lowerFully source place part).Yields (SameCalls part) := by
      intro part member place
      have enclosed := encloses_of_mem_operands member
      exact ih part.weight enclosed.weight_lt (follows.below enclosed.contains) place rfl
    have spelled : ∀ part ∈ tree.operands, tree.TakesForName part →
        SameCalls part (part.identNode source) := by
      intro part member named
      exact sameCalls_identNode (follows.calls_of_takesForName member named) source
    have assembled := yields_lowerFully place follows.conforms.complete lowered spelled
    exact assembled.mono fun node => follows.sameCalls_of_assembled

/-- A tree that follows the grammar is lowered, unless its nodes are nested beyond the limit. The
walk over the lowered tree meets each call of it that is not in the type arguments of a call, and
meets it once. -/
theorem calls_are_conserved {tree : Concrete} (follows : tree.FollowsGrammar)
    (source : ByteArray) (place : Address) :
    ∃ node events, (node.walk.filterMap Node.callSite?).Perm tree.callSites ∧
      (∀ limit, tree.weight ≤ limit → lower source limit place tree = .ok (node, events)) ∧
      ∀ limit, lower source limit place tree = .error .tooDeep ∨
        lower source limit place tree = .ok (node, events) := by
  obtain ⟨node, events, given, same⟩ := follows.yields_sameCalls source place
  refine ⟨node, events, Multiset.coe_eq_coe.mp same, ?_, ?_⟩
  · intro limit fits
    exact (lower_of_weight_le fits).trans given
  · intro limit
    refine (lower_cutOff source limit place tree).imp_right fun full => ?_
    exact full.trans given

/-- The source of a type switch on a call with type arguments. -/
def switchingSource : ByteArray :=
  "func f() \x7b switch v := g[[h()]int](i(), T\x7bj(): k()\x7d).(type) \x7b\x7d \x7d".toUTF8

/-- A call of a function with a name of one letter, without arguments. -/
def Concrete.callAt (start : Nat) (field : Option String) : Concrete :=
  .node { kind := "call_expression", field, start, stop := start + 3, column := start }
    [.leaf "identifier" "function" start (start + 1),
      .leaf "argument_list" "arguments" (start + 1) (start + 3)]

/-- The tree of `switchingSource`. -/
def switchingFunction : Concrete :=
  .node { kind := "function_declaration", stop := 64 }
    [.leaf "identifier" "name" 5 6, .leaf "parameter_list" "parameters" 6 8,
      .node { kind := "block", field := some "body", start := 9, stop := 64 }
        [.node { kind := "type_switch_statement", start := 11, stop := 62 }
          [.leaf "identifier" "alias" 18 19,
            .node { kind := "call_expression", field := some "value", start := 23, column := 23 }
              [.leaf "identifier" "function" 23 24,
                .node { kind := "type_arguments", field := some "type_arguments", start := 24 }
                  [.node { kind := "array_type", start := 25, stop := 33 }
                    [.callAt 26 "length", .leaf "type_identifier" "element" 30 33]],
                .node { kind := "argument_list", field := some "arguments", start := 34 }
                  [.callAt 35 none,
                    .node { kind := "composite_literal", start := 40, stop := 51 }
                      [.leaf "type_identifier" "type" 40 41,
                        .node { kind := "literal_value", field := some "body", start := 41 }
                          [.node { kind := "keyed_element", start := 42, stop := 50 }
                            [.node { kind := "literal_element", start := 42 } [.callAt 42 none],
                              .node { kind := "literal_element", start := 47 }
                                [.callAt 47 none]]]]]]]]]

/-- The calls of `g`, `i`, `j` and `k` are kept, that of `h` is in type arguments. -/
theorem calls_are_conserved_switching :
    switchingFunction.FollowsGrammar ∧
      ∃ node events, lower switchingSource nestingLimit [] switchingFunction = .ok (node, events) ∧
        (node.walk.filterMap Node.callSite?).Perm
          [⟨"call_expression", 1, 24⟩, ⟨"call_expression", 1, 36⟩, ⟨"call_expression", 1, 43⟩,
            ⟨"call_expression", 1, 48⟩] := by
  have follows : switchingFunction.FollowsGrammar := by decide +kernel
  have fits : switchingFunction.weight ≤ nestingLimit := by decide
  obtain ⟨node, events, conserved, lowered, _⟩ := calls_are_conserved follows switchingSource []
  exact ⟨follows, node, events, lowered nestingLimit fits, conserved⟩

end AssetRefs
