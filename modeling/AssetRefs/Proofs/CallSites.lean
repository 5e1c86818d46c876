import AssetRefs.Proofs.Containment
import AssetRefs.Proofs.ResolutionLaws
import AssetRefs.Proofs.Visits

/-! # Plain call sites

The argument of a plain call site is a literal or the name of one, and no other call is involved. A
visit to such a call does nothing but register the literal, and since visits are independent of each
other, a run has the path or an error whatever else is in the file.
-/

namespace AssetRefs

/-- A call of `Open`, or of `Walk` with two arguments, none of which is a call or a composite
literal. The first argument denotes the literal with the given source text. -/
inductive PlainCall (context : ScanContext) (table : BindingTable) :
    (call first : Node) → (raw : String) → Prop where
  | opens {site place spot : Site} {offset : Nat} {first : Node} {rest : List Node} {raw : String} :
      (∀ argument ∈ first :: rest, argument.isCall = false ∧ argument.isComposite = false) →
      Denotes table first raw →
      PlainCall context table (.call site
        (.selector place (.ident spot context.spaceName offset) "Open") (first :: rest)) first raw
  | walks {site place spot : Site} {offset : Nat} {first other : Node} {raw : String} :
      (∀ argument ∈ [first, other], argument.isCall = false ∧ argument.isComposite = false) →
      Denotes table first raw →
      PlainCall context table (.call site
        (.selector place (.ident spot context.spaceName offset) "Walk") [first, other]) first raw

section

variable {context : ScanContext} {table : BindingTable} {active : List Address}

/-- What comes of registering the path that a literal denotes, as found at a node. -/
def ScanContext.registration (context : ScanContext) (raw : String) (site : Site) :
    Trace.Effect AssetPath :=
  match context.pathOf raw with
  | .ok path => ⟨[⟨path, site.line⟩], .ok path⟩
  | .error (.path error) => ⟨[], .error (context.problem site (.path error))⟩
  | .error .hexDigitsMissing => ⟨[], .error .malformedLiteral⟩

theorem addPath_has (raw : String) (site : Site) :
    (context.addPath raw site).Has active (context.registration raw site) := by
  intro session _
  unfold ScanContext.addPath ScanContext.registration
  match context.pathOf raw with
  | .ok _ => rfl
  | .error (.path _) => rfl
  | .error .hexDigitsMissing => rfl

/-- Nothing comes of following the name of a literal. -/
theorem followName_has_of_denotes {site : Site} {name raw : String} {offset : Nat}
    (denotes : Denotes table (.ident site name offset) raw) (rounds : Nat) :
    (followName context table (rounds + 1) offset).Has [] ⟨[], .ok ()⟩ := by
  cases denotes with
  | defined found =>
    simp only [followName, found]
    exact .following_of_not_mem List.not_mem_nil (.done ())
  | declared found =>
    simp only [followName, found]
    exact .following_of_not_mem List.not_mem_nil (.done ())

theorem walkArgument_has {first : Node} {raw : String} (denotes : Denotes table first raw) :
    (walkArgument context table (followFresh context table) first).Has []
      (context.registration raw first.site).void := by
  cases first with
  | ident site name offset =>
    simp only [walkArgument, plainValue, valueOf?_eq_ok_iff.mpr denotes, Trace.done_andThen]
    exact (addPath_has raw site).andThen_idle fun _ => .done ()
  | literal site text =>
    cases denotes
    exact (addPath_has raw site).andThen_idle fun _ => .done ()
  | _ => cases denotes

theorem openArgument_has {first : Node} {raw : String} (denotes : Denotes table first raw) :
    (openArgument context table (followFresh context table) first).Has []
      (context.registration raw first.site).void := by
  cases first with
  | ident site name offset =>
    simp only [openArgument, valueOf?_eq_ok_iff.mpr denotes]
    exact (addPath_has raw site).deferring_idle (followName_has_of_denotes denotes _)
  | literal site text =>
    cases denotes
    exact (addPath_has raw site).andThen_idle fun _ => .done ()
  | _ => cases denotes

end

namespace PlainCall

variable {context : ScanContext} {tree : SyntaxTree} {call first : Node} {raw : String}
  {result : ScanResult}

/-- A visit to a plain call does nothing but register the literal. -/
theorem visitTrace_has (plain : PlainCall context tree.bindings call first raw) :
    (visitTrace context tree call).Has [] (context.registration raw first.site).void := by
  cases plain with
  | opens others denotes =>
    rw [visitTrace, classify, resolveDirect_plain others, memberOf?_open, recognize_open,
      if_neg (by simp [others first])]
    exact openArgument_has denotes
  | walks others denotes =>
    rw [visitTrace, classify, resolveDirect_plain others, memberOf?_walk, recognize_walk,
      if_neg (by simp [others first])]
    exact walkArgument_has denotes

variable (plain : PlainCall context tree.bindings call first raw)
  (completed : scanTree context tree = .ok result) (contained : tree.root.Contains call)

include plain completed contained

theorem mem_paths {path : AssetPath} (denoted : context.pathOf raw = .ok path) :
    path ∈ result.paths := by
  have found : path ∈ (visitAlone context tree call).found := by
    rw [plain.visitTrace_has.mem_found_visitAlone, ScanContext.registration, denoted]
    exact ⟨⟨path, first.site.line⟩, List.mem_singleton_self _, rfl⟩
  exact (mem_paths_iff completed).mpr ⟨call, Node.mem_walk_iff.mpr contained, found⟩

theorem mem_errors {error : PathError} (denoted : context.pathOf raw = .error (.path error)) :
    ⟨error.message, context.file, first.site.line, first.site.column⟩ ∈ result.errors := by
  have logged : (visitAlone context tree call).errors =
      [⟨error.message, context.file, first.site.line, first.site.column⟩] := by
    rw [plain.visitTrace_has.errors_visitAlone, ScanContext.registration, denoted]
    rfl
  refine (mem_errors_iff completed).mpr ⟨call, Node.mem_walk_iff.mpr contained, ?_⟩
  rw [logged]
  exact List.mem_singleton_self _

/-- A literal that stops the scan does not stand at a plain call site if the run is completed. -/
theorem pathOf_ne_hexDigitsMissing : context.pathOf raw ≠ .error .hexDigitsMissing := by
  intro denoted
  have returns := (scanTree_collects completed).1 call (Node.mem_walk_iff.mpr contained)
  rw [VisitReturns, plain.visitTrace_has.visit rfl, ScanContext.registration, denoted] at returns
  cases returns

end PlainCall

/-- No plain call site is lost. If a run of the tree is completed, it has the path that the literal
of the call site denotes, or an error at the place of the first argument if the literal denotes no
path, whatever errors other call sites make. -/
theorem plain_call_sites_are_kept {context : ScanContext} {tree : SyntaxTree} {result : ScanResult}
    (completed : scanTree context tree = .ok result) {call first : Node} {raw : String}
    (contained : tree.root.Contains call) (plain : PlainCall context tree.bindings call first raw) :
    (∀ text path, GoString.unquote raw = .ok text → AssetPath.parse context.home text = .ok path →
      (if text.toList.head? = some ':' then { path with pkg := context.package } else path) ∈
        result.paths) ∧
    ((¬ ∃ text path, GoString.unquote raw = .ok text ∧
        AssetPath.parse context.home text = .ok path) →
      ∃ error ∈ result.errors, error.file = context.file ∧ error.line = first.site.line ∧
        error.column = first.site.column) := by
  constructor
  · intro text path unquotes parses
    have denoted := ScanContext.pathOf_eq_ok_iff.mpr ⟨text, path, unquotes, parses, rfl⟩
    exact plain.mem_paths completed contained denoted
  · intro unreadable
    match denoted : context.pathOf raw with
    | .ok path =>
      obtain ⟨text, parsed, unquotes, parses, _⟩ := ScanContext.pathOf_eq_ok_iff.mp denoted
      exact (unreadable ⟨text, parsed, unquotes, parses⟩).elim
    | .error (.path error) =>
      exact ⟨_, plain.mem_errors completed contained denoted, rfl, rfl, rfl⟩
    | .error .hexDigitsMissing =>
      exact (plain.pathOf_ne_hexDigitsMissing completed contained denoted).elim

/-- The declaration `const templates = ":/t"`. -/
def templatesSpec : Declaration :=
  .valueSpec ⟨"const_spec", 1, 7⟩ [.ident ⟨"identifier", 1, 7⟩ "templates" 6] none
    [.literal ⟨"interpreted_string_literal", 1, 19⟩ "\":/t\""] true

/-- A file with two plain call sites, one of them in a block, and a call of `Walk` without
arguments. -/
def callSitesBesideErrors : SyntaxTree where
  path := "main.go"
  root := .generic ⟨"source_file", 1, 1⟩
    [templatesSpec.node, memberCall 2 "Walk" [],
      .generic ⟨"block", 3, 1⟩
        [memberCall 3 "Open" [.ident ⟨"identifier", 3, 12⟩ "templates" 311]],
      memberCall 4 "Walk" [.literal ⟨"interpreted_string_literal", 4, 12⟩ "\"a:b:c\"",
        .ident ⟨"identifier", 4, 21⟩ "visit" 420]]
  package := none
  bindings := (BindingTable.empty.insert 6 (.declaration [0] templatesSpec)).insert 311
    (.declaration [0] templatesSpec)

theorem plain_call_sites_are_kept_beside_errors :
    ∃ result,
      scanTree { file := "main.go", package := "app", home := "lib" } callSitesBesideErrors =
        .ok result ∧
      ⟨"app", "/t"⟩ ∈ result.paths ∧
      ∃ error ∈ result.errors, error.file = "main.go" ∧ error.line = 4 ∧ error.column = 12 := by
  let context : ScanContext := { file := "main.go", package := "app", home := "lib" }
  have completed : scanTree context callSitesBesideErrors =
      .ok ⟨"main.go", "app", [⟨"app", "/t"⟩],
        [⟨Problem.walkArity.message, "main.go", 2, 1⟩,
          ⟨(PathError.unparsable "a:b:c").message, "main.go", 4, 12⟩]⟩ := by decide +kernel
  have opened : PlainCall context callSitesBesideErrors.bindings
      (memberCall 3 "Open" [.ident ⟨"identifier", 3, 12⟩ "templates" 311]) _ "\":/t\"" :=
    .opens (by simp [Node.isCall, Node.isComposite]) (.declared rfl)
  have walked : PlainCall context callSitesBesideErrors.bindings
      (memberCall 4 "Walk" [.literal ⟨"interpreted_string_literal", 4, 12⟩ "\"a:b:c\"",
        .ident ⟨"identifier", 4, 21⟩ "visit" 420]) _ "\"a:b:c\"" :=
    .walks (by simp [Node.isCall, Node.isComposite]) (.literal ..)
  refine ⟨_, completed, ?_, ?_⟩
  · exact (plain_call_sites_are_kept completed
      (.child (.child .self (.tail _ (.tail _ (.head _)))) (.head _)) opened).1
      ":/t" ⟨"lib", "/t"⟩ (by decide +kernel) (by decide +kernel)
  · refine (plain_call_sites_are_kept completed
      (.child .self (.tail _ (.tail _ (.tail _ (.head _))))) walked).2 ?_
    rintro ⟨text, path, unquotes, parses⟩
    have known : GoString.unquote "\"a:b:c\"" = .ok "a:b:c" := by decide +kernel
    rw [known] at unquotes
    cases unquotes
    have unparsable : AssetPath.parse "lib" "a:b:c" = .error (.unparsable "a:b:c") := by
      decide +kernel
    rw [unparsable] at parses
    cases parses

end AssetRefs
