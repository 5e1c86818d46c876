import AssetRefs.Proofs.Visits

/-! # The package of a scan

With path texts relative to the package of the file, the package enters a scan in two places: a text
may leave the package open, and the marker stands for it. Neither has an influence on how the scan
goes on. So scans of one tree for different packages find paths that differ only in the package put
into the open ones: see `packages_fill_in_blanks`.
-/

namespace AssetRefs

/-- A path that may leave the package open. -/
structure PathTemplate where
  pkg : Option String
  name : String
deriving DecidableEq, Repr

/-- The path with a package put in if there is none. -/
def PathTemplate.fill (package : String) (template : PathTemplate) : AssetPath :=
  ⟨template.pkg.getD package, template.name⟩

/-! ## What literals denote -/

theorem AssetPath.exists_build_eq (pkg name : List Char) :
    ∃ template : PathTemplate, ∀ home, build home pkg name = template.fill home := by
  unfold build
  split
  · exact ⟨⟨none, _⟩, fun _ => rfl⟩
  · exact ⟨⟨none, _⟩, fun _ => rfl⟩
  · exact ⟨⟨some _, _⟩, fun _ => rfl⟩

theorem AssetPath.exists_parse_eq (text : String) :
    ∃ parsed : Except PathError PathTemplate, ∀ home,
      parse home text = parsed.map (PathTemplate.fill home) := by
  have built (pkg name : List Char) : ∃ parsed : Except PathError PathTemplate, ∀ home,
      .ok (build home pkg name) = parsed.map (PathTemplate.fill home) := by
    obtain ⟨template, same⟩ := exists_build_eq pkg name
    exact ⟨.ok template, fun home => congrArg Except.ok (same home)⟩
  have failed : ∃ parsed : Except PathError PathTemplate, ∀ home,
      .error (.unparsable text) = parsed.map (PathTemplate.fill home) := ⟨.error _, fun _ => rfl⟩
  unfold parse
  dsimp only
  split_ifs
  · exact built [] []
  · exact failed
  · split
    · exact built _ []
    · split_ifs
      · exact built _ _
      · exact failed

/-- The scans of one file for all packages, with path texts relative to the package. -/
def ScanFamily.ofPackages (file spaceName : String) (table : BindingTable) :
    ScanFamily String where
  context package := { file, package, spaceName }
  table _ := table
  move _ place := place
  base := { file, package := "", spaceName }
  names := table
  file_eq _ := rfl
  spaceName_eq _ := rfl
  size_eq _ := rfl
  find?_eq _ _ := (Binding.map_relocate_id _).symm

theorem exists_pathOf_eq (file spaceName raw : String) :
    ∃ denoted : Except GoString.Fault PathTemplate, ∀ package,
      ({ file, package, spaceName } : ScanContext).pathOf raw =
        denoted.map (PathTemplate.fill package) := by
  unfold ScanContext.pathOf
  cases GoString.unquote raw with
  | error fault => exact ⟨.error fault, fun _ => rfl⟩
  | ok text =>
    obtain ⟨parsed, same⟩ := AssetPath.exists_parse_eq text
    cases parsed with
    | error error =>
      refine ⟨.error (.path error), fun package => ?_⟩
      simp only [same]
      rfl
    | ok template =>
      by_cases marked : text.toList.head? = some ':'
      · refine ⟨.ok ⟨none, template.name⟩, fun package => ?_⟩
        simp only [same, Except.map, marked, ↓reduceIte]
        rfl
      · refine ⟨.ok template, fun package => ?_⟩
        simp only [same, Except.map, marked, ↓reduceIte]

/-! ## What visits do -/

/-- What a trace registers for all packages at once, with the lines, and how it ends. -/
structure OpenEffect (α : Type) where
  found : List (PathTemplate × Nat)
  outcome : Except Halt α

/-- What the trace does for one package. -/
def OpenEffect.fill {α : Type} (package : String) (effect : OpenEffect α) : Trace.Effect α :=
  ⟨effect.found.map fun entry => ⟨entry.1.fill package, entry.2⟩, effect.outcome⟩

/-- Every resolution does the same for all packages, up to filling in the package. -/
theorem ofPackages_closed (file spaceName : String) (table : BindingTable) :
    (ScanFamily.ofPackages file spaceName table).Closed fun traces =>
      ∀ active, ∃ effect : OpenEffect _, ∀ package,
        (traces package).Has active (effect.fill package) where
  done value _ := ⟨⟨[], .ok value⟩, fun _ => .done value⟩
  halt reason _ := ⟨⟨[], .error reason⟩, fun _ => .halt reason⟩
  resume first next active := by
    obtain ⟨effect, has⟩ := first active
    obtain ⟨later, hasNext⟩ := next effect.outcome active
    refine ⟨⟨effect.found ++ later.found, later.outcome⟩, fun package => ?_⟩
    rw [OpenEffect.fill, List.map_append]
    exact (has package).resume (hasNext package)
  addPath raw site active := by
    obtain ⟨denoted, same⟩ := exists_pathOf_eq file spaceName raw
    have adds (package : String) : (ScanFamily.ofPackages file spaceName table).context package =
        { file, package, spaceName } := rfl
    simp only [adds, ScanContext.addPath, same]
    cases denoted with
    | ok template =>
      exact ⟨⟨[(template, site.line)], .ok ()⟩, fun package => (Trace.Has.register _).andThen_ok
        ((Trace.Has.done _).andThen_ok (.done ()))⟩
    | error fault =>
      cases fault with
      | path error =>
        let reported := ScanContext.problem { file, package := "", spaceName } site (.path error)
        exact ⟨⟨[], .error reported⟩, fun _ => (Trace.Has.halt reported).andThen_error⟩
      | hexDigitsMissing =>
        exact ⟨⟨[], .error .malformedLiteral⟩, fun _ => (Trace.Has.halt _).andThen_error⟩
  following place traced active := by
    by_cases member : place ∈ active
    · exact ⟨⟨[], .ok ()⟩, fun _ => .following_of_mem member⟩
    · obtain ⟨effect, has⟩ := traced (place :: active)
      exact ⟨effect, fun package => .following_of_not_mem member (has package)⟩

theorem exists_visitTrace_has (file spaceName : String) (tree : SyntaxTree) (node : Node) :
    ∃ effect : OpenEffect Unit, ∀ package,
      (visitTrace { file, package, spaceName } tree node).Has [] (effect.fill package) :=
  have closed := ofPackages_closed file spaceName tree.bindings
  closed.classify _ closed.followFresh node []

/-! ## What runs give -/

/-- The package only fills in blanks. For a tree there are a list of paths, some of which leave the
package open, and a list of errors, such that a completed run for any package gives the distinct
paths in increasing order after the package is put into the open ones, and just these errors. It
does not depend on the package whether a run is completed. -/
theorem packages_fill_in_blanks (file spaceName : String) (tree : SyntaxTree) :
    ∃ (templates : List PathTemplate) (errors : List ScanError),
      (∀ package result, scanTree { file, package, spaceName } tree = .ok result →
        result.paths = AssetPath.sorted (templates.map (PathTemplate.fill package)) ∧
        result.errors = errors) ∧
      ∀ package other,
        (∃ result, scanTree { file, package, spaceName } tree = .ok result) ↔
          ∃ result, scanTree { file, package := other, spaceName } tree = .ok result := by
  choose effect has using exists_visitTrace_has file spaceName tree
  refine ⟨tree.root.walk.flatMap fun node => (effect node).found.map Prod.fst,
    (tree.root.walk.flatMap fun node => ((effect node).fill "").logged).eraseDups, ?_, ?_⟩
  · intro package result completed
    obtain ⟨_, session, collects, paths, errors⟩ := scanTree_collects completed
    constructor
    · rw [← paths]
      refine AssetPath.increasing_ext collects.increasing (AssetPath.increasing_sorted _) ?_
      intro path
      rw [collects.found_iff, AssetPath.mem_sorted]
      simp only [(has _ package).mem_found_visitAlone, OpenEffect.fill, List.mem_map,
        List.mem_flatMap]
      constructor
      · rintro ⟨node, walked, _, ⟨entry, listed, rfl⟩, rfl⟩
        exact ⟨entry.1, ⟨node, walked, entry, listed, rfl⟩, rfl⟩
      · rintro ⟨_, ⟨node, walked, entry, listed, rfl⟩, rfl⟩
        exact ⟨node, walked, _, ⟨entry, listed, rfl⟩, rfl⟩
    · rw [← errors, collects.errors_eq]
      simp only [(has _ package).errors_visitAlone]
      rfl
  · have returns (first second : String) (node : Node)
        (ends : VisitReturns { file, package := first, spaceName } tree node) :
        VisitReturns { file, package := second, spaceName } tree node :=
      (has node second).visitReturns_iff.mpr ((has node first).visitReturns_iff.mp ends)
    have completes (first second : String)
        (completed : ∃ result, scanTree { file, package := first, spaceName } tree = .ok result) :
        ∃ result, scanTree { file, package := second, spaceName } tree = .ok result := by
      obtain ⟨result, completed⟩ := completed
      obtain ⟨paths, errors, ran⟩ := exists_scanTree_eq_ok fun node walked =>
        returns first second node ((scanTree_collects completed).1 node walked)
      exact ⟨_, ran⟩
    exact fun package other => ⟨completes package other, completes other package⟩

/-- A file that opens `/b`, `other:/x` and `:`, and calls `Walk` without arguments. -/
def mixedForms : SyntaxTree where
  path := "main.go"
  root := .generic ⟨"source_file", 1, 1⟩
    [memberCall 1 "Open" [.literal ⟨"interpreted_string_literal", 1, 12⟩ "\"/b\""],
      memberCall 2 "Open" [.literal ⟨"interpreted_string_literal", 2, 12⟩ "\"other:/x\""],
      memberCall 3 "Open" [.literal ⟨"interpreted_string_literal", 3, 12⟩ "\":\""],
      memberCall 4 "Walk" []]
  package := none
  bindings := .empty

theorem packages_fill_in_blanks_mixed :
    ∃ (templates : List PathTemplate) (errors : List ScanError),
      AssetPath.sorted (templates.map (PathTemplate.fill "app")) =
        [⟨"app", "/"⟩, ⟨"app", "/b"⟩, ⟨"other", "/x"⟩] ∧
      AssetPath.sorted (templates.map (PathTemplate.fill "zoo")) =
        [⟨"other", "/x"⟩, ⟨"zoo", "/"⟩, ⟨"zoo", "/b"⟩] ∧
      errors = [⟨Problem.walkArity.message, "main.go", 4, 1⟩] := by
  obtain ⟨templates, errors, gives, _⟩ := packages_fill_in_blanks "main.go" "pkger" mixedForms
  have app : scanTree { file := "main.go", package := "app", spaceName := "pkger" } mixedForms =
      .ok ⟨"main.go", "app", [⟨"app", "/"⟩, ⟨"app", "/b"⟩, ⟨"other", "/x"⟩],
        [⟨Problem.walkArity.message, "main.go", 4, 1⟩]⟩ := by decide +kernel
  have zoo : scanTree { file := "main.go", package := "zoo", spaceName := "pkger" } mixedForms =
      .ok ⟨"main.go", "zoo", [⟨"other", "/x"⟩, ⟨"zoo", "/"⟩, ⟨"zoo", "/b"⟩],
        [⟨Problem.walkArity.message, "main.go", 4, 1⟩]⟩ := by decide +kernel
  exact ⟨templates, errors, (gives _ _ app).1.symm, (gives _ _ zoo).1.symm, (gives _ _ app).2.symm⟩

end AssetRefs
