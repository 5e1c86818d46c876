import AssetRefs.Proofs.ScanOperations
import Mathlib.Data.List.Basic

/-! # Canonical paths

Whatever the text of a literal, the path that it denotes is canonical: its name is in normal form
and free of backslashes and line breaks, and its package is one that the scan was told or a package
written out in full (`ScanContext.canonical_of_pathOf`). Nothing else enters a session, so the paths
found are canonical after any sequence of operations: see `found_paths_are_canonical`.
-/

namespace AssetRefs

namespace Text

variable {separator : Char} {chars piece : List Char}

/-- The pieces of a text are free of the separator and consist of characters of the text. -/
theorem mem_pieces (member : piece ∈ pieces separator chars) :
    separator ∉ piece ∧ piece ⊆ chars := by
  induction chars generalizing piece with
  | nil =>
    rw [pieces, List.mem_singleton] at member
    simp [member]
  | cons first rest ih =>
    have later {other : List Char} (listed : other ∈ pieces separator rest) :
        separator ∉ other ∧ other ⊆ first :: rest :=
      ⟨(ih listed).1, List.subset_cons_of_subset first (ih listed).2⟩
    rw [pieces] at member
    split_ifs at member with same
    · rcases List.mem_cons.mp member with rfl | member
      · exact ⟨List.not_mem_nil, List.nil_subset _⟩
      · exact later member
    · split at member
      · rw [List.mem_singleton] at member
        simp [member, Ne.symm same]
      · next front more pieced =>
        rcases List.mem_cons.mp member with rfl | member
        · have inner : separator ∉ front ∧ front ⊆ rest := ih (by simp [pieced])
          exact ⟨by simp [Ne.symm same, inner.1], List.cons_subset_cons first inner.2⟩
        · exact later (by simp [pieced, member])

end Text

namespace AssetPath

/-- A segment of a name in normal form. -/
def IsSegment (segment : List Char) : Prop :=
  segment ≠ [] ∧ segment ≠ ['.'] ∧ segment ≠ ['.', '.'] ∧ '/' ∉ segment

/-- A slash and segments with single slashes between them. -/
def IsNormal (name : String) : Prop :=
  ∃ segments : List (List Char), (∀ segment ∈ segments, IsSegment segment) ∧
    name.toList = '/' :: List.intercalate ['/'] segments

/-- A package that is written out. -/
def IsPackage (pkg : String) : Prop :=
  pkg ≠ "" ∧ (∀ c ∈ pkg.toList, c ≠ ':' ∧ c ≠ '\\' ∧ Text.isBlank c = false) ∧
    pkg.toList.head? ≠ some '/'

/-! ## Normal names -/

theorem mem_of_mem_foldl_pushSegment {segments above : List (List Char)} {segment : List Char}
    (member : segment ∈ segments.foldl pushSegment above) :
    segment ∈ above ∨
      segment ∈ segments ∧ segment ≠ [] ∧ segment ≠ ['.'] ∧ segment ≠ ['.', '.'] := by
  induction segments generalizing above with
  | nil => exact .inl member
  | cons first rest ih =>
    rcases ih member with pushed | ⟨later, proper⟩
    · unfold pushSegment at pushed
      split_ifs at pushed with skipped up
      · exact .inl pushed
      · exact .inl (List.mem_of_mem_tail pushed)
      · rcases List.mem_cons.mp pushed with rfl | old
        · simp only [Bool.or_eq_true, decide_eq_true_eq, not_or] at skipped
          exact .inr ⟨List.mem_cons_self, skipped.1, skipped.2, up⟩
        · exact .inl old
    · exact .inr ⟨List.mem_cons_of_mem _ later, proper⟩

theorem mem_normalSegments {name segment : List Char} (member : segment ∈ normalSegments name) :
    IsSegment segment ∧ segment ⊆ name := by
  rcases mem_of_mem_foldl_pushSegment (List.mem_reverse.mp member) with none | ⟨piece, proper⟩
  · cases none
  · obtain ⟨apart, inside⟩ := Text.mem_pieces piece
    exact ⟨⟨proper.1, proper.2.1, proper.2.2, apart⟩, inside⟩

theorem mem_intercalate {separator c : Char} {parts : List (List Char)}
    (member : c ∈ List.intercalate [separator] parts) :
    c = separator ∨ ∃ part ∈ parts, c ∈ part := by
  induction parts with
  | nil => cases member
  | cons part rest ih =>
    cases rest with
    | nil =>
      rw [List.intercalate_singleton] at member
      exact .inr ⟨part, List.mem_cons_self, member⟩
    | cons next rest =>
      rw [List.intercalate_cons_cons] at member
      simp only [List.mem_append, List.mem_singleton] at member
      rcases member with (inside | same) | later
      · exact .inr ⟨part, List.mem_cons_self, inside⟩
      · exact .inl same
      · refine (ih later).imp_right ?_
        rintro ⟨other, listed, inside⟩
        exact ⟨other, List.mem_cons_of_mem _ listed, inside⟩

theorem mem_of_mem_normalName {name : List Char} {c : Char} (member : c ∈ normalName name) :
    c = '/' ∨ c ∈ name := by
  rcases List.mem_cons.mp member with rfl | member
  · exact .inl rfl
  · refine (mem_intercalate member).imp_right ?_
    rintro ⟨segment, listed, inside⟩
    exact (mem_normalSegments listed).2 inside

theorem isNormal_normalName (name : List Char) : IsNormal (String.ofList (normalName name)) :=
  ⟨normalSegments name, fun _ member => (mem_normalSegments member).1, String.toList_ofList⟩

/-! ## What a text denotes -/

theorem backslash_not_mem_canonicalText (text : String) : '\\' ∉ canonicalText text := by
  intro member
  obtain ⟨c, _, replaced⟩ := List.mem_map.mp member
  split_ifs at replaced with same
  · cases replaced
  · exact same replaced

theorem splitMarker_append {front back : List Char} (absent : ':' ∉ front) :
    splitMarker (front ++ ':' :: back) = (front, some back) := by
  induction front with
  | nil => rfl
  | cons c rest ih =>
    obtain ⟨different, absent⟩ := List.ne_and_not_mem_of_not_mem_cons absent
    rw [List.cons_append, splitMarker, if_neg (Ne.symm different), ih absent]

/-- The part before the marker has no colon, and nothing but the first colon is lost. -/
theorem splitMarker_eq (chars : List Char) :
    ':' ∉ (splitMarker chars).1 ∧
      chars = (splitMarker chars).1 ++ ((splitMarker chars).2.map (':' :: ·)).getD [] := by
  induction chars with
  | nil => exact ⟨List.not_mem_nil, rfl⟩
  | cons c rest ih =>
    rw [splitMarker]
    split_ifs with colon
    · exact ⟨List.not_mem_nil, by simp [colon]⟩
    · refine ⟨?_, congrArg (c :: ·) ih.2⟩
      simp [Ne.symm colon, ih.1]

end AssetPath

/-- The form of the paths that a scan finds. -/
structure ScanContext.Canonical (context : ScanContext) (path : AssetPath) : Prop where
  name : AssetPath.IsNormal path.name
  backslash : '\\' ∉ path.name.toList
  newline : '\n' ∉ path.name.toList
  pkg : path.pkg = context.package ∨ path.pkg = context.home ∨ AssetPath.IsPackage path.pkg

namespace ScanContext

open AssetPath

variable {context : ScanContext}

theorem canonical_normalName {pkg : String} {name : List Char}
    (known : pkg = context.package ∨ pkg = context.home ∨ IsPackage pkg)
    (backslash : '\\' ∉ name) (newline : '\n' ∉ name) :
    context.Canonical ⟨pkg, String.ofList (normalName name)⟩ where
  name := isNormal_normalName name
  backslash member := by
    rw [String.toList_ofList] at member
    exact backslash ((mem_of_mem_normalName member).resolve_left (by decide))
  newline member := by
    rw [String.toList_ofList] at member
    exact newline ((mem_of_mem_normalName member).resolve_left (by decide))
  pkg := known

/-- A package that starts with a slash is taken for the name, so it has to be as clean as one. -/
theorem canonical_build {pkg name : List Char}
    (proper : ∀ c ∈ pkg, c ≠ ':' ∧ c ≠ '\\' ∧ Text.isBlank c = false)
    (backslash : '\\' ∉ name) (newline : '\n' ∉ name) :
    context.Canonical (build context.home pkg name) := by
  unfold build
  split
  · exact canonical_normalName (.inr (.inl rfl)) backslash newline
  · refine canonical_normalName (.inr (.inl rfl)) (fun member => (proper _ member).2.1 rfl) ?_
    intro member
    exact absurd (proper _ member).2.2 (by decide)
  · next nonempty relative =>
    refine canonical_normalName (.inr (.inr ⟨?_, ?_, ?_⟩)) backslash newline
    · intro empty
      exact nonempty (by simpa using congrArg String.toList empty)
    · rwa [String.toList_ofList]
    · rw [String.toList_ofList]
      intro slash
      obtain ⟨rest, same⟩ := List.head?_eq_some_iff.mp slash
      exact relative rest same

theorem canonical_of_parse {text : String} {path : AssetPath}
    (parsed : parse context.home text = .ok path) : context.Canonical path := by
  have clean := backslash_not_mem_canonicalText text
  obtain ⟨colon, whole⟩ := splitMarker_eq (canonicalText text)
  simp only [parse] at parsed
  generalize splitMarker (canonicalText text) = parts at *
  obtain ⟨pkg, name?⟩ := parts
  have proper (unbroken : pkg.any Text.isBlank = false) :
      ∀ c ∈ pkg, c ≠ ':' ∧ c ≠ '\\' ∧ Text.isBlank c = false := by
    intro c member
    refine ⟨?_, ?_, by simpa using List.any_eq_false.mp unbroken c member⟩
    · rintro rfl
      exact colon member
    · rintro rfl
      exact clean (whole ▸ List.mem_append_left _ member)
  split_ifs at parsed with root blank
  · cases parsed
    exact canonical_build (by simp) List.not_mem_nil List.not_mem_nil
  · rw [Bool.not_eq_true] at blank
    cases name? with
    | none =>
      cases parsed
      exact canonical_build (proper blank) List.not_mem_nil List.not_mem_nil
    | some name =>
      simp only at parsed
      split_ifs at parsed with accepted
      cases parsed
      simp only [Bool.and_eq_true, Bool.not_eq_true', decide_eq_true_eq] at accepted
      refine canonical_build (proper blank) (fun member => clean ?_) ?_
      · rw [whole]
        exact List.mem_append_right _ (List.mem_cons_of_mem _ member)
      · simpa using accepted.2

/-- Every path that a literal denotes is canonical. -/
theorem canonical_of_pathOf {raw : String} {path : AssetPath}
    (denoted : context.pathOf raw = .ok path) : context.Canonical path := by
  unfold pathOf at denoted
  split at denoted
  · cases denoted
  · split at denoted
    · cases denoted
    · next parsed =>
      have canonical := canonical_of_parse parsed
      cases denoted
      split_ifs
      · exact ⟨canonical.name, canonical.backslash, canonical.newline, .inl rfl⟩
      · exact canonical

theorem Canonical.colon_not_mem_pkg {path : AssetPath} (canonical : context.Canonical path)
    (package : ':' ∉ context.package.toList) (home : ':' ∉ context.home.toList) :
    ':' ∉ path.pkg.toList := by
  rcases canonical.pkg with same | same | written
  · rwa [same]
  · rwa [same]
  · intro member
    exact (written.2.1 _ member).1 rfl

end ScanContext

/-- The written form tells paths apart if their packages have no colon. -/
theorem AssetPath.eq_of_render_eq {first second : AssetPath} (left : ':' ∉ first.pkg.toList)
    (right : ':' ∉ second.pkg.toList) (same : first.render = second.render) : first = second := by
  have written (path : AssetPath) :
      path.render.toList = path.pkg.toList ++ ':' :: path.name.toList := by
    simp [render]
  have split : (first.pkg.toList, some first.name.toList) =
      (second.pkg.toList, some second.name.toList) := by
    rw [← splitMarker_append left, ← splitMarker_append right, ← written, ← written, same]
  simp only [Prod.mk.injEq, Option.some.injEq, String.toList_inj] at split
  cases first
  cases second
  simp_all

/-- All paths found are canonical, whatever was done. -/
theorem Session.invariant_canonical (context : ScanContext) :
    Session.Invariant context fun session => ∀ path ∈ session.found, context.Canonical path where
  register line kept denoted path member := by
    rcases mem_found_register.mp member with old | rfl
    · exact kept path old
    · exact ScanContext.canonical_of_pathOf denoted
  log error kept := by rwa [log_found]
  withActive _ kept := kept
  used kept := kept

/-- After any sequence of operations, also of ones that stop halfway, every path found is canonical:
its name is a slash and segments with single slashes between them, none of which is empty, `.` or
`..`, without backslashes and line breaks, and its package is the package of the file, the package
that path texts are relative to, or a package that is written out. So if neither of the two packages
has a colon, different paths found are written differently. -/
theorem found_paths_are_canonical (context : ScanContext) (tree : SyntaxTree)
    (operations : List ScanOperation) :
    let found := (({} : Session).performAll context tree operations).found
    (∀ path ∈ found, context.Canonical path) ∧
    (':' ∉ context.package.toList → ':' ∉ context.home.toList →
      ∀ first ∈ found, ∀ second ∈ found, first ≠ second → first.render ≠ second.render) := by
  intro found
  have initial : ∀ path ∈ ({} : Session).found, context.Canonical path := by simp
  have canonical : ∀ path ∈ found, context.Canonical path :=
    (Session.invariant_canonical context).performAll tree operations initial
  refine ⟨canonical, ?_⟩
  intro package home first listed second listed' different same
  refine different (AssetPath.eq_of_render_eq ?_ ?_ same)
  · exact (canonical first listed).colon_not_mem_pkg package home
  · exact (canonical second listed').colon_not_mem_pkg package home

/-- Three literals, the second one malformed, and a run. -/
def mixedOperations : List ScanOperation :=
  [.addPath "\" other:/a//./b/../c\\\\d/ \"" ⟨"literal", 5, 1⟩,
    .addPath "\"\\x\"" ⟨"literal", 6, 1⟩, .addPath "\":/x/..\"" ⟨"literal", 7, 1⟩, .run]

theorem found_paths_are_canonical_mixed :
    let context : ScanContext := { file := "main.go", package := "app", home := "lib" }
    let found := (({} : Session).performAll context fourCalls mixedOperations).found
    found = [⟨"app", "/"⟩, ⟨"lib", "/a"⟩, ⟨"lib", "/b"⟩, ⟨"other", "/a/c/d"⟩] ∧
    context.Canonical ⟨"other", "/a/c/d"⟩ ∧
    (⟨"lib", "/a"⟩ : AssetPath).render ≠ (⟨"lib", "/b"⟩ : AssetPath).render := by
  intro context found
  have all : found = [⟨"app", "/"⟩, ⟨"lib", "/a"⟩, ⟨"lib", "/b"⟩, ⟨"other", "/a/c/d"⟩] := by
    decide +kernel
  have listed (path : AssetPath)
      (member : path ∈ [⟨"app", "/"⟩, ⟨"lib", "/a"⟩, ⟨"lib", "/b"⟩, ⟨"other", "/a/c/d"⟩]) :
      path ∈ found := all ▸ member
  obtain ⟨canonical, apart⟩ := found_paths_are_canonical context fourCalls mixedOperations
  refine ⟨all, canonical _ (listed _ (by simp)), ?_⟩
  exact apart (by decide) (by decide) _ (listed _ (by simp)) _ (listed _ (by simp)) (by decide)

end AssetRefs
