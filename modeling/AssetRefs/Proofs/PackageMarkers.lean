import AssetRefs.Proofs.PathGrammar
import AssetRefs.Proofs.ResolutionLaws

/-! # Package markers

A path text with the marker in front is relative to the package of the file. Reading a path drops
the blank characters before it looks for the marker, and it knows only the package that texts are
relative to. Registering a path looks for the marker in the text as it is, and puts in the package
of the file. If a blank character stands before the marker, only the first of the two sees it: see
`markers_win_unless_blanks_precede`.
-/

namespace AssetRefs

namespace AssetPath

variable {home text : String} {path : AssetPath}

/-- The marker stands in front, apart from blank characters. -/
def IsMarked (text : String) : Prop := (Text.trim text.toList).head? = some ':'

theorem isMarked_iff : IsMarked text ↔ (canonicalText text).head? = some ':' := by
  rw [IsMarked, canonicalText, List.head?_map, Option.map_eq_some_iff]
  constructor
  · intro first
    exact ⟨':', first, rfl⟩
  · rintro ⟨c, first, same⟩
    split_ifs at same
    · exact absurd same (by decide)
    · rwa [← same]

theorem isMarked_of_head? (first : text.toList.head? = some ':') : IsMarked text :=
  Text.head?_trim first (by decide)

/-- A marked text names no package, so it is read in the one that texts are relative to. -/
theorem pkg_of_isMarked (marked : IsMarked text) (parsed : parse home text = .ok path) :
    path.pkg = home := by
  by_cases root : IsRoot (canonicalText text)
  · rw [parse_of_isRoot root] at parsed
    cases parsed
    rfl
  · obtain ⟨back, split⟩ := List.head?_eq_some_iff.mp (isMarked_iff.mp marked)
    rw [parse_of_marked root List.not_mem_nil split] at parsed
    split_ifs at parsed
    cases parsed
    rfl

end AssetPath

open AssetPath

theorem ScanContext.take_addPath {context : ScanContext} {raw : String} {path : AssetPath}
    (denoted : context.pathOf raw = .ok path) (session : Session) (site : Site) :
    session.take (context.addPath raw site) = (session.register ⟨path, site.line⟩, .ok path) := by
  rw [addPath, denoted]
  rfl

/-- Let a literal denote a text that is read as `path`, in any session. Then one path is
registered: the one in the package of the file with the name of `path`, if the text starts with
the marker, and `path` itself otherwise. A marked text is read in the package that texts are
relative to. So the marker wins, and makes no difference where there is none, if and only if no
blank character stands before it or the two packages are the same. -/
theorem markers_win_unless_blanks_precede (context : ScanContext) (session : Session) (site : Site)
    {raw text : String} {path : AssetPath} (denoted : GoString.unquote raw = .ok text)
    (parsed : parse context.home text = .ok path) :
    ∃ after added, session.take (context.addPath raw site) = (after, .ok added) ∧
      (∀ other, other ∈ after.found ↔ other ∈ session.found ∨ other = added) ∧
      (text.toList.head? = some ':' → added = ⟨context.package, path.name⟩) ∧
      (text.toList.head? ≠ some ':' → added = path) ∧
      (IsMarked text → path.pkg = context.home) ∧
      ((IsMarked text → added.pkg = context.package) ∧ (¬ IsMarked text → added = path) ↔
        (IsMarked text → text.toList.head? = some ':' ∨ context.package = context.home)) := by
  have gives := ScanContext.pathOf_eq_ok_iff.mpr ⟨text, path, denoted, parsed, rfl⟩
  refine ⟨_, _, ScanContext.take_addPath gives session site,
    fun other => Session.mem_found_register, ?_⟩
  have read := fun marked : IsMarked text => pkg_of_isMarked marked parsed
  by_cases first : text.toList.head? = some ':'
  · simp [first, isMarked_of_head? first, read (isMarked_of_head? first)]
  · by_cases marked : IsMarked text
    · simp [first, marked, read marked, eq_comm]
    · simp [first, marked]

/-- A file of one package, with texts relative to another. -/
def twoPackages : ScanContext where
  file := "main.go"
  package := "app"
  home := "lib"

/-- The marker is spelled by an escape, and blank characters follow it. -/
theorem markers_win_unless_blanks_precede_escaped :
    GoString.unquote "\"\\x3a\\t\"" = .ok ":\t" ∧
    parse "lib" ":\t" = .ok ⟨"lib", "/"⟩ ∧
    ∃ after, ({} : Session).take (twoPackages.addPath "\"\\x3a\\t\"" ⟨"literal", 1, 1⟩) =
        (after, .ok ⟨"app", "/"⟩) ∧
      ⟨"app", "/"⟩ ∈ after.found := by
  have denoted : GoString.unquote "\"\\x3a\\t\"" = .ok ":\t" := by decide +kernel
  have parsed : parse "lib" ":\t" = .ok ⟨"lib", "/"⟩ := by decide +kernel
  obtain ⟨after, added, took, found, marked, _⟩ := markers_win_unless_blanks_precede
    twoPackages {} ⟨"literal", 1, 1⟩ denoted parsed
  obtain rfl := marked (by decide)
  exact ⟨denoted, parsed, after, took, (found _).mpr (.inr rfl)⟩

/-- With a blank character before the marker, the path is registered in the wrong package. -/
theorem blanks_hide_markers :
    GoString.unquote "\" :/a\"" = .ok " :/a" ∧ IsMarked " :/a" ∧
    parse "lib" " :/a" = .ok ⟨"lib", "/a"⟩ ∧
    (({} : Session).take (twoPackages.addPath "\" :/a\"" ⟨"literal", 1, 1⟩)).2 =
      .ok ⟨"lib", "/a"⟩ ∧
    ¬ ∀ (context : ScanContext) (session : Session) (site : Site) (raw text : String)
      (path : AssetPath), GoString.unquote raw = .ok text → parse context.home text = .ok path →
        IsMarked text →
        ∃ after added, session.take (context.addPath raw site) = (after, .ok added) ∧
          added.pkg = context.package := by
  have denoted : GoString.unquote "\" :/a\"" = .ok " :/a" := by decide +kernel
  have marked : IsMarked " :/a" := by
    unfold IsMarked
    decide +kernel
  have parsed : parse "lib" " :/a" = .ok ⟨"lib", "/a"⟩ := by decide +kernel
  have took : (({} : Session).take (twoPackages.addPath "\" :/a\"" ⟨"literal", 1, 1⟩)).2 =
      .ok ⟨"lib", "/a"⟩ := by decide +kernel
  refine ⟨denoted, marked, parsed, took, ?_⟩
  intro wins
  obtain ⟨after, added, same, package⟩ :=
    wins twoPackages {} ⟨"literal", 1, 1⟩ _ _ _ denoted parsed marked
  rw [same] at took
  cases took
  exact absurd package (by decide)

end AssetRefs
