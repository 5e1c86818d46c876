import AssetRefs.Proofs.PathGrammar
import AssetRefs.Proofs.Routes

/-! # Rendered paths

A path is written as its package, the marker and its name, and this is one of the forms that paths
are read from. A name in normal form is its own normal form, so reading gives the path back; only
blank characters at the end of the name are lost, as at the end of any text: see
`rendered_paths_read_back`.
-/

namespace AssetRefs

namespace AssetPath

variable {home : String} {name : List Char}

/-! ## Normal forms of names -/

theorem normalName_cons_slash (name : List Char) : normalName ('/' :: name) = normalName name := by
  simp [normalName, normalSegments, Text.pieces, pushSegment]

theorem foldl_pushSegment {segments : List (List Char)}
    (proper : ∀ segment ∈ segments, IsSegment segment) (above : List (List Char)) :
    segments.foldl pushSegment above = segments.reverse ++ above := by
  induction segments generalizing above with
  | nil => rfl
  | cons segment rest ih =>
    obtain ⟨first, others⟩ := List.forall_mem_cons.mp proper
    have pushed : pushSegment above segment = segment :: above := by
      simp [pushSegment, first.1, first.2.1, first.2.2.1]
    rw [List.foldl_cons, pushed, ih others]
    simp

theorem normalName_of_isNormal {name : String} (normal : IsNormal name) :
    normalName name.toList = name.toList := by
  obtain ⟨segments, proper, whole⟩ := normal
  rw [whole, normalName_cons_slash, normalName, normalSegments, Text.pieces_eq_splitOn]
  cases segments with
  | nil => rfl
  | cons segment rest =>
    rw [List.splitOn_intercalate '/' (fun part member => (proper part member).2.2.2) (by simp),
      foldl_pushSegment proper, List.append_nil, List.reverse_reverse]

/-- Fewer parts make a shorter text. -/
theorem intercalate_sublist (separator : List Char) {parts parts' : List (List Char)}
    (fewer : parts.Sublist parts') :
    (List.intercalate separator parts).Sublist (List.intercalate separator parts') := by
  induction fewer with
  | slnil => exact List.Sublist.refl _
  | @cons parts parts' part fewer ih =>
    apply ih.trans
    cases parts' with
    | nil => exact List.nil_sublist _
    | cons next rest =>
      rw [List.intercalate_cons_cons]
      exact List.sublist_append_right ..
  | @cons_cons parts parts' part fewer ih =>
    cases parts' with
    | nil => rw [List.sublist_nil.mp fewer]
    | cons next' rest' =>
      rw [List.intercalate_cons_cons]
      cases parts with
      | nil =>
        rw [List.intercalate_singleton, List.append_assoc]
        exact List.sublist_append_left ..
      | cons next rest =>
        rw [List.intercalate_cons_cons]
        exact ih.append_left _

theorem foldl_pushSegment_sublist (segments above : List (List Char)) :
    (segments.foldl pushSegment above).Sublist (segments.reverse ++ above) := by
  induction segments generalizing above with
  | nil => exact List.Sublist.refl _
  | cons segment rest ih =>
    have pushed : (pushSegment above segment).Sublist (segment :: above) := by
      unfold pushSegment
      split_ifs
      · exact List.sublist_cons_self ..
      · exact (List.tail_sublist above).cons _
      · exact List.Sublist.refl _
    rw [List.reverse_cons, List.append_assoc]
    exact (ih _).trans (pushed.append_left _)

/-- Normalising drops characters, and changes none. -/
theorem normalName_sublist (name : List Char) : (normalName name).Sublist ('/' :: name) := by
  have fewer : (normalSegments name).Sublist (Text.pieces '/' name) := by
    simpa [normalSegments] using (foldl_pushSegment_sublist (Text.pieces '/' name) []).reverse
  have shorter : (List.intercalate ['/'] (normalSegments name)).Sublist name := by
    have whole : List.intercalate ['/'] (Text.pieces '/' name) = name := by
      rw [Text.pieces_eq_splitOn, List.intercalate_splitOn]
    have kept := intercalate_sublist ['/'] fewer
    rwa [whole] at kept
  exact shorter.cons_cons _

/-! ## Reading what was written -/

theorem IsNormal.head? {name : String} (normal : IsNormal name) : name.toList.head? = some '/' := by
  obtain ⟨segments, _, whole⟩ := normal
  rw [whole]
  rfl

theorem IsNormal.trim_eq {name : String} (normal : IsNormal name) :
    Text.trim name.toList = Text.trimRight name.toList := by
  rw [Text.trim, Text.trimLeft_eq_self]
  rw [normal.head?]
  rintro c ⟨⟩
  rfl

theorem IsNormal.head?_trimRight {name : String} (normal : IsNormal name) :
    (Text.trimRight name.toList).head? = some '/' := by
  rw [← normal.trim_eq]
  exact Text.head?_trim normal.head? rfl

theorem IsNormal.canonicalText_eq {name : String} (normal : IsNormal name)
    (clean : '\\' ∉ name.toList) : canonicalText name = Text.trimRight name.toList := by
  have kept : Text.trimRight name.toList ⊆ name.toList :=
    (List.rdropWhile_prefix Text.isBlank name.toList).subset
  rw [canonicalText, normal.trim_eq, map_slash_of_clean fun member => clean (kept member)]

/-- A name with blank characters at its end has a longer normal form than what is left without
them. -/
theorem IsNormal.normalName_trimRight_eq_iff {name : String} (normal : IsNormal name) :
    normalName (Text.trimRight name.toList) = name.toList ↔
      ∀ c ∈ name.toList.getLast?, Text.isBlank c = false := by
  have unchanged : Text.trimRight name.toList = name.toList ↔
      ∀ c ∈ name.toList.getLast?, Text.isBlank c = false := by
    rw [Text.trimRight_eq_rdropWhile, List.rdropWhile_eq_self_iff]
    constructor
    · intro visible c ending
      obtain ⟨nonempty, rfl⟩ := List.mem_getLast?_eq_getLast ending
      simpa using visible nonempty
    · intro last nonempty
      simpa using last _ (List.getLast?_eq_some_getLast nonempty)
  constructor
  · intro same
    obtain ⟨rest, trimmed⟩ := List.head?_eq_some_iff.mp normal.head?_trimRight
    have length : name.toList.length ≤ (Text.trimRight name.toList).length := by
      calc name.toList.length
        _ = (normalName rest).length := by rw [← same, trimmed, normalName_cons_slash]
        _ ≤ ('/' :: rest).length := (normalName_sublist rest).length_le
        _ = (Text.trimRight name.toList).length := by rw [trimmed]
    have first : Text.trimRight name.toList <+: name.toList := List.rdropWhile_prefix ..
    exact unchanged.mp (first.eq_of_length_le length)
  · intro last
    rw [unchanged.mpr last, normalName_of_isNormal normal]

theorem build_of_isPackage {pkg : String} (written : IsPackage pkg) (name : List Char) :
    build home pkg.toList name = ⟨pkg, String.ofList (normalName name)⟩ := by
  obtain ⟨nonempty, _, absolute⟩ := written
  unfold build
  split
  · next empty => exact absurd (String.toList_eq_nil_iff.mp empty) nonempty
  · next slash => exact absurd (by simp [slash]) absolute
  · rw [String.ofList_toList]

theorem parse_render {path : AssetPath} (package : path.pkg = "" ∧ home = "" ∨ IsPackage path.pkg)
    (normal : IsNormal path.name) (clean : '\\' ∉ path.name.toList)
    (unbroken : '\n' ∉ path.name.toList) :
    parse home path.render =
      .ok ⟨path.pkg, String.ofList (normalName (Text.trimRight path.name.toList))⟩ := by
  have proper : ∀ c ∈ path.pkg.toList, c ≠ ':' ∧ c ≠ '\\' ∧ Text.isBlank c = false := by
    rcases package with ⟨empty, _⟩ | written
    · simp [empty]
    · exact written.2.1
  have proper' : ∀ c ∈ (path.pkg ++ ":").toList, c ≠ '\\' ∧ Text.isBlank c = false := by
    intro c member
    rcases List.mem_append.mp (String.toList_append ▸ member) with inside | colon
    · exact (proper c inside).2
    · rw [List.mem_singleton.mp colon]
      decide
  have split : canonicalText path.render =
      path.pkg.toList ++ ':' :: Text.trimRight path.name.toList := by
    rw [render, canonicalText_append _ _ normal.head?, normal.canonicalText_eq clean]
    · simp
    · exact fun c start => (proper' c (List.mem_of_head? start)).2
    · exact fun member => (proper' _ member).1 rfl
  have colon : ':' ∉ path.pkg.toList := fun member => (proper _ member).1 rfl
  rw [parse_of_marked (split ▸ not_isRoot_of_named normal.head?_trimRight) colon split, if_neg]
  · rcases package with ⟨empty, rfl⟩ | written
    · rw [empty]
      rfl
    · rw [build_of_isPackage written]
  · rintro (blank | unnamed | broken)
    · exact absurd blank (by simpa using fun c member => (proper c member).2.2)
    · exact unnamed normal.head?_trimRight
    · exact unbroken ((List.rdropWhile_prefix Text.isBlank path.name.toList).subset broken)

end AssetPath

open AssetPath

/-- Let the package `home` be empty or free of colons, blanks and backslashes, without a slash at
its start. A path that was read in it from any text is written as a text that is read as a path
again, with the same package and, but for blank characters at its end, the same name. So it is read
as itself if and only if its name does not end with a blank character. -/
theorem rendered_paths_read_back {home text : String} {path : AssetPath}
    (package : home = "" ∨ IsPackage home) (parsed : parse home text = .ok path) :
    parse home path.render =
      .ok ⟨path.pkg, String.ofList (normalName (Text.trimRight path.name.toList))⟩ ∧
    (parse home path.render = .ok path ↔
      ∀ c ∈ path.name.toList.getLast?, Text.isBlank c = false) := by
  let context : ScanContext := { file := "", package := home }
  have canonical : context.Canonical path := ScanContext.canonical_of_parse parsed
  have known : path.pkg = "" ∧ home = "" ∨ IsPackage path.pkg := by
    have own (same : path.pkg = home) : path.pkg = "" ∧ home = "" ∨ IsPackage path.pkg := by
      rcases package with empty | written
      · exact .inl ⟨same.trans empty, empty⟩
      · exact .inr (same ▸ written)
    rcases canonical.pkg with same | same | written
    · exact own same
    · exact own same
    · exact .inr written
  have read := parse_render known canonical.name canonical.backslash canonical.newline
  refine ⟨read, ?_⟩
  rw [read, ← canonical.name.normalName_trimRight_eq_iff]
  constructor
  · intro same
    have name := congrArg (·.name.toList) (Except.ok.inj same)
    rwa [String.toList_ofList] at name
  · intro same
    rw [same, String.ofList_toList]

theorem rendered_paths_read_back_cleaned :
    IsPackage "lib" ∧
    parse "lib" " other:\\a b//./c/../d:e/ " = .ok ⟨"other", "/a b/d:e"⟩ ∧
    parse "lib" "other:/a b/d:e" = .ok ⟨"other", "/a b/d:e"⟩ := by
  have package : IsPackage "lib" := ⟨by decide, by simp; decide, by decide⟩
  have parsed : parse "lib" " other:\\a b//./c/../d:e/ " = .ok ⟨"other", "/a b/d:e"⟩ := by
    decide +kernel
  exact ⟨package, parsed, (rendered_paths_read_back (.inr package) parsed).2.mpr (by simp; decide)⟩

/-- A slash after a blank is dropped when the name is cleaned, and then the blank when it is read
again. -/
theorem blank_ends_are_lost :
    IsPackage "app" ∧
    parse "app" ":/a /" = .ok ⟨"app", "/a "⟩ ∧
    (⟨"app", "/a "⟩ : AssetPath).render = "app:/a " ∧
    parse "app" "app:/a " = .ok ⟨"app", "/a"⟩ ∧
    ¬ ∀ (home text : String) (path : AssetPath), home = "" ∨ IsPackage home →
      parse home text = .ok path → parse home path.render = .ok path := by
  have package : IsPackage "app" := ⟨by decide, by simp; decide, by decide⟩
  have parsed : parse "app" ":/a /" = .ok ⟨"app", "/a "⟩ := by decide +kernel
  have written : (⟨"app", "/a "⟩ : AssetPath).render = "app:/a " := by decide
  have read : parse "app" "app:/a " = .ok ⟨"app", "/a"⟩ := by decide +kernel
  refine ⟨package, parsed, written, read, ?_⟩
  intro back
  have same := back "app" ":/a /" _ (.inr package) parsed
  rw [written, read] at same
  exact absurd same (by decide)

end AssetRefs
