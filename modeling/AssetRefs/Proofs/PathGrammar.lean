import AssetRefs.Proofs.CanonicalPaths
import Mathlib.Computability.Language
import Mathlib.Data.List.DropRight

/-! # The grammar of path texts

A path text is a package, a marker with a name after it, or both, and three more texts stand for the
root. The grammar is a pattern over letters, and reading a path decides it by the place of the first
marker: `paths_are_read_by_pattern`. A name that has no marker before it is read where a package
would be, which makes a difference for names with blanks or markers in them: see
`name_spellings_agree_iff`.
-/

open scoped Computability

namespace AssetRefs

namespace Text

/-- `core` is `text` without the blank characters at its ends. -/
structure IsTrimmed (text core : List Char) : Prop where
  whole : ∃ lead tail, text = lead ++ core ++ tail ∧
    (∀ c ∈ lead, isBlank c = true) ∧ ∀ c ∈ tail, isBlank c = true
  first : ∀ c ∈ core.head?, isBlank c = false
  last : ∀ c ∈ core.getLast?, isBlank c = false

theorem trimRight_eq_rdropWhile (chars : List Char) : trimRight chars = chars.rdropWhile isBlank :=
  rfl

theorem isTrimmed_trim (text : List Char) : IsTrimmed text (trim text) where
  whole := by
    refine ⟨text.takeWhile isBlank, (trimLeft text).rtakeWhile isBlank, ?_, ?_, ?_⟩
    · rw [List.append_assoc, trim, trimRight_eq_rdropWhile, List.rdropWhile_append_rtakeWhile,
        trimLeft, List.takeWhile_append_dropWhile]
    · exact fun c member => List.mem_takeWhile_imp member
    · exact fun c member => List.mem_rtakeWhile_imp member
  first c start := by
    have same : (trimLeft text).head? = some c := by
      obtain ⟨tail, whole⟩ := List.rdropWhile_prefix isBlank (trimLeft text)
      rw [← whole, List.head?_append, ← trimRight_eq_rdropWhile, ← trim, start, Option.some_or]
    have unblank := List.head?_dropWhile_not isBlank text
    rw [← trimLeft, same] at unblank
    exact unblank
  last c ending := by
    rw [trim, trimRight_eq_rdropWhile] at ending
    obtain ⟨nonempty, rfl⟩ := List.mem_getLast?_eq_getLast ending
    exact Bool.not_eq_true _ ▸ List.rdropWhile_last_not isBlank _ nonempty

theorem head?_trim {chars : List Char} {c : Char} (start : chars.head? = some c)
    (unblank : isBlank c = false) : (trim chars).head? = some c := by
  obtain ⟨lead, tail, whole, leading, trailing⟩ := (isTrimmed_trim chars).whole
  have visible {part : List Char} (blank : ∀ c ∈ part, isBlank c = true) : part.head? ≠ some c := by
    intro first
    rw [blank c (List.mem_of_head? first)] at unblank
    cases unblank
  rw [whole, List.head?_append, List.head?_append] at start
  simp only [Option.or_eq_some_iff, visible leading, visible trailing, false_or, and_false,
    or_false]
    at start
  exact start.2

theorem trimLeft_eq_self {chars : List Char} (first : ∀ c ∈ chars.head?, isBlank c = false) :
    trimLeft chars = chars := by
  cases chars with
  | nil => rfl
  | cons c rest => simp [trimLeft, first c rfl]

/-- Blank ends of a text are not between its parts. -/
theorem trim_append {front back : List Char} {c : Char}
    (start : ∀ c ∈ front.head?, isBlank c = false) (next : back.head? = some c)
    (unblank : isBlank c = false) : trim (front ++ back) = front ++ trim back := by
  have member : c ∈ back.reverse := List.mem_reverse.mpr (List.mem_of_head? next)
  have kept : (back.reverse.dropWhile isBlank).isEmpty = false := by
    simp only [List.isEmpty_eq_false_iff, ne_eq, List.dropWhile_eq_nil_iff, not_forall]
    exact ⟨c, member, by simp [unblank]⟩
  have right : trimRight (front ++ back) = front ++ trimRight back := by
    simp [trimRight, List.dropWhile_append, kept]
  rw [trim, trim, trimLeft_eq_self, trimLeft_eq_self, right]
  · simpa [next] using unblank
  · cases front with
    | nil => simpa [next] using unblank
    | cons c rest => simpa using start

end Text

namespace AssetPath

/-! ## Which texts are paths -/

/-- The texts that stand for the root of the package. -/
def IsRoot (chars : List Char) : Prop := chars = [] ∨ chars = [':'] ∨ chars = ['.']

/-- A text with a blank before the first marker, or with a marker that no name on one line
follows. -/
def IsMalformed (chars : List Char) : Prop :=
  (∃ c ∈ chars.takeWhile (· ≠ ':'), Text.isBlank c = true) ∨
    ∃ front back, ':' ∉ front ∧ chars = front ++ ':' :: back ∧
      (back.head? ≠ some '/' ∨ '\n' ∈ back)

/-- The words of one letter that has a property. -/
def letters (property : Char → Prop) : Language Char := {word | ∃ c, property c ∧ word = [c]}

/-- A package and a marker with a name on one line after it, both optional. As usual for patterns
that reach to the end, a line break there is left out of account. -/
def pattern : Language Char :=
  (letters fun c => c ≠ ':' ∧ Text.isBlank c = false)∗ *
    (1 + {[':', '/']} * (letters (· ≠ '\n'))∗) * (1 + {['\n']})

variable {home text : String} {chars front back : List Char}

theorem mem_kstar_letters {property : Char → Prop} {word : List Char} :
    word ∈ (letters property)∗ ↔ ∀ c ∈ word, property c := by
  rw [Language.mem_kstar]
  constructor
  · rintro ⟨words, rfl, single⟩ c member
    obtain ⟨word, listed, inside⟩ := List.mem_flatten.mp member
    obtain ⟨letter, has, rfl⟩ := single word listed
    rwa [List.mem_singleton.mp inside]
  · intro all
    refine ⟨word.map fun c => [c], by rw [← List.flatMap_def, List.flatMap_singleton'], ?_⟩
    intro single listed
    obtain ⟨c, member, rfl⟩ := List.mem_map.mp listed
    exact ⟨c, all c member, rfl⟩

theorem takeWhile_marker (colon : ':' ∉ front) :
    (front ++ ':' :: back).takeWhile (· ≠ ':') = front := by
  rw [List.takeWhile_append_of_pos]
  · simp
  · intro c member
    simpa using ne_of_mem_of_not_mem member colon

theorem takeWhile_unmarked (colon : ':' ∉ chars) : chars.takeWhile (· ≠ ':') = chars := by
  refine List.takeWhile_eq_self_iff.mpr ?_
  intro c member
  simpa using ne_of_mem_of_not_mem member colon

/-- There is one first marker. -/
theorem parts_unique {front' back' : List Char} (colon : ':' ∉ front) (colon' : ':' ∉ front')
    (same : front ++ ':' :: back = front' ++ ':' :: back') : front = front' ∧ back = back' := by
  have parts := congrArg splitMarker same
  rwa [splitMarker_append colon, splitMarker_append colon', Prod.mk.injEq,
    Option.some.injEq] at parts

theorem isMalformed_of_unmarked (colon : ':' ∉ chars) :
    IsMalformed chars ↔ ∃ c ∈ chars, Text.isBlank c = true := by
  rw [IsMalformed, takeWhile_unmarked colon]
  refine or_iff_left ?_
  rintro ⟨front, back, _, rfl, _⟩
  exact colon (by simp)

theorem isMalformed_of_marked (colon : ':' ∉ front) :
    IsMalformed (front ++ ':' :: back) ↔
      (∃ c ∈ front, Text.isBlank c = true) ∨ back.head? ≠ some '/' ∨ '\n' ∈ back := by
  rw [IsMalformed, takeWhile_marker colon]
  refine or_congr_right ⟨?_, fun bad => ⟨front, back, colon, rfl, bad⟩⟩
  rintro ⟨front', back', colon', same, bad⟩
  rwa [(parts_unique colon colon' same).2]

theorem mem_pattern_iff : chars ∈ pattern ↔ ∃ front name ending,
    (∀ c ∈ front, c ≠ ':' ∧ Text.isBlank c = false) ∧
    (name = [] ∨ ∃ line, '\n' ∉ line ∧ name = ':' :: '/' :: line) ∧
    (ending = [] ∨ ending = ['\n']) ∧ chars = front ++ name ++ ending := by
  have named (name : List Char) :
      name ∈ 1 + {[':', '/']} * (letters (· ≠ '\n'))∗ ↔
        name = [] ∨ ∃ line, '\n' ∉ line ∧ name = ':' :: '/' :: line := by
    rw [Language.mem_add, Language.mem_one, Language.mem_mul]
    refine or_congr_right ⟨?_, ?_⟩
    · rintro ⟨_, rfl, line, unbroken, rfl⟩
      exact ⟨line, fun member => mem_kstar_letters.mp unbroken _ member rfl, rfl⟩
    · rintro ⟨line, unbroken, rfl⟩
      have letters := mem_kstar_letters.mpr fun _ member => ne_of_mem_of_not_mem member unbroken
      exact ⟨_, rfl, line, letters, rfl⟩
  have ended (ending : List Char) :
      ending ∈ (1 + {['\n']} : Language Char) ↔ ending = [] ∨ ending = ['\n'] := Iff.rfl
  constructor
  · rw [pattern, Language.mem_mul]
    rintro ⟨_, ⟨front, package, name, isName, rfl⟩, ending, isEnding, rfl⟩
    exact ⟨front, name, ending, mem_kstar_letters.mp package, (named name).mp isName,
      (ended ending).mp isEnding, rfl⟩
  · rintro ⟨front, name, ending, package, isName, isEnding, rfl⟩
    exact ⟨_, ⟨front, mem_kstar_letters.mpr package, name, (named name).mpr isName, rfl⟩, ending,
      (ended ending).mpr isEnding, rfl⟩

/-- Where no blank stands at the end, the pattern has just the texts that are not malformed. -/
theorem mem_pattern_iff_not_isMalformed (last : ∀ c ∈ chars.getLast?, Text.isBlank c = false) :
    chars ∈ pattern ↔ ¬ IsMalformed chars := by
  rw [mem_pattern_iff]
  constructor
  · rintro ⟨front, name, ending, package, isName, isEnding, rfl⟩
    have colon : ':' ∉ front := fun member => (package _ member).1 rfl
    have proper : ¬ ∃ c ∈ front, Text.isBlank c = true := by
      rintro ⟨c, member, blank⟩
      exact absurd blank (by simp [(package c member).2])
    rcases isEnding with rfl | rfl
    · rcases isName with rfl | ⟨line, unbroken, rfl⟩
      · simpa [isMalformed_of_unmarked, colon] using proper
      · simpa [isMalformed_of_marked, colon, unbroken] using proper
    · exact absurd (last '\n' (by simp)) (by decide)
  · intro formed
    by_cases marked : ':' ∈ chars
    · obtain ⟨front, back, rfl, colon⟩ := List.eq_append_cons_of_mem marked
      simp only [isMalformed_of_marked colon, not_or, not_exists, not_and, not_not] at formed
      obtain ⟨proper, slash, unbroken⟩ := formed
      obtain ⟨line, rfl⟩ := List.head?_eq_some_iff.mp slash
      refine ⟨front, ':' :: '/' :: line, [], ?_, .inr ⟨line, ?_, rfl⟩, .inl rfl, by simp⟩
      · intro c member
        exact ⟨ne_of_mem_of_not_mem member colon, Bool.not_eq_true _ ▸ proper c member⟩
      · exact fun member => unbroken (List.mem_cons_of_mem _ member)
    · simp only [isMalformed_of_unmarked marked, not_exists, not_and] at formed
      refine ⟨chars, [], [], ?_, .inl rfl, .inl rfl, by simp⟩
      intro c member
      exact ⟨ne_of_mem_of_not_mem member marked, Bool.not_eq_true _ ▸ formed c member⟩

/-! ## Reading decides the grammar -/

theorem getLast?_canonicalText (text : String) :
    ∀ c ∈ (canonicalText text).getLast?, Text.isBlank c = false := by
  intro c ending
  rw [canonicalText, List.getLast?_map] at ending
  obtain ⟨original, last, rfl⟩ := Option.map_eq_some_iff.mp ending
  split_ifs
  · decide
  · exact (Text.isTrimmed_trim text.toList).last original last

theorem isRoot_iff :
    IsRoot chars ↔
      (decide (chars = []) || decide (chars = [':']) || decide (chars = ['.'])) = true := by
  simp [IsRoot, or_assoc]

theorem parse_of_isRoot (root : IsRoot (canonicalText text)) :
    parse home text = .ok ⟨home, "/"⟩ := by
  rw [parse, if_pos (isRoot_iff.mp root)]
  rfl

theorem splitMarker_of_unmarked (colon : ':' ∉ chars) : splitMarker chars = (chars, none) := by
  induction chars with
  | nil => rfl
  | cons c rest ih =>
    obtain ⟨different, colon⟩ := List.ne_and_not_mem_of_not_mem_cons colon
    rw [splitMarker, if_neg (Ne.symm different), ih colon]

theorem parse_of_unmarked (other : ¬ IsRoot (canonicalText text))
    (colon : ':' ∉ canonicalText text) :
    parse home text = if (canonicalText text).any Text.isBlank = true
      then .error (.unparsable text) else .ok (build home (canonicalText text) []) := by
  simp only [parse, if_neg (mt isRoot_iff.mpr other), splitMarker_of_unmarked colon]

theorem parse_of_marked (other : ¬ IsRoot (canonicalText text)) (colon : ':' ∉ front)
    (split : canonicalText text = front ++ ':' :: back) :
    parse home text =
      if front.any Text.isBlank = true ∨ back.head? ≠ some '/' ∨ '\n' ∈ back
        then .error (.unparsable text) else .ok (build home front back) := by
  simp only [parse, if_neg (mt isRoot_iff.mpr other)]
  simp only [split, splitMarker_append colon]
  by_cases blank : front.any Text.isBlank = true
  · rw [if_pos blank, if_pos (.inl blank)]
  · rw [if_neg blank]
    by_cases name : back.head? ≠ some '/' ∨ '\n' ∈ back
    · rw [if_neg (by simpa [imp_iff_not_or] using name), if_pos (.inr name)]
    · rw [if_pos (by simpa using name), if_neg (not_or.mpr ⟨blank, name⟩)]

/-- Apart from the root forms, what is malformed is refused and all else is read. -/
theorem parse_cases (home : String) (other : ¬ IsRoot (canonicalText text)) :
    (IsMalformed (canonicalText text) ∧ parse home text = .error (.unparsable text)) ∨
      ¬ IsMalformed (canonicalText text) ∧ ∃ path, parse home text = .ok path := by
  by_cases marked : ':' ∈ canonicalText text
  · obtain ⟨front, back, split, colon⟩ := List.eq_append_cons_of_mem marked
    rw [parse_of_marked other colon split, split, isMalformed_of_marked colon, ← List.any_eq_true]
    split_ifs with malformed
    · exact .inl ⟨malformed, rfl⟩
    · exact .inr ⟨malformed, _, rfl⟩
  · rw [parse_of_unmarked other marked, isMalformed_of_unmarked marked, ← List.any_eq_true]
    split_ifs with malformed
    · exact .inl ⟨malformed, rfl⟩
    · exact .inr ⟨malformed, _, rfl⟩

end AssetPath

open AssetPath

/-- Let `chars` be the text without the blank characters at its ends and with slashes for
backslashes. Reading fails if and only if `chars` is none of the root forms and a blank stands
before its first colon (anywhere, if there is no colon), or what follows the first colon does not
start with a slash or has a line break. It succeeds if and only if `chars` is a root form or fits
the pattern, and it can fail in one way only. -/
theorem paths_are_read_by_pattern (home text : String) :
    let chars := canonicalText text
    (∃ core, Text.IsTrimmed text.toList core ∧
      chars = core.map fun c => if c = '\\' then '/' else c) ∧
    (parse home text = .error (.unparsable text) ↔
      ¬ (chars = [] ∨ chars = [':'] ∨ chars = ['.']) ∧
      ((∃ c ∈ chars.takeWhile (· ≠ ':'), Text.isBlank c = true) ∨
        ∃ front back, ':' ∉ front ∧ chars = front ++ ':' :: back ∧
          (back.head? ≠ some '/' ∨ '\n' ∈ back))) ∧
    ((∃ path, parse home text = .ok path) ↔
      (chars = [] ∨ chars = [':'] ∨ chars = ['.']) ∨ chars ∈ pattern) ∧
    ((∃ path, parse home text = .ok path) ∨ parse home text = .error (.unparsable text)) := by
  intro chars
  refine ⟨⟨_, Text.isTrimmed_trim text.toList, rfl⟩, ?_⟩
  rw [mem_pattern_iff_not_isMalformed (getLast?_canonicalText text)]
  change (_ ↔ ¬ IsRoot chars ∧ IsMalformed chars) ∧ (_ ↔ IsRoot chars ∨ ¬ IsMalformed chars) ∧ _
  by_cases root : IsRoot chars
  · simp [parse_of_isRoot root, root]
  · rcases parse_cases home root with ⟨malformed, refused⟩ | ⟨formed, path, read⟩
    · simpa [refused, root] using malformed
    · simpa [read, root] using formed

/-! ## Names with and without the marker -/

namespace AssetPath

variable {home : String} {chars front : List Char}

theorem map_slash_of_clean (clean : '\\' ∉ chars) :
    chars.map (fun c => if c = '\\' then '/' else c) = chars := by
  have kept : chars.map (fun c => if c = '\\' then '/' else c) = chars.map id :=
    List.map_congr_left fun c member => if_neg (ne_of_mem_of_not_mem member clean)
  rw [kept, List.map_id]

theorem canonicalText_append {front back : String}
    (start : ∀ c ∈ front.toList.head?, Text.isBlank c = false) (clean : '\\' ∉ front.toList)
    (slash : back.toList.head? = some '/') :
    canonicalText (front ++ back) = front.toList ++ canonicalText back := by
  rw [canonicalText, String.toList_append, Text.trim_append start slash (by decide),
    List.map_append, map_slash_of_clean clean, canonicalText]

theorem head?_canonicalText {text : String} (slash : text.toList.head? = some '/') :
    (canonicalText text).head? = some '/' := by
  rw [canonicalText, List.head?_map, Text.head?_trim slash (by decide)]
  rfl

theorem not_isRoot_of_named {back : List Char} (slash : back.head? = some '/') :
    ¬ IsRoot (front ++ ':' :: back) := by
  obtain ⟨rest, rfl⟩ := List.head?_eq_some_iff.mp slash
  simp [IsRoot, List.append_eq_singleton_iff]

/-- A line break is blank before the marker and not allowed after it. -/
theorem isMalformed_of_newline (newline : '\n' ∈ chars) : IsMalformed chars := by
  by_cases marked : ':' ∈ chars
  · obtain ⟨front, back, rfl, colon⟩ := List.eq_append_cons_of_mem marked
    rw [isMalformed_of_marked colon]
    rcases List.mem_append.mp newline with before | after
    · exact .inl ⟨_, before, rfl⟩
    · exact .inr (.inr (List.mem_of_ne_of_mem (by decide) after))
  · rw [isMalformed_of_unmarked marked]
    exact ⟨_, newline, rfl⟩

theorem build_of_slash (slash : front.head? = some '/') (back : List Char) :
    build home front back = ⟨home, String.ofList (normalName front)⟩ := by
  obtain ⟨rest, rfl⟩ := List.head?_eq_some_iff.mp slash
  rfl

section

variable {name : String} (slash : name.toList.head? = some '/')

include slash

theorem not_isRoot_of_slash : ¬ IsRoot (canonicalText name) := by
  have start := head?_canonicalText slash
  rintro (empty | colon | dot) <;> simp_all

/-- After the marker a name is read as it is, if it has one line only. -/
theorem parse_marker_append :
    parse home (":" ++ name) = if '\n' ∈ canonicalText name then .error (.unparsable (":" ++ name))
      else .ok ⟨home, String.ofList (normalName (canonicalText name))⟩ := by
  have start := head?_canonicalText slash
  have marked : canonicalText (":" ++ name) = [] ++ ':' :: canonicalText name :=
    canonicalText_append (by simp; rfl) (by decide) slash
  rw [parse_of_marked (marked ▸ not_isRoot_of_named start) List.not_mem_nil marked]
  simp [start, build]

/-- Without the marker a name is read where a package would be. -/
theorem parse_eq_ok_iff_of_slash (newline : '\n' ∉ canonicalText name) :
    parse home name = .ok ⟨home, String.ofList (normalName (canonicalText name))⟩ ↔
      (∀ c ∈ (canonicalText name).takeWhile (· ≠ ':'), Text.isBlank c = false) ∧
      ∀ front back, ':' ∉ front → canonicalText name = front ++ ':' :: back →
        back.head? = some '/' ∧ normalName front = normalName (canonicalText name) := by
  have start := head?_canonicalText slash
  have other := not_isRoot_of_slash slash
  by_cases marked : ':' ∈ canonicalText name
  · obtain ⟨front, back, split, colon⟩ := List.eq_append_cons_of_mem marked
    have first : front.head? = some '/' := by
      cases front with
      | nil => simp [split] at start
      | cons c rest => simpa [split] using start
    have before : (canonicalText name).takeWhile (· ≠ ':') = front := split ▸ takeWhile_marker colon
    have single : '\n' ∉ back := by
      intro member
      exact newline (by simp [split, member])
    rw [parse_of_marked other colon split, build_of_slash first, before]
    constructor
    · intro read
      split_ifs at read with malformed
      simp only [not_or, List.any_eq_true, not_exists, not_and, Bool.not_eq_true,
        not_not] at malformed
      refine ⟨malformed.1, ?_⟩
      intro front' back' colon' split'
      obtain ⟨rfl, rfl⟩ := parts_unique colon colon' (split.symm.trans split')
      exact ⟨malformed.2.1, by simpa [String.ofList_inj] using read⟩
    · rintro ⟨proper, named⟩
      obtain ⟨next, same⟩ := named front back colon split
      rw [same, if_neg]
      rintro (blank | unnamed | broken)
      · exact absurd blank (by simpa using proper)
      · exact unnamed next
      · exact single broken
  · rw [parse_of_unmarked other marked, build_of_slash start, takeWhile_unmarked marked]
    constructor
    · intro read
      split_ifs at read with blank
      refine ⟨by simpa using blank, ?_⟩
      rintro front back - split
      exact absurd (by simp [split]) marked
    · rintro ⟨proper, -⟩
      exact if_neg (by simpa using proper)

end

end AssetPath

/-- Both are read as the same path, or neither is read. -/
def SameOutcome (first second : Except PathError AssetPath) : Prop :=
  (∃ path, first = .ok path ∧ second = .ok path) ∨
    ∃ error error', first = .error error ∧ second = .error error'

theorem sameOutcome_ok_iff {first : Except PathError AssetPath} {path : AssetPath} :
    SameOutcome first (.ok path) ↔ first = .ok path := by
  simp [SameOutcome]

/-- With the marker before it, a name that starts with a slash is read on one line as it is, in the
package `home`. Without the marker, it has the same outcome if and only if it has a line break, or
no blank before its first colon and, if it has a colon, a slash right after the first one and the
same normal form up to there as in whole. -/
theorem name_spellings_agree_iff (home : String) {name : String}
    (slash : name.toList.head? = some '/') :
    let chars := canonicalText name
    parse home (":" ++ name) = (if '\n' ∈ chars then .error (.unparsable (":" ++ name))
      else .ok ⟨home, String.ofList (normalName chars)⟩) ∧
    (SameOutcome (parse home name) (parse home (":" ++ name)) ↔
      '\n' ∈ chars ∨
      (∀ c ∈ chars.takeWhile (· ≠ ':'), Text.isBlank c = false) ∧
      ∀ front back, ':' ∉ front → chars = front ++ ':' :: back →
        back.head? = some '/' ∧ normalName front = normalName chars) := by
  intro chars
  refine ⟨parse_marker_append slash, ?_⟩
  rw [parse_marker_append slash]
  split_ifs with newline
  · refine iff_of_true ?_ (.inl newline)
    rcases parse_cases home (not_isRoot_of_slash slash) with ⟨_, refused⟩ | ⟨formed, _⟩
    · exact .inr ⟨_, _, refused, rfl⟩
    · exact absurd (isMalformed_of_newline newline) formed
  · rw [sameOutcome_ok_iff, parse_eq_ok_iff_of_slash slash newline, or_iff_right newline]

theorem name_spellings_agree_iff_backslashes :
    "/css\\./a.css ".toList.head? = some '/' ∧
    parse "app" ":/css\\./a.css " = .ok ⟨"app", "/css/a.css"⟩ ∧
    SameOutcome (parse "app" "/css\\./a.css ") (parse "app" ":/css\\./a.css ") := by
  have slash : "/css\\./a.css ".toList.head? = some '/' := by decide
  have chars : canonicalText "/css\\./a.css " = "/css/./a.css".toList := by decide +kernel
  have unmarked : ':' ∉ canonicalText "/css\\./a.css " := by
    rw [chars]
    decide
  obtain ⟨marked, agree⟩ := name_spellings_agree_iff "app" slash
  refine ⟨slash, ?_, agree.mpr (.inr ⟨?_, ?_⟩)⟩
  · rw [show ":/css\\./a.css " = ":" ++ "/css\\./a.css " by decide, marked, chars]
    decide +kernel
  · rw [chars, takeWhile_unmarked (chars ▸ unmarked)]
    have visible : "/css/./a.css".toList.all (!Text.isBlank ·) = true := by decide +kernel
    simpa using visible
  · rintro front back - split
    exact absurd (by simp [split]) unmarked

/-- A blank in a name is refused, and what follows a marker in it is dropped, if there is no marker
before the name. -/
theorem unmarked_names_are_refused_or_cut :
    parse "app" "/a b" = .error (.unparsable "/a b") ∧
    parse "app" ":/a b" = .ok ⟨"app", "/a b"⟩ ∧
    parse "app" "/a:/b" = .ok ⟨"app", "/a"⟩ ∧
    parse "app" ":/a:/b" = .ok ⟨"app", "/a:/b"⟩ ∧
    ¬ ∀ home name : String, name.toList.head? = some '/' →
      SameOutcome (parse home name) (parse home (":" ++ name)) := by
  have refused : parse "app" "/a b" = .error (.unparsable "/a b") := by decide +kernel
  have read : parse "app" ":/a b" = .ok ⟨"app", "/a b"⟩ := by decide +kernel
  refine ⟨refused, read, by decide +kernel, by decide +kernel, ?_⟩
  intro agree
  have same := agree "app" "/a b" (by decide)
  rw [refused, show ":" ++ "/a b" = ":/a b" by decide, read, sameOutcome_ok_iff] at same
  cases same

end AssetRefs
