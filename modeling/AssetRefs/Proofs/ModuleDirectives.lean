import AssetRefs.GoModule
import AssetRefs.Proofs.PathGrammar
import AssetRefs.Proofs.Utf8Reading
import Mathlib.Data.List.Infix
import Mathlib.Data.List.TakeWhile

/-! # Module directives

A directive declares the name of a module, perhaps in quotes and with a comment after it. A name
without quotes may have slashes in it, so there can be several places where it may end and a comment
start. The longest name is the one that is read (`exists_directiveName?`). Behind blank space or a
quote there is no choice, but a comment right after the name may be taken for a part of it
(`IsLongest.eq_iff_standsOut`).
-/

namespace AssetRefs

/-! ## Lines -/

theorem Text.linesFrom_unifyNewlines (current text : List Char) :
    linesFrom current (unifyNewlines text) = linesFrom current text := by
  induction text using unifyNewlines.induct generalizing current with
  | case1 rest ih => simp [unifyNewlines, linesFrom, isLineBreak, ih]
  | case2 rest single ih =>
    rw [unifyNewlines, linesFrom, linesFrom, ih]
    · simp [isLineBreak]
    · exact fun _ _ => single _
    · exact fun _ same => absurd same (by decide)
    · exact single
  | case3 c rest single other ih =>
    rw [unifyNewlines, linesFrom, linesFrom, ih, ih]
    · exact single
    · exact fun _ same => absurd same other
    · exact single
    · exact other
  | case4 => rfl

namespace GoModule

/-! ## Marks -/

/-- What may follow a name: blank space and perhaps a comment. -/
def Ends (after : List Char) : Prop :=
  ∃ space tail, after = space ++ tail ∧ (∀ c ∈ space, Text.isBlank c = true) ∧
    (tail = [] ∨ ['/', '/'] <+: tail)

theorem endsDirective_iff {after : List Char} : endsDirective after = true ↔ Ends after := by
  unfold endsDirective Text.trimLeft
  constructor
  · intro ends
    refine ⟨after.takeWhile Text.isBlank, after.dropWhile Text.isBlank,
      List.takeWhile_append_dropWhile.symm, fun _ => List.mem_takeWhile_imp, ?_⟩
    split at ends
    · next none => exact .inl none
    · next back marked => exact .inr ⟨back, marked.symm⟩
    · cases ends
  · rintro ⟨space, tail, rfl, blank, rfl | ⟨back, rfl⟩⟩
    · rw [List.dropWhile_append_of_pos blank]
      rfl
    · rw [List.dropWhile_append_of_pos blank]
      rfl

instance (after : List Char) : Decidable (Ends after) := decidable_of_iff _ endsDirective_iff

theorem not_infix_of_beforeComment? {chars : List Char} (none : beforeComment? chars = none) :
    ¬ ['/', '/'] <:+: chars := by
  induction chars with
  | nil => simp
  | cons c rest ih =>
    rw [beforeComment?] at none
    split at none
    · cases none
    · next clean =>
      split_ifs at none with marked
      rw [List.infix_cons_iff, not_or]
      refine ⟨?_, ih clean⟩
      rintro ⟨more, whole⟩
      obtain ⟨rfl, rfl⟩ := List.cons.inj whole
      simp at marked

/-- The mark that is found is the last one. -/
theorem eq_append_of_beforeComment? {chars front : List Char}
    (found : beforeComment? chars = some front) :
    ∃ back, chars = front ++ '/' :: '/' :: back ∧ ¬ ['/', '/'] <:+: '/' :: back := by
  induction chars generalizing front with
  | nil => cases found
  | cons c rest ih =>
    rw [beforeComment?] at found
    split at found
    · next inner later =>
      cases found
      obtain ⟨back, rfl, last⟩ := ih later
      exact ⟨back, rfl, last⟩
    · next clean =>
      split_ifs at found with marked
      cases found
      simp only [Bool.and_eq_true, decide_eq_true_eq] at marked
      obtain ⟨rfl, start⟩ := marked
      obtain ⟨back, rfl⟩ := List.head?_eq_some_iff.mp start
      exact ⟨back, rfl, not_infix_of_beforeComment? clean⟩

/-- What stands before a mark does not reach beyond the last one. -/
theorem prefix_of_last_mark {front back other more : List Char}
    (same : front ++ '/' :: '/' :: back = other ++ '/' :: '/' :: more)
    (last : ¬ ['/', '/'] <:+: '/' :: back) : other <+: front := by
  rcases List.append_eq_append_iff.mp same with ⟨further, rfl, rest⟩ | ⟨further, rfl, _⟩
  · cases further with
    | nil => simp
    | cons c further =>
      refine absurd ⟨further, more, ?_⟩ last
      simpa using (List.cons.inj rest).2.symm
  · exact List.prefix_append ..

/-! ## Readings -/

/-- A text starts with a name that a directive may have there. -/
structure IsReading (body name : List Char) : Prop where
  nonempty : name ≠ []
  chars : ∀ c ∈ name, isNameChar c = true
  ends : ∃ after, body = name ++ after ∧ Ends after

/-- The longest name that a directive may have. -/
structure IsLongest (body name : List Char) : Prop where
  reading : IsReading body name
  longest : ∀ other, IsReading body other → other <+: name

section

variable {body name other : List Char}

theorem isNameChar_iff {c : Char} : isNameChar c = true ↔ c ≠ '"' ∧ Text.isBlank c = false := by
  simp [isNameChar]

theorem IsReading.prefix_takeWhile (reading : IsReading body name) :
    name <+: body.takeWhile isNameChar := by
  obtain ⟨after, rfl, _⟩ := reading.ends
  rw [List.takeWhile_append_of_pos reading.chars]
  exact List.prefix_append ..

theorem isReading_takeWhile (nonempty : body.takeWhile isNameChar ≠ [])
    (ends : Ends (body.dropWhile isNameChar)) : IsReading body (body.takeWhile isNameChar) :=
  ⟨nonempty, fun _ => List.mem_takeWhile_imp, _, List.takeWhile_append_dropWhile.symm, ends⟩

/-- If no end follows the first word of the text, names stop at the marks in this word. -/
theorem isReading_iff_of_not_ends (continued : ¬ Ends (body.dropWhile isNameChar)) :
    IsReading body name ↔
      name ≠ [] ∧ ∃ back, body.takeWhile isNameChar = name ++ '/' :: '/' :: back := by
  constructor
  · rintro ⟨nonempty, chars, after, rfl, space, tail, rfl, blank, ending⟩
    rw [List.takeWhile_append_of_pos chars]
    rw [List.dropWhile_append_of_pos chars] at continued
    refine ⟨nonempty, ?_⟩
    cases space with
    | cons c space =>
      refine absurd ⟨c :: space, tail, ?_, blank, ending⟩ continued
      rw [List.cons_append, List.dropWhile_cons_of_neg]
      simp [isNameChar_iff, blank c List.mem_cons_self]
    | nil =>
      rcases ending with rfl | ⟨back, rfl⟩
      · exact absurd ⟨[], [], rfl, List.forall_mem_nil _, .inl rfl⟩ continued
      · exact ⟨back.takeWhile isNameChar, by simp [isNameChar, Text.isBlank]⟩
  · rintro ⟨nonempty, back, word⟩
    refine ⟨nonempty, fun c member => ?_, '/' :: '/' :: back ++ body.dropWhile isNameChar, ?_, ?_⟩
    · exact List.mem_takeWhile_imp (word ▸ List.mem_append_left _ member)
    · rw [← List.append_assoc, ← word, List.takeWhile_append_dropWhile]
    · exact ⟨[], _, rfl, List.forall_mem_nil _, .inr ⟨_, rfl⟩⟩

/-- Where there is a name, the longest one is read. -/
theorem exists_directiveName? (unquoted : body.head? ≠ some '"') (reading : IsReading body other) :
    ∃ name, directiveName? body = some name ∧ IsLongest body name := by
  have word : body.takeWhile isNameChar ≠ [] := by
    intro none
    have short := reading.prefix_takeWhile
    rw [none, List.prefix_nil] at short
    exact reading.nonempty short
  unfold directiveName?
  split
  · simp at unquoted
  · simp only [List.isEmpty_iff, word, ↓reduceIte]
    split_ifs with ends
    · exact ⟨_, rfl, isReading_takeWhile word (endsDirective_iff.mp ends),
        fun _ => IsReading.prefix_takeWhile⟩
    · -- Every name ends at a mark in the first word, so the last mark gives the longest name.
      have marked (name : List Char) : IsReading body name ↔
          name ≠ [] ∧ ∃ back, body.takeWhile isNameChar = name ++ '/' :: '/' :: back :=
        isReading_iff_of_not_ends (ends ∘ endsDirective_iff.mpr)
      obtain ⟨nonempty, more, split⟩ := (marked _).mp reading
      cases found : beforeComment? (body.takeWhile isNameChar) with
      | none => exact absurd ⟨other, more, by simp [split]⟩ (not_infix_of_beforeComment? found)
      | some front =>
        obtain ⟨back, whole, last⟩ := eq_append_of_beforeComment? found
        have longest (name : List Char) (reading : IsReading body name) : name <+: front := by
          obtain ⟨_, more, split⟩ := (marked _).mp reading
          exact prefix_of_last_mark (whole.symm.trans split) last
        cases front with
        | nil => exact absurd (List.prefix_nil.mp (longest other reading)) nonempty
        | cons c front =>
          exact ⟨_, rfl, (marked _).mpr ⟨List.cons_ne_nil _ _, back, whole⟩, longest⟩

theorem directiveName?_of_quoted {after : List Char} (nonempty : name ≠ [])
    (chars : ∀ c ∈ name, isNameChar c = true) (ends : Ends after) :
    directiveName? ('"' :: name ++ '"' :: after) = some name := by
  have stop : isNameChar '"' = false := by decide
  rw [List.cons_append, directiveName?, List.takeWhile_append_of_pos chars,
    List.dropWhile_append_of_pos chars]
  simp [stop, nonempty, endsDirective_iff.mpr ends]

end

/-! ## Directives -/

/-- A line starts with the keyword of a directive. -/
def StartsDirective (line : List Char) : Prop :=
  ∃ lead c rest, line = lead ++ "module".toList ++ c :: rest ∧
    (∀ c ∈ lead, Text.isBlank c = true) ∧ Text.isBlank c = true

theorem trimLeft_keyword {lead : List Char} (blank : ∀ c ∈ lead, Text.isBlank c = true)
    (rest : List Char) :
    Text.trimLeft (lead ++ "module".toList ++ rest) =
      'm' :: 'o' :: 'd' :: 'u' :: 'l' :: 'e' :: rest := by
  rw [Text.trimLeft, List.append_assoc, List.dropWhile_append_of_pos blank]
  rfl

theorem startsDirective_of_lineName? {line name : List Char} (read : lineName? line = some name) :
    StartsDirective line := by
  unfold lineName? Text.trimLeft at read
  split at read
  · next c rest keyword =>
    split_ifs at read with blank
    refine ⟨line.takeWhile Text.isBlank, c, rest, ?_, fun _ => List.mem_takeWhile_imp, blank⟩
    conv_lhs => rw [← List.takeWhile_append_dropWhile (p := Text.isBlank) (l := line), keyword]
    simp
  · cases read

/-- A directive that declares a module, as it stands on its line. -/
structure Directive where
  lead : List Char
  gap : List Char
  name : List Char
  quoted : Bool
  space : List Char
  comment : Option (List Char)
  blank : ∀ c ∈ lead ++ gap ++ space, Text.isBlank c = true
  apart : gap ≠ []
  named : name ≠ []
  chars : ∀ c ∈ name, isNameChar c = true

namespace Directive

/-- What follows the name, or the quote behind it. -/
def ending (directive : Directive) : List Char :=
  directive.space ++ directive.comment.elim [] fun comment => '/' :: '/' :: comment

/-- What follows the keyword and the blank space behind it. -/
def body (directive : Directive) : List Char :=
  if directive.quoted then '"' :: directive.name ++ '"' :: directive.ending
  else directive.name ++ directive.ending

/-- The whole line. -/
def line (directive : Directive) : List Char :=
  directive.lead ++ "module".toList ++ directive.gap ++ directive.body

variable (directive : Directive)

theorem ends_ending : Ends directive.ending := by
  refine ⟨_, _, rfl, fun c member => directive.blank c (List.mem_append_right _ member), ?_⟩
  cases directive.comment with
  | none => exact .inl rfl
  | some comment => exact .inr ⟨comment, rfl⟩

theorem isReading : IsReading (directive.name ++ directive.ending) directive.name :=
  ⟨directive.named, directive.chars, _, rfl, directive.ends_ending⟩

theorem isNameChar_head? :
    ∀ c ∈ (directive.name ++ directive.ending).head?, isNameChar c = true := by
  obtain ⟨c, rest, start⟩ := List.exists_cons_of_ne_nil directive.named
  have plain := directive.chars c (by simp [start])
  simpa [start] using plain

theorem isBlank_head?_body : ∀ c ∈ directive.body.head?, Text.isBlank c = false := by
  intro c first
  unfold body at first
  split_ifs at first with quoted
  · cases first
    decide
  · exact (isNameChar_iff.mp (directive.isNameChar_head? c first)).2

theorem lineName?_line : lineName? directive.line = directiveName? directive.body := by
  obtain ⟨c, gap, between⟩ := List.exists_cons_of_ne_nil directive.apart
  have blank := directive.blank
  simp only [between, List.forall_mem_append, List.forall_mem_cons] at blank
  obtain ⟨⟨lead, first, others⟩, _⟩ := blank
  rw [lineName?, line, between, List.append_assoc, trimLeft_keyword lead, List.cons_append]
  simp only [first, ↓reduceIte]
  rw [Text.trimLeft, List.dropWhile_append_of_pos others]
  exact congrArg directiveName? (Text.trimLeft_eq_self directive.isBlank_head?_body)

end Directive

/-! ## Comments right after a name -/

/-- A comment that is not taken for a part of the name right before it: its first word has no mark
in it, and no end follows this word. -/
@[mk_iff] structure StandsOut (comment : List Char) : Prop where
  unmarked : ¬ ['/', '/'] <:+: '/' :: comment.takeWhile isNameChar
  continued : ¬ Ends (comment.dropWhile isNameChar)

instance (comment : List Char) : Decidable (StandsOut comment) :=
  decidable_of_iff _ (standsOut_iff comment).symm

section

variable {name longest : List Char}

theorem IsLongest.eq_of_stop {after : List Char} (read : IsLongest (name ++ after) longest)
    (reading : IsReading (name ++ after) name) (stop : after.takeWhile isNameChar = []) :
    longest = name := by
  have most := read.reading.prefix_takeWhile
  rw [List.takeWhile_append_of_pos reading.chars, stop, List.append_nil] at most
  exact most.eq_of_length_le (read.longest name reading).length_le

theorem IsLongest.eq_iff_standsOut {comment : List Char}
    (read : IsLongest (name ++ '/' :: '/' :: comment) longest)
    (reading : IsReading (name ++ '/' :: '/' :: comment) name) :
    longest = name ↔ StandsOut comment := by
  have slash : isNameChar '/' = true := by decide
  have word : (name ++ '/' :: '/' :: comment).takeWhile isNameChar =
      name ++ '/' :: '/' :: comment.takeWhile isNameChar := by
    simp [List.takeWhile_append_of_pos reading.chars, slash]
  have rest : (name ++ '/' :: '/' :: comment).dropWhile isNameChar =
      comment.dropWhile isNameChar := by
    simp [List.dropWhile_append_of_pos reading.chars, slash]
  constructor
  · -- Without an end after the word, a further mark in it is where a longer name ends.
    rintro rfl
    have not_longer (more : List Char) :
        ¬ IsReading (longest ++ '/' :: '/' :: comment) (longest ++ '/' :: more) := by
      intro other
      simpa using (read.longest _ other).length_le
    have continued : ¬ Ends (comment.dropWhile isNameChar) := by
      intro ends
      rw [← rest] at ends
      have whole := isReading_takeWhile (by simp [word]) ends
      rw [word] at whole
      exact not_longer _ whole
    refine ⟨?_, continued⟩
    rintro ⟨front, back, marked⟩
    rw [← rest] at continued
    apply not_longer front
    rw [isReading_iff_of_not_ends continued, word, ← marked]
    exact ⟨by simp, back, by simp⟩
  · rintro ⟨unmarked, continued⟩
    rw [← rest] at continued
    obtain ⟨_, more, split⟩ := (isReading_iff_of_not_ends continued).mp read.reading
    have shorter := prefix_of_last_mark (word.symm.trans split) unmarked
    exact shorter.eq_of_length_le (read.longest name reading).length_le

theorem Directive.eq_name_iff {directive : Directive}
    (read : IsLongest (directive.name ++ directive.ending) longest) :
    longest = directive.name ↔
      directive.space ≠ [] ∨ ∀ comment ∈ directive.comment, StandsOut comment := by
  have reading := directive.isReading
  have blank := directive.blank
  unfold Directive.ending at read reading
  cases space : directive.space with
  | cons c more =>
    have stop : isNameChar c = false := by
      simp [isNameChar, blank c (by simp [space])]
    have same := read.eq_of_stop reading (by simp [space, stop])
    simp [same]
  | nil =>
    cases comment : directive.comment with
    | none =>
      have same := read.eq_of_stop reading (by simp [space, comment])
      simp [same]
    | some comment =>
      simp only [space, comment, List.nil_append, Option.elim_some] at read reading
      simpa using read.eq_iff_standsOut reading

end

/-- A directive is read; without quotes, the longest name is read. -/
theorem Directive.exists_directiveName?_body (directive : Directive) :
    ∃ name, directiveName? directive.body = some name ∧
      (directive.quoted = true → name = directive.name) ∧
      (directive.quoted = false → IsLongest directive.body name) := by
  cases quoted : directive.quoted with
  | true =>
    refine ⟨directive.name, ?_, fun _ => rfl, nofun⟩
    rw [body, if_pos quoted]
    exact directiveName?_of_quoted directive.named directive.chars directive.ends_ending
  | false =>
    have unquoted : directive.body = directive.name ++ directive.ending := by simp [body, quoted]
    have start : directive.body.head? ≠ some '"' := by
      intro quote
      rw [unquoted] at quote
      exact (isNameChar_iff.mp (directive.isNameChar_head? _ quote)).1 rfl
    obtain ⟨name, read, longest⟩ := exists_directiveName? start (unquoted ▸ directive.isReading)
    exact ⟨name, read, nofun, fun _ => longest⟩

/-! ## Module files -/

theorem readName_of_lineName? {disk : Disk} {path text : String} {before after : List (List Char)}
    {line name : List Char} (content : disk.read path = .ok text.toUTF8)
    (split : Text.lines text.toList = before ++ line :: after)
    (first : ∀ line ∈ before, ¬ StartsDirective line) (read : lineName? line = some name) :
    readName disk path = .ok (String.ofList name) := by
  have none : before.findSome? lineName? = none := by
    rw [List.findSome?_eq_none_iff]
    intro line member
    rw [Option.eq_none_iff_forall_not_mem]
    intro name read
    exact first line member (startsDirective_of_lineName? read)
  have found : nameIn? text.toList = some (String.ofList name) := by
    rw [nameIn?, Text.lines, Text.linesFrom_unifyNewlines, ← Text.lines, split,
      List.findSome?_append, none, List.findSome?_cons, read]
    rfl
  simp only [readName, content, Text.Utf8.decode?_toUTF8, found]

end GoModule

open GoModule

/-- The first directive of a module file is read, whatever the other lines are. Without quotes the
longest name is read. So this is the name that the directive declares unless a comment right after
it, without a quote or blank space between, looks like a part of the name. -/
theorem directives_are_read_unless_comments_adjoin (disk : Disk) {path text : String}
    (directive : Directive) {before after : List (List Char)}
    (content : disk.read path = .ok text.toUTF8)
    (split : Text.lines text.toList = before ++ directive.line :: after)
    (first : ∀ line ∈ before, ¬ StartsDirective line) :
    ∃ name, readName disk path = .ok (String.ofList name) ∧
      (directive.quoted = false → IsLongest directive.body name) ∧
      (name = directive.name ↔ directive.quoted = true ∨ directive.space ≠ [] ∨
        ∀ comment ∈ directive.comment, StandsOut comment) := by
  obtain ⟨name, read, whole, longest⟩ := directive.exists_directiveName?_body
  have returned : readName disk path = .ok (String.ofList name) :=
    readName_of_lineName? content split first (directive.lineName?_line.trans read)
  refine ⟨name, returned, longest, ?_⟩
  cases quoted : directive.quoted with
  | true => simp [whole quoted]
  | false =>
    have read := longest quoted
    rw [Directive.body, if_neg (by simp [quoted])] at read
    simpa using Directive.eq_name_iff read

/-- A folder with a module file. -/
def moduleFileDisk (text : String) : Disk where
  root := .folder [(fileName, .file text.toUTF8)]

theorem read_moduleFileDisk (text : String) :
    (moduleFileDisk text).read fileName = .ok text.toUTF8 :=
  rfl

/-- A directive with a comment right after the name. -/
def adjoiningDirective (comment : String) : Directive where
  lead := []
  gap := [' ']
  name := "example.com/app".toList
  quoted := false
  space := []
  comment := some comment.toList
  blank := List.all_eq_true.mp (by decide)
  apart := by simp
  named := by simp
  chars := List.all_eq_true.mp (by decide)

/-- A comment that starts with a blank stands out, even right after the name. -/
theorem directives_are_read_unless_comments_adjoin_spaced :
    readName (moduleFileDisk "// module\r\nmodule example.com/app// main\nmodule other") fileName =
      .ok "example.com/app" := by
  have split : Text.lines "// module\r\nmodule example.com/app// main\nmodule other".toList =
      ["// module".toList] ++ (adjoiningDirective " main").line :: ["module other".toList] := by
    decide +kernel
  have first : ∀ line ∈ ["// module".toList], ¬ StartsDirective line := by
    rw [List.forall_mem_singleton]
    rintro ⟨lead, c, rest, same, blank, _⟩
    have trimmed := congrArg (List.head? ∘ Text.trimLeft) same
    simp only [Function.comp_apply, trimLeft_keyword blank, List.head?_cons] at trimmed
    exact absurd trimmed (by decide)
  have apart : StandsOut " main".toList := by decide
  obtain ⟨name, read, _, same⟩ := directives_are_read_unless_comments_adjoin
    _ (adjoiningDirective " main") (read_moduleFileDisk _) split first
  rw [read, same.mpr (.inr (.inr (by simpa [adjoiningDirective] using apart)))]
  rfl

/-- A word that adjoins the name in a comment is read as a part of the name. -/
theorem adjoining_words_are_read_as_names :
    readName (moduleFileDisk "module example.com/app//comment\n") fileName =
      .ok "example.com/app//comment" ∧
    ¬ ∀ (disk : Disk) (path text : String) (directive : Directive)
      (before after : List (List Char)), disk.read path = .ok text.toUTF8 →
        Text.lines text.toList = before ++ directive.line :: after →
        (∀ line ∈ before, ¬ StartsDirective line) →
        ¬ ['/', '/'] <:+: directive.name → directive.name.getLast? ≠ some '/' →
          readName disk path = .ok (String.ofList directive.name) := by
  have read : readName (moduleFileDisk "module example.com/app//comment\n") fileName =
      .ok "example.com/app//comment" := by
    decide +kernel
  refine ⟨read, ?_⟩
  intro named
  have given := named _ _ _ (adjoiningDirective "comment") [] []
    (read_moduleFileDisk "module example.com/app//comment\n") (by decide +kernel) (by simp)
    (by decide) (by decide)
  rw [read] at given
  exact absurd given (by decide +kernel)

end AssetRefs
