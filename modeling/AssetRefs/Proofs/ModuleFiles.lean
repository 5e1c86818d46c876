import AssetRefs.PackageScan
import AssetRefs.Proofs.ImportPaths
import AssetRefs.Proofs.ModuleDirectives
import AssetRefs.Proofs.PackageScans

/-! # Modules in a file tree

A folder belongs to the nearest module at or above it (`root?_eq_some_iff`). The file of a module is
usable if it can be read, is UTF-8 and has a directive (`readName_eq_ok_iff`); otherwise the error
tells which of these is wrong with it (`readName_eq_error_iff`). Together they say what the module
of a folder is resolved to: see `PackageScan.moduleOf_eq_ok_iff`.
-/

namespace AssetRefs

namespace GoModule

/-! ## Directives on lines -/

/-- The line is a directive. -/
def IsDirective (line : List Char) : Prop := ∃ directive : Directive, directive.line = line

/-- The line is a directive with the given name; without quotes, it is the longest that the line may
have. -/
def Declares (line name : List Char) : Prop :=
  ∃ directive : Directive, directive.line = line ∧ directive.name = name ∧
    (directive.quoted = false → IsLongest directive.body name)

theorem Ends.exists_comment {after : List Char} (ends : Ends after) :
    ∃ (space : List Char) (comment : Option (List Char)),
      (∀ c ∈ space, Text.isBlank c = true) ∧
      after = space ++ comment.elim [] fun comment => '/' :: '/' :: comment := by
  obtain ⟨space, tail, rfl, blank, rfl | ⟨comment, rfl⟩⟩ := ends
  · exact ⟨space, none, blank, rfl⟩
  · exact ⟨space, some comment, blank, rfl⟩

/-- What is read from the body of a directive is a name that it may have. -/
theorem isReading_of_directiveName? {body name : List Char} (unquoted : body.head? ≠ some '"')
    (read : directiveName? body = some name) : IsReading body name := by
  unfold directiveName? at read
  split at read
  · simp at unquoted
  · dsimp only at read
    split_ifs at read with empty ends
    · cases read
      exact isReading_takeWhile (by simpa using empty) (endsDirective_iff.mp ends)
    · have continued : ¬ Ends (body.dropWhile isNameChar) := mt endsDirective_iff.mpr ends
      split at read
      · next first front found =>
        cases read
        obtain ⟨back, whole, _⟩ := eq_append_of_beforeComment? found
        exact (isReading_iff_of_not_ends continued).mpr ⟨List.cons_ne_nil _ _, back, whole⟩
      · cases read

theorem quoted_of_directiveName? {rest name : List Char}
    (read : directiveName? ('"' :: rest) = some name) :
    ∃ after, rest = name ++ '"' :: after ∧ name ≠ [] ∧ (∀ c ∈ name, isNameChar c = true) ∧
      Ends after := by
  simp only [directiveName?] at read
  split at read
  · next after closed =>
    split_ifs at read with sound
    cases read
    simp only [Bool.and_eq_true, Bool.not_eq_true', List.isEmpty_eq_false_iff] at sound
    refine ⟨after, ?_, sound.1, fun _ => List.mem_takeWhile_imp, endsDirective_iff.mp sound.2⟩
    rw [← closed, List.takeWhile_append_dropWhile]
  · cases read

theorem IsLongest.unique {body name other : List Char} (longest : IsLongest body name)
    (longestOther : IsLongest body other) : name = other :=
  (longestOther.longest name longest.reading).eq_of_length_le
    (longest.longest other longestOther.reading).length_le

/-- A text that a name is read from is the body of a directive. -/
theorem exists_directive_of_directiveName? {lead gap body name : List Char}
    (blank : ∀ c ∈ lead ++ gap, Text.isBlank c = true) (apart : gap ≠ [])
    (read : directiveName? body = some name) :
    ∃ directive : Directive, directive.lead = lead ∧ directive.gap = gap ∧ directive.body = body ∧
      directive.name = name ∧ (directive.quoted = false → IsLongest body name) := by
  have blanks {space : List Char} (more : ∀ c ∈ space, Text.isBlank c = true) :
      ∀ c ∈ lead ++ gap ++ space, Text.isBlank c = true :=
    List.forall_mem_append.mpr ⟨blank, more⟩
  by_cases quote : body.head? = some '"'
  · obtain ⟨rest, rfl⟩ := List.head?_eq_some_iff.mp quote
    obtain ⟨after, rfl, named, chars, ends⟩ := quoted_of_directiveName? read
    obtain ⟨space, comment, more, rfl⟩ := ends.exists_comment
    exact ⟨⟨lead, gap, name, true, space, comment, blanks more, apart, named, chars⟩, rfl, rfl, rfl,
      rfl, nofun⟩
  · have reading := isReading_of_directiveName? quote read
    obtain ⟨longest, readAgain, isLongest⟩ := exists_directiveName? quote reading
    obtain rfl := Option.some_inj.mp (read.symm.trans readAgain)
    obtain ⟨after, rfl, ends⟩ := reading.ends
    obtain ⟨space, comment, more, rfl⟩ := ends.exists_comment
    exact ⟨⟨lead, gap, name, false, space, comment, blanks more, apart, reading.nonempty,
      reading.chars⟩, rfl, rfl, rfl, rfl, fun _ => isLongest⟩

/-- A line declares the name that is read from it. -/
theorem lineName?_eq_some_iff {line name : List Char} :
    lineName? line = some name ↔ Declares line name := by
  constructor
  · intro read
    obtain ⟨lead, c, rest, rfl, blankLead, blank⟩ := startsDirective_of_lineName? read
    rw [lineName?, trimLeft_keyword blankLead] at read
    simp only [blank, ↓reduceIte] at read
    have blanks : ∀ other ∈ lead ++ c :: rest.takeWhile Text.isBlank, Text.isBlank other = true :=
      List.forall_mem_append.mpr
        ⟨blankLead, List.forall_mem_cons.mpr ⟨blank, fun _ => List.mem_takeWhile_imp⟩⟩
    obtain ⟨directive, sameLead, sameGap, sameBody, named, longest⟩ :=
      exists_directive_of_directiveName? blanks (List.cons_ne_nil _ _) read
    refine ⟨directive, ?_, named, sameBody ▸ longest⟩
    rw [Directive.line, sameLead, sameGap, sameBody, Text.trimLeft]
    simp
  · rintro ⟨directive, rfl, rfl, longest⟩
    obtain ⟨name, read, whole, longestName⟩ := directive.exists_directiveName?_body
    rw [directive.lineName?_line, read, Option.some_inj]
    cases quoted : directive.quoted with
    | true => exact whole quoted
    | false => exact (longestName quoted).unique (longest quoted)

theorem lineName?_eq_none_iff {line : List Char} : lineName? line = none ↔ ¬ IsDirective line := by
  constructor
  · rintro none ⟨directive, rfl⟩
    obtain ⟨name, read, _⟩ := directive.exists_directiveName?_body
    rw [directive.lineName?_line, read] at none
    cases none
  · intro other
    rw [Option.eq_none_iff_forall_ne_some]
    intro name read
    obtain ⟨directive, same, _⟩ := lineName?_eq_some_iff.mp read
    exact other ⟨directive, same⟩

/-! ## Module files -/

/-- The bytes are UTF-8, and their first directive has the given name. -/
def Declared (content : ByteArray) (name : String) : Prop :=
  ∃ (text : String) (before after : List (List Char)) (line : List Char),
    content = text.toUTF8 ∧ Text.lines text.toList = before ++ line :: after ∧
      (∀ earlier ∈ before, ¬ IsDirective earlier) ∧ Declares line name.toList

/-- What is wrong with a module file: it cannot be read, it is not UTF-8, or no line of it is a
directive. -/
inductive Flawed (disk : Disk) (path : String) : ModuleError → Prop where
  | unreadable {error : FileError} (failed : disk.read path = .error error) :
      Flawed disk path (.unreadable path error)
  | notText {content : ByteArray} (read : disk.read path = .ok content)
      (garbled : ∀ text : String, content ≠ text.toUTF8) : Flawed disk path (.notText path)
  | noDirective {text : String} (read : disk.read path = .ok text.toUTF8)
      (undirected : ∀ line ∈ Text.lines text.toList, ¬ IsDirective line) :
      Flawed disk path (.noDirective path)

theorem nameIn?_eq_some_iff {text : List Char} {name : String} :
    nameIn? text = some name ↔ ∃ before line after, Text.lines text = before ++ line :: after ∧
      (∀ earlier ∈ before, ¬ IsDirective earlier) ∧ Declares line name.toList := by
  simp only [nameIn?, Text.lines, Text.linesFrom_unifyNewlines, Option.map_eq_some_iff,
    List.findSome?_eq_some_iff, lineName?_eq_some_iff, lineName?_eq_none_iff]
  constructor
  · rintro ⟨chars, ⟨before, line, after, split, declares, earlier⟩, rfl⟩
    exact ⟨before, line, after, split, earlier, by rwa [String.toList_ofList]⟩
  · rintro ⟨before, line, after, split, earlier, declares⟩
    exact ⟨name.toList, ⟨before, line, after, split, declares, earlier⟩, String.ofList_toList⟩

theorem nameIn?_eq_none_iff {text : List Char} :
    nameIn? text = none ↔ ∀ line ∈ Text.lines text, ¬ IsDirective line := by
  simp only [nameIn?, Text.lines, Text.linesFrom_unifyNewlines, Option.map_eq_none_iff,
    List.findSome?_eq_none_iff, lineName?_eq_none_iff]

section

variable {disk : Disk} {path : String}

theorem readName_eq_of_declared {content : ByteArray} {name : String}
    (read : disk.read path = .ok content) (declared : Declared content name) :
    readName disk path = .ok name := by
  obtain ⟨text, before, after, line, rfl, declares⟩ := declared
  have found := nameIn?_eq_some_iff.mpr ⟨before, line, after, declares⟩
  simp only [readName, read, Text.Utf8.decode?_toUTF8, found]

theorem readName_eq_of_flawed {error : ModuleError} (flawed : Flawed disk path error) :
    readName disk path = .error error := by
  cases flawed with
  | unreadable failed => simp only [readName, failed]
  | notText read garbled => simp only [readName, read, Text.Utf8.decode?_eq_none_iff.mpr garbled]
  | noDirective read undirected =>
    simp only [readName, read, Text.Utf8.decode?_toUTF8, nameIn?_eq_none_iff.mpr undirected]

/-- A module file is usable, or there is something wrong with it. -/
theorem declared_or_flawed (disk : Disk) (path : String) :
    (∃ content name, disk.read path = .ok content ∧ Declared content name) ∨
      ∃ error, Flawed disk path error := by
  cases read : disk.read path with
  | error => exact .inr ⟨_, .unreadable read⟩
  | ok content =>
    by_cases garbled : ∀ text : String, content ≠ text.toUTF8
    · exact .inr ⟨_, .notText read garbled⟩
    · push Not at garbled
      obtain ⟨text, rfl⟩ := garbled
      cases named : nameIn? text.toList with
      | none => exact .inr ⟨_, .noDirective read (nameIn?_eq_none_iff.mp named)⟩
      | some name =>
        obtain ⟨before, line, after, declares⟩ := nameIn?_eq_some_iff.mp named
        exact .inl ⟨_, name, rfl, text, before, after, line, rfl, declares⟩

theorem readName_eq_ok_iff {name : String} :
    readName disk path = .ok name ↔ ∃ content, disk.read path = .ok content ∧
      Declared content name := by
  constructor
  · intro given
    rcases declared_or_flawed disk path with ⟨content, other, read, declared⟩ | ⟨error, flawed⟩
    · obtain rfl := Except.ok.inj (given.symm.trans (readName_eq_of_declared read declared))
      exact ⟨content, read, declared⟩
    · cases given.symm.trans (readName_eq_of_flawed flawed)
  · rintro ⟨content, read, declared⟩
    exact readName_eq_of_declared read declared

theorem readName_eq_error_iff {error : ModuleError} :
    readName disk path = .error error ↔ Flawed disk path error := by
  constructor
  · intro given
    rcases declared_or_flawed disk path with ⟨content, name, read, declared⟩ | ⟨other, flawed⟩
    · cases given.symm.trans (readName_eq_of_declared read declared)
    · obtain rfl := Except.error.inj (given.symm.trans (readName_eq_of_flawed flawed))
      exact flawed
  · exact readName_eq_of_flawed

end

/-! ## Folders of modules -/

/-- The folder that a search for a module starts from; a file stands for its folder. -/
def folderFor (disk : Disk) (start : Location) : Location :=
  if disk.hasFile start then start.tail else start

/-- The folder of a module at or above a place, and there is no other one on the way up to it. -/
structure Nearest (disk : Disk) (start root : Location) : Prop where
  above : root <:+ folderFor disk start
  marked : disk.hasFile (fileName :: root) = true
  lowest : ∀ folder, folder <:+ folderFor disk start → disk.hasFile (fileName :: folder) = true →
    folder <:+ root

/-- There is no module at or above a place. -/
def Unmarked (disk : Disk) (start : Location) : Prop :=
  ∀ folder, folder <:+ folderFor disk start → disk.hasFile (fileName :: folder) = false

theorem root?_eq_none_iff {disk : Disk} {start : Location} :
    root? disk start = none ↔ Unmarked disk start := by
  simp only [root?, Unmarked, folderFor, List.find?_eq_none, Location.mem_ancestors,
    Bool.not_eq_true]

theorem root?_eq_some_iff {disk : Disk} {start root : Location} :
    root? disk start = some root ↔ Nearest disk start root := by
  have nearest {root : Location} (found : root? disk start = some root) :
      Nearest disk start root :=
    ⟨Location.mem_ancestors.mp (List.mem_of_find?_eq_some found), hasFile_of_root? found,
      fun _ inside marks => Location.suffix_of_find?_ancestors found inside marks⟩
  refine ⟨nearest, fun given => ?_⟩
  cases found : root? disk start with
  | none => cases (root?_eq_none_iff.mp found root given.above).symm.trans given.marked
  | some other =>
    have lower := (nearest found).lowest root given.above given.marked
    have higher := given.lowest other (nearest found).above (nearest found).marked
    rw [higher.eq_of_length_le lower.length_le]

end GoModule

namespace PackageScan

open GoModule

variable {disk : Disk} {given : Option String} {folder root : Location} {name : String}
  {error : ModuleError}

/-- The name of the module with the given folder: the one given, unless it is empty, or the one that
its file declares. -/
inductive IsNamed (disk : Disk) (root : Location) : Option String → String → Prop where
  | given {name : String} (nonempty : name ≠ "") : IsNamed disk root (some name) name
  | declared {given : Option String} {name : String} {content : ByteArray}
      (unset : given.getD "" = "")
      (read : disk.read (Location.render (fileName :: root)) = .ok content)
      (declared : Declared content name) : IsNamed disk root given name

theorem moduleName_of_unset (unset : given.getD "" = "") :
    moduleName disk given root = readName disk (Location.render (fileName :: root)) := by
  cases given with
  | none => rfl
  | some name => exact if_pos unset

theorem moduleName_eq_ok_iff :
    moduleName disk given root = .ok name ↔ IsNamed disk root given name := by
  by_cases unset : given.getD "" = ""
  · rw [moduleName_of_unset unset, readName_eq_ok_iff]
    constructor
    · rintro ⟨content, read, declared⟩
      exact .declared unset read declared
    · rintro (nonempty | ⟨_, read, declared⟩)
      · exact absurd unset nonempty
      · exact ⟨_, read, declared⟩
  · cases given with
    | none => exact absurd rfl unset
    | some other =>
      have named : moduleName disk (some other) root = .ok other := if_neg unset
      rw [named, Except.ok.injEq]
      constructor
      · rintro rfl
        exact .given unset
      · rintro (_ | ⟨empty, _⟩)
        · rfl
        · exact absurd empty unset

theorem moduleName_eq_error_iff :
    moduleName disk given root = .error error ↔
      given.getD "" = "" ∧ Flawed disk (Location.render (fileName :: root)) error := by
  by_cases unset : given.getD "" = ""
  · rw [moduleName_of_unset unset, readName_eq_error_iff]
    exact (and_iff_right unset).symm
  · cases given with
    | none => exact absurd rfl unset
    | some other =>
      have named : moduleName disk (some other) root = .ok other := if_neg unset
      exact iff_of_false (by simp [named]) fun flawed => unset flawed.1

/-- The folder of the module that a folder belongs to. With a given name, a folder outside all
modules is a module of its own. -/
def IsRoot (disk : Disk) (given : Option String) (folder root : Location) : Prop :=
  Nearest disk folder root ∨ Unmarked disk folder ∧ given ≠ none ∧ root = folder

theorem isRoot_iff : IsRoot disk given folder root ↔
    root? disk folder = some root ∨ root? disk folder = none ∧ given ≠ none ∧ root = folder := by
  rw [IsRoot, root?_eq_some_iff, root?_eq_none_iff]

theorem moduleOf_eq_ok_iff : moduleOf disk given folder = .ok (root, name) ↔
    IsRoot disk given folder root ∧ IsNamed disk root given name := by
  rw [isRoot_iff, ← moduleName_eq_ok_iff]
  unfold moduleOf
  cases root? disk folder with
  | none =>
    cases given with
    | none => simp
    | some =>
      simp only [Except.map_eq_ok_iff, Prod.mk.injEq, reduceCtorEq, false_or, true_and, ne_eq,
        not_false_eq_true]
      constructor
      · rintro ⟨_, named, rfl, rfl⟩
        exact ⟨rfl, named⟩
      · rintro ⟨rfl, named⟩
        exact ⟨_, named, rfl, rfl⟩
  | some nearest =>
    simp only [Except.map_eq_ok_iff, Prod.mk.injEq, Option.some.injEq, reduceCtorEq, false_and,
      or_false]
    constructor
    · rintro ⟨_, named, rfl, rfl⟩
      exact ⟨rfl, named⟩
    · rintro ⟨rfl, named⟩
      exact ⟨_, named, rfl, rfl⟩

end PackageScan

end AssetRefs
