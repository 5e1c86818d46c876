import AssetRefs.Proofs.Listings
import Mathlib.Data.List.Infix

/-! # Modules and import paths

The module of a folder is the lowest one above it. A folder has an import path in a module if it is
in the folder of the module, and no name right below that one passes for `..`; the import path is
then the name of the module followed by the names on the way down (`importPath_eq_ok_iff`). For a
module within another one, that relates the two import paths of a folder: see `importPath_within`.
Names without backslashes stand in the import path as they are, so that it tells the folders of a
module apart: see `folders_have_import_paths_unless_dotted`.
-/

namespace AssetRefs

namespace Location

/-! ## Above a folder -/

theorem mem_ancestors {folder other : Location} : other ∈ folder.ancestors ↔ other <:+ folder := by
  induction folder with
  | nil => simp [ancestors]
  | cons name above ih => rw [ancestors, List.mem_cons, ih, List.suffix_cons_iff]

/-- The first of a folder and those above it is the lowest. -/
theorem suffix_of_find?_ancestors {marked : Location → Bool} {folder root other : Location}
    (found : folder.ancestors.find? marked = some root) (inside : other <:+ folder)
    (marks : marked other) : other <:+ root := by
  induction folder with
  | nil =>
    rw [List.suffix_nil.mp inside]
    exact List.nil_suffix
  | cons name above ih =>
    rw [ancestors, List.find?_cons] at found
    split at found
    · cases found
      exact inside
    · next unmarked =>
      rcases List.suffix_cons_iff.mp inside with rfl | inside
      · simp [marks] at unmarked
      · exact ih found inside

/-! ## Down from a folder -/

theorem split_append (base down : List String) : split (base ++ down) base = (down, 0) := by
  induction base with
  | nil => cases down <;> rfl
  | cons name rest ih => simpa [split] using ih

theorem relativeTo_append (below root : Location) :
    (below ++ root).relativeTo root = below.reverse := by
  simp [relativeTo, split_append]

theorem split_of_not_prefix {place base : List String} (outside : ¬base <+: place) :
    ∃ down up, split place base = (down, up + 1) := by
  induction base generalizing place with
  | nil => exact absurd List.nil_prefix outside
  | cons name rest ih =>
    cases place with
    | nil => exact ⟨[], rest.length, rfl⟩
    | cons other more =>
      by_cases same : other = name
      · subst same
        have outsideRest : ¬rest <+: more :=
          fun inside => outside (List.cons_prefix_cons.mpr ⟨rfl, inside⟩)
        obtain ⟨down, up, split⟩ := ih outsideRest
        exact ⟨down, up, by simpa [Location.split] using split⟩
      · exact ⟨other :: more, rest.length, by simp [Location.split, same]⟩

theorem relativeTo_of_not_suffix {folder root : Location} (outside : ¬root <:+ folder) :
    ∃ rest, folder.relativeTo root = ".." :: rest := by
  obtain ⟨down, up, split⟩ :=
    split_of_not_prefix fun inside => outside (List.reverse_prefix.mp inside)
  exact ⟨List.replicate up ".." ++ down, by simp [relativeTo, split, List.replicate_succ]⟩

end Location

namespace GoModule

/-! ## The module of a folder -/

section

variable {disk : Disk} {folder root : Location}

theorem hasFile_of_root? (found : root? disk folder = some root) :
    disk.hasFile (fileName :: root) := by
  have := List.find?_some found
  exact this

variable (isFolder : disk.hasFile folder = false)

include isFolder

theorem root?_eq_find? : root? disk folder =
    folder.ancestors.find? fun folder => disk.hasFile (fileName :: folder) := by
  simp [root?, isFolder]

theorem suffix_of_root? (found : root? disk folder = some root) : root <:+ folder := by
  rw [root?_eq_find? isFolder] at found
  exact Location.mem_ancestors.mp (List.mem_of_find?_eq_some found)

/-- No module below the one of a folder has the folder in it. -/
theorem suffix_root? (found : root? disk folder = some root) {other : Location}
    (inside : other <:+ folder) (marks : disk.hasFile (fileName :: other)) : other <:+ root := by
  rw [root?_eq_find? isFolder] at found
  exact Location.suffix_of_find?_ancestors found inside marks

theorem exists_root? {other : Location} (inside : other <:+ folder)
    (marks : disk.hasFile (fileName :: other)) : ∃ root, root? disk folder = some root := by
  rw [root?_eq_find? isFolder, ← Option.isSome_iff_exists, List.find?_isSome]
  exact ⟨other, Location.mem_ancestors.mpr inside, marks⟩

end

/-! ## Import paths -/

/-- What an import path has for the names from a module down, given innermost first. -/
def extension (below : Location) : List Char :=
  below.reverse.flatMap fun name => '/' :: (Discovery.slashed name).toList

theorem extension_append (inner outer : Location) :
    extension (inner ++ outer) = extension outer ++ extension inner := by
  simp [extension]

theorem head?_extension (below : Location) : (extension below).head? ≠ some '.' := by
  unfold extension
  cases below.reverse with
  | nil => simp
  | cons name rest => simp

/-- Whether the first name from a module down starts with two dots. -/
def Leaves (below : Location) : Prop := ∃ name ∈ below.getLast?, ['.', '.'] <+: name.toList

theorem slash_intercalate (names : List String) (nonempty : names ≠ []) :
    '/' :: (Discovery.slashed (String.intercalate "/" names)).toList =
      names.flatMap fun name => '/' :: (Discovery.slashed name).toList := by
  induction names with
  | nil => exact absurd rfl nonempty
  | cons name rest ih =>
    cases rest with
    | nil => simp
    | cons next more =>
      have := ih (by simp)
      simp_all [Discovery.slashed]

/-- Whether the first name starts with two dots shows in the whole way. -/
theorem dots_prefix_slashed_append (name : String) {rest : List Char}
    (apart : rest.head? ≠ some '.') :
    ['.', '.'] <+: (Discovery.slashed name).toList ++ rest ↔ ['.', '.'] <+: name.toList := by
  have dot (c : Char) : ('.' = if c = '\\' then '/' else c) ↔ '.' = c := by
    split_ifs with backslash
    · simp [backslash]
    · rfl
  rw [Discovery.slashed, String.toList_ofList]
  rcases name.toList with _ | ⟨first, _ | ⟨second, more⟩⟩
  · cases rest with
    | nil => rfl
    | cons c rest =>
      have other : '.' ≠ c := by simpa [eq_comm] using apart
      simp [List.cons_prefix_cons, other]
  · cases rest with
    | nil => simp [List.cons_prefix_cons]
    | cons c rest =>
      have other : '.' ≠ c := by simpa [eq_comm] using apart
      simp [List.cons_prefix_cons, other]
  · simp [List.cons_prefix_cons, dot]

theorem importPath_eq (shown : String) (folder root : Location) (module : String) :
    importPath shown folder root module =
      let way := (Discovery.slashed (String.intercalate "/" (folder.relativeTo root))).toList
      if way = [] then .ok module
      else if ['.', '.'] <+: way then .error (.outside shown module)
      else .ok (module ++ String.ofList ('/' :: way)) := by
  unfold importPath Discovery.slashed
  rw [String.toList_ofList]
  generalize (String.intercalate "/" (folder.relativeTo root)).toList.map _ = way
  simp only
  split
  · rfl
  · simp
  · next nonempty stays =>
    have inside : ¬['.', '.'] <+: way := by
      rintro ⟨rest, rfl⟩
      exact stays rest rfl
    rw [if_neg nonempty, if_neg inside, String.append_assoc]
    congr 2
    simp

theorem importPath_append_eq_ok_iff {shown module path : String} {below root : Location}
    (named : "" ∉ below) :
    importPath shown (below ++ root) root module = .ok path ↔
      ¬Leaves below ∧ path = module ++ String.ofList (extension below) := by
  rw [importPath_eq, Location.relativeTo_append]
  rcases List.eq_nil_or_concat' below with rfl | ⟨inner, first, rfl⟩
  · simp [Discovery.slashed, extension, Leaves, eq_comm]
  · have spelled := slash_intercalate (inner ++ [first]).reverse (by simp)
    have way : (Discovery.slashed (String.intercalate "/" (inner ++ [first]).reverse)).toList =
        (Discovery.slashed first).toList ++ extension inner := by
      simpa [extension] using spelled
    have nonempty : (Discovery.slashed first).toList ++ extension inner ≠ [] := by
      intro empty
      have spelled : first.toList = [] := by
        simpa [Discovery.slashed] using (List.append_eq_nil_iff.mp empty).1
      exact named (by simp [String.toList_eq_nil_iff.mp spelled])
    have dots := dots_prefix_slashed_append first (head?_extension inner)
    have leaves : Leaves (inner ++ [first]) ↔ ['.', '.'] <+: first.toList := by simp [Leaves]
    have extended : extension (inner ++ [first]) =
        '/' :: ((Discovery.slashed first).toList ++ extension inner) := by
      simp [extension]
    simp only [way, nonempty, ↓reduceIte, dots, leaves, extended]
    split_ifs with escapes
    · simp [escapes]
    · simp [escapes, eq_comm]

theorem importPath_of_not_suffix (shown module : String) {folder root : Location}
    (outside : ¬root <:+ folder) :
    importPath shown folder root module = .error (.outside shown module) := by
  obtain ⟨rest, relative⟩ := Location.relativeTo_of_not_suffix outside
  obtain ⟨way, spelled⟩ : ∃ way,
      (Discovery.slashed (String.intercalate "/" (".." :: rest))).toList = '.' :: '.' :: way := by
    have spelled := slash_intercalate (".." :: rest) (by simp)
    exact ⟨_, (List.cons.inj spelled).2⟩
  rw [importPath_eq, relative, spelled]
  rfl

/-- The folder is at or below the folder of the module, on a way down that does not start with two
dots. Its import path is the name of the module followed by this way: the names on it with slashes
between them, and with slashes for backslashes. -/
def HasImportPath (folder root : Location) (module path : String) : Prop :=
  ∃ below, folder = below ++ root ∧
    let way := Discovery.slashed (String.intercalate "/" below.reverse)
    ¬['.', '.'] <+: way.toList ∧ path = if way = "" then module else module ++ "/" ++ way

/-- A folder without an import path counts as one outside the module. -/
theorem importPath_eq_of_hasImportPath (shown module : String) (folder root : Location) :
    (∃ path, importPath shown folder root module = .ok path ∧
      ∀ other, HasImportPath folder root module other ↔ other = path) ∨
    importPath shown folder root module = .error (.outside shown module) ∧
      ∀ path, ¬HasImportPath folder root module path := by
  by_cases inside : root <:+ folder
  · obtain ⟨below, rfl⟩ := inside
    have spelled (path : String) : HasImportPath (below ++ root) root module path ↔
        let way := Discovery.slashed (String.intercalate "/" below.reverse)
        ¬['.', '.'] <+: way.toList ∧ path = if way = "" then module else module ++ "/" ++ way := by
      simp [HasImportPath]
    simp only [spelled, importPath_eq, Location.relativeTo_append]
    generalize Discovery.slashed (String.intercalate "/" below.reverse) = way
    simp only [String.toList_eq_nil_iff]
    split_ifs with top leaves
    · simp [top]
    · simp [leaves]
    · simp [leaves, String.append_assoc]
  · refine .inr ⟨importPath_of_not_suffix shown module inside, ?_⟩
    rintro path ⟨below, rfl, _⟩
    exact inside (List.suffix_append _ _)

theorem importPath_eq_ok_iff_hasImportPath {shown module path : String} {folder root : Location} :
    importPath shown folder root module = .ok path ↔ HasImportPath folder root module path := by
  rcases importPath_eq_of_hasImportPath shown module folder root with
    ⟨given, read, only⟩ | ⟨outside, none⟩
  · rw [read, only, Except.ok.injEq, eq_comm]
  · simp [outside, none]

theorem importPath_eq_error_iff {shown module : String} {folder root : Location}
    {error : ModuleError} : importPath shown folder root module = .error error ↔
      error = .outside shown module ∧ ∀ path, ¬HasImportPath folder root module path := by
  rcases importPath_eq_of_hasImportPath shown module folder root with
    ⟨given, read, only⟩ | ⟨outside, none⟩
  · simp [read, only]
  · simp [outside, none, eq_comm]

/-- A folder has an import path in a module if it is in the folder of the module and its way down
from there does not start with two dots. -/
theorem importPath_eq_ok_iff {shown module path : String} {folder root : Location}
    (named : "" ∉ folder) :
    importPath shown folder root module = .ok path ↔ ∃ below, folder = below ++ root ∧
      ¬Leaves below ∧ path = module ++ String.ofList (extension below) := by
  by_cases inside : root <:+ folder
  · obtain ⟨below, rfl⟩ := inside
    rw [importPath_append_eq_ok_iff fun member => named (List.mem_append_left _ member)]
    simp
  · rw [importPath_of_not_suffix shown module inside]
    constructor
    · exact nofun
    · rintro ⟨below, rfl, _⟩
      exact absurd (List.suffix_append _ _) inside

theorem Leaves.append {outer : Location} (leaves : Leaves outer) (inner : Location) :
    Leaves (inner ++ outer) := by
  obtain ⟨name, last, dots⟩ := leaves
  exact ⟨name, by simp_all [List.getLast?_append], dots⟩

/-- Of two modules one of which is in the other, the inner one gives a folder the same import path
as the outer one if its name is the import path of its own folder. -/
theorem importPath_within {shown shownIn shownOf name module path : String}
    {inner nearest root : Location} (named : "" ∉ inner ++ nearest) (nested : root <:+ nearest)
    (stays : ¬Leaves inner) (given : importPath shown (inner ++ nearest) root name = .ok path) :
    importPath shownIn (inner ++ nearest) nearest module = .ok path ↔
      importPath shownOf nearest root name = .ok module := by
  obtain ⟨outer, rfl⟩ := nested
  rw [← List.append_assoc] at given
  simp only [List.mem_append, not_or] at named
  have namedInner : "" ∉ inner ++ outer := by simp [named.1, named.2.1]
  obtain ⟨staysOut, rfl⟩ := (importPath_append_eq_ok_iff namedInner).mp given
  have staysOuter : ¬Leaves outer := fun leaves => staysOut (leaves.append inner)
  rw [importPath_append_eq_ok_iff named.1, importPath_append_eq_ok_iff named.2.1, extension_append,
    String.ofList_append, ← String.append_assoc, String.append_left_inj]
  simp only [stays, staysOuter, not_false_eq_true, true_and, eq_comm]

theorem leaves_cons_iff {name : String} {below : Location} :
    Leaves (name :: below) ↔ Leaves below ∨ below = [] ∧ ['.', '.'] <+: name.toList := by
  cases below with
  | nil => simp [Leaves]
  | cons outer rest => simp [Leaves, List.getLast?_cons_cons]

end GoModule

/-! ## Folders with plain names -/

/-- A folder of a file tree, with no backslash in the names that lead to it. -/
structure Location.Plain (location : Location) : Prop where
  resolved : location.Resolved
  unslashed : ∀ name ∈ location, '\\' ∉ name.toList

namespace Location.Plain

variable {folder : Location}

theorem of_append {below root : Location} (plain : (below ++ root).Plain) : below.Plain where
  resolved name member := plain.resolved name (List.mem_append_left _ member)
  unslashed name member := plain.unslashed name (List.mem_append_left _ member)

theorem tail {name : String} (plain : Location.Plain (name :: folder)) : folder.Plain where
  resolved other member := plain.resolved other (List.mem_cons_of_mem _ member)
  unslashed other member := plain.unslashed other (List.mem_cons_of_mem _ member)

theorem named (plain : folder.Plain) : "" ∉ folder :=
  fun empty => (plain.resolved _ empty).1.1 rfl

theorem apart (plain : folder.Plain) : ∀ name ∈ folder.reverse, '/' ∉ name.toList :=
  fun name member => (plain.resolved name (List.mem_reverse.mp member)).1.2.2

/-- Plain names are added to an import path as they are. -/
theorem ofList_extension (plain : folder.Plain) :
    String.ofList (GoModule.extension folder) = String.join (folder.reverse.map ("/" ++ ·)) := by
  have each : folder.reverse.flatMap (fun name => '/' :: (Discovery.slashed name).toList) =
      folder.reverse.flatMap fun name => '/' :: name.toList := by
    refine List.flatMap_congr fun name member => ?_
    rw [Discovery.slashed_of_not_mem (plain.unslashed name (List.mem_reverse.mp member))]
  rw [GoModule.extension, each, ← String.toList_inj]
  rw [String.toList_ofList, String.toList_join, List.flatMap_map]
  simp

end Location.Plain

namespace GoModule

theorem join_eq_slash_intercalate (name : String) (rest : List String) :
    String.join ((name :: rest).map ("/" ++ ·)) = "/" ++ String.intercalate "/" (name :: rest) := by
  induction rest generalizing name with
  | nil => simp
  | cons next more ih =>
    rw [List.map_cons, String.join_cons, ih, String.intercalate_cons_cons]
    simp [String.append_assoc]

/-- The names on the way down can be read from an import path. -/
theorem components_join {names : List String} (apart : ∀ name ∈ names, '/' ∉ name.toList) :
    Route.components (String.join (names.map ("/" ++ ·))) = "" :: names := by
  cases names with
  | nil => rfl
  | cons name rest =>
    rw [join_eq_slash_intercalate, Route.components_slash,
      Route.components_intercalate (by simp) apart]

section

variable {shown shown' module path : String} {folder root : Location}

theorem importPath_append_eq_ok_iff_of_plain {below : Location}
    (plain : Location.Plain (below ++ root)) :
    importPath shown (below ++ root) root module = .ok path ↔
      ¬Leaves below ∧ path = module ++ String.join (below.reverse.map ("/" ++ ·)) := by
  rw [importPath_append_eq_ok_iff plain.of_append.named, plain.of_append.ofList_extension]

theorem importPath_eq_ok_iff_of_plain (plain : folder.Plain) :
    importPath shown folder root module = .ok path ↔ ∃ below, folder = below ++ root ∧
      ¬Leaves below ∧ path = module ++ String.join (below.reverse.map ("/" ++ ·)) := by
  rw [importPath_eq_ok_iff plain.named]
  refine exists_congr fun below => and_congr_right fun inside => ?_
  subst inside
  rw [plain.of_append.ofList_extension]

/-- A folder without an import path counts as one outside the module. -/
theorem importPath_eq_ok_or_outside (shown module : String) (folder root : Location) :
    (∃ path, importPath shown folder root module = .ok path) ∨
      importPath shown folder root module = .error (.outside shown module) := by
  rcases importPath_eq_of_hasImportPath shown module folder root with
    ⟨path, given, _⟩ | ⟨outside, _⟩
  · exact .inl ⟨path, given⟩
  · exact .inr outside

theorem importPath_injective {other : Location} (plain : folder.Plain) (plainOther : other.Plain)
    (given : importPath shown folder root module = .ok path)
    (givenOther : importPath shown' other root module = .ok path) : other = folder := by
  obtain ⟨below, rfl, _, rfl⟩ := (importPath_eq_ok_iff_of_plain plain).mp given
  obtain ⟨below', rfl, _, same⟩ := (importPath_eq_ok_iff_of_plain plainOther).mp givenOther
  have names := congrArg Route.components ((String.append_right_inj _).mp same)
  rw [components_join plain.of_append.apart, components_join plainOther.of_append.apart] at names
  rw [List.reverse_injective (List.cons.inj names).2]

/-- One folder further down, the import path has one name more. -/
theorem importPath_cons_iff {name : String} (plain : Location.Plain (name :: folder))
    (given : importPath shown folder root module = .ok path) :
    importPath shown' (name :: folder) root module = .ok (path ++ "/" ++ name) ↔
      ¬(folder = root ∧ ['.', '.'] <+: name.toList) := by
  obtain ⟨below, rfl, stays, rfl⟩ := (importPath_eq_ok_iff_of_plain plain.tail).mp given
  have spelled : module ++ String.join (below.reverse.map ("/" ++ ·)) ++ "/" ++ name =
      module ++ String.join ((name :: below).reverse.map ("/" ++ ·)) := by
    simp [String.append_assoc]
  rw [← List.cons_append, importPath_append_eq_ok_iff_of_plain plain, leaves_cons_iff, spelled]
  simp [stays]

end

end GoModule

open GoModule

/-- A folder has an import path in a module if it is the folder of the module or lies below it,
unless the name right below the folder of the module starts with two dots. The import path is the
name of the module followed by a slash and a name for each folder on the way down. Any other folder
counts as one outside the module. Import paths in a module tell its folders apart, and going one
folder down appends the name of that folder, with the same exception. -/
theorem folders_have_import_paths_unless_dotted (shown module : String) {folder : Location}
    (root : Location) (plain : folder.Plain) :
    ((∃ path, importPath shown folder root module = .ok path) ↔
      ∃ below, folder = below ++ root ∧ ¬Leaves below) ∧
    (∀ below, folder = below ++ root → ¬Leaves below →
      importPath shown folder root module =
        .ok (module ++ String.join (below.reverse.map ("/" ++ ·)))) ∧
    ((∃ path, importPath shown folder root module = .ok path) ∨
      importPath shown folder root module = .error (.outside shown module)) ∧
    ∀ path, importPath shown folder root module = .ok path →
      (∀ shown' (other : Location), other.Plain →
        importPath shown' other root module = .ok path → other = folder) ∧
      ∀ shown' name, Location.Plain (name :: folder) →
        (importPath shown' (name :: folder) root module = .ok (path ++ "/" ++ name) ↔
          ¬(folder = root ∧ ['.', '.'] <+: name.toList)) := by
  refine ⟨?_, ?_, importPath_eq_ok_or_outside .., fun path given => ⟨?_, ?_⟩⟩
  · simp only [importPath_eq_ok_iff_of_plain plain]
    constructor
    · rintro ⟨_, below, inside, stays, _⟩
      exact ⟨below, inside, stays⟩
    · rintro ⟨below, inside, stays⟩
      exact ⟨_, below, inside, stays, rfl⟩
  · intro below inside stays
    exact (importPath_eq_ok_iff_of_plain plain).mpr ⟨below, inside, stays, rfl⟩
  · exact fun shown' other plainOther => importPath_injective plain plainOther given
  · exact fun shown' name plainBelow => importPath_cons_iff plainBelow given

theorem folders_have_import_paths_unless_dotted_deep :
    Location.Plain ["..b", "a", "mod"] ∧
    importPath "/mod/a/..b" ["..b", "a", "mod"] ["mod"] "app" = .ok "app/a/..b" ∧
    ∀ other : Location, other.Plain → importPath "" other ["mod"] "app" = .ok "app/a/..b" →
      other = ["..b", "a", "mod"] := by
  have plain : Location.Plain ["..b", "a", "mod"] :=
    ⟨by simp [Location.Resolved, Route.IsPart], by simp⟩
  obtain ⟨_, given, _, laws⟩ :=
    folders_have_import_paths_unless_dotted "/mod/a/..b" "app" ["mod"] plain
  have here := given ["..b", "a"] rfl (by simp [Leaves])
  refine ⟨plain, here, (laws _ here).1 ""⟩

/-- A folder of the module whose name starts with two dots is taken for one outside. -/
theorem dotted_folders_count_as_outside :
    Location.Plain ["..data", "mod"] ∧ ["mod"] <:+ ["..data", "mod"] ∧
    importPath "/mod/..data" ["..data", "mod"] ["mod"] "app" =
      .error (.outside "/mod/..data" "app") ∧
    ¬ ∀ (shown module : String) (folder root : Location), folder.Plain → root.Plain →
      ((∃ path, importPath shown folder root module = .ok path) ↔ root <:+ folder) := by
  have plain : Location.Plain ["..data", "mod"] :=
    ⟨by simp [Location.Resolved, Route.IsPart], by simp⟩
  have inside : ["mod"] <:+ ["..data", "mod"] := ⟨["..data"], rfl⟩
  have outside : importPath "/mod/..data" ["..data", "mod"] ["mod"] "app" =
      .error (.outside "/mod/..data" "app") := by decide +kernel
  refine ⟨plain, inside, outside, ?_⟩
  intro within
  obtain ⟨path, given⟩ := (within "/mod/..data" "app" _ _ plain plain.tail).mpr inside
  rw [outside] at given
  cases given

end AssetRefs
