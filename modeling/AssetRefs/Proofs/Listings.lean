import AssetRefs.Proofs.PackageScans
import AssetRefs.Proofs.ProperTrees
import Mathlib.Data.List.Sort
import Mathlib.Data.String.Basic

/-! # Listings and walks

Discovery decides on each candidate for itself and sorts the ones it keeps, so its result depends
only on which candidates there are (`discover_outcome_of_decided`). A version control listing names
Go files in folders that a walk does not enter, and a walk comes to files of all kinds; none of
these is kept. So both ways to find candidates lead to the same files: see
`listings_agree_with_walks`.
-/

namespace AssetRefs

/-! ## Text -/

theorem Text.linesFrom_append {chars : List Char} (unbroken : ∀ c ∈ chars, isLineBreak c = false)
    (current rest : List Char) :
    linesFrom current (chars ++ '\n' :: rest) =
      (current.reverse ++ chars) :: linesFrom [] rest := by
  induction chars generalizing current with
  | nil => simp [linesFrom, isLineBreak]
  | cons c chars ih =>
    obtain ⟨first, others⟩ := List.forall_mem_cons.mp unbroken
    have plain : c ≠ '\r' := by
      rintro rfl
      exact absurd first (by decide)
    have kept := ih others (c :: current)
    rw [List.reverse_cons, List.append_assoc] at kept
    rw [List.cons_append, linesFrom]
    · simpa [first] using kept
    · exact fun _ same => absurd same plain

theorem Text.trim_eq_self {chars : List Char} (front : ∀ c ∈ chars.head?, isBlank c = false)
    (back : ∀ c ∈ chars.getLast?, isBlank c = false) : trim chars = chars := by
  have left : trimLeft chars = chars := by
    cases chars with
    | nil => rfl
    | cons c rest => simp [trimLeft, front c rfl]
  have right : chars.reverse.dropWhile isBlank = chars.reverse := by
    cases reversed : chars.reverse with
    | nil => rfl
    | cons c rest =>
      have last : chars.getLast? = some c := by
        rw [← List.head?_reverse, reversed]
        rfl
      simp [back c last]
  rw [trim, left, trimRight, right, List.reverse_reverse]

theorem mergeSort_eq_of_perm {first second : List String} (same : first.Perm second) :
    first.mergeSort (fun a b => a ≤ b) = second.mergeSort (fun a b => a ≤ b) := by
  have sorted (paths : List String) : (paths.mergeSort fun a b => a ≤ b).Pairwise (· ≤ ·) :=
    List.pairwise_mergeSort' (· ≤ ·) paths
  refine List.Perm.eq_of_pairwise' (sorted first) (sorted second) ?_
  exact (List.mergeSort_perm ..).trans (same.trans (List.mergeSort_perm ..).symm)

theorem pairwise_lt_mergeSort {paths : List String} (distinct : paths.Nodup) :
    (paths.mergeSort fun a b => a ≤ b).Pairwise (· < ·) := by
  have sorted : (paths.mergeSort fun a b => a ≤ b).Pairwise (· ≤ ·) :=
    List.pairwise_mergeSort' (· ≤ ·) paths
  have apart : (paths.mergeSort fun a b => a ≤ b).Nodup :=
    (List.mergeSort_perm ..).nodup_iff.mpr distinct
  exact sorted.imp₂ (fun _ _ less different => lt_of_le_of_ne less different) apart

/-! ## Decisions -/

namespace Discovery

variable {disk : Disk} {root : Location} {options : DiscoveryOptions} {path : String}

/-- Whether there is something at a path that is not too large. -/
def fits (disk : Disk) (root : Location) (path : String) : Bool :=
  match disk.find (routeTo root path).render with
  | .error _ => false
  | .ok tree => tree.size ≤ sizeLimit

/-- Whether a path is kept. -/
def kept (disk : Disk) (root : Location) (options : DiscoveryOptions) (path : String) : Bool :=
  isWanted options (Route.components path) &&
    Glob.matchesAny? path options.exclude == some false && fits disk root path

/-- Whether there is a decision on a path: a pattern without components is not tried. -/
def Decided (options : DiscoveryOptions) (path : String) : Prop :=
  isWanted options (Route.components path) → Glob.matchesAny? path options.exclude ≠ none

theorem keep_outcome_of_decided (decided : Decided options path) :
    (keep disk root options path).outcome = .ok (kept disk root options path) := by
  unfold keep kept fits
  split_ifs with wanted
  · cases matched : Glob.matchesAny? path options.exclude with
    | none => exact absurd matched (decided wanted)
    | some excluded =>
      cases excluded with
      | true => simp [Job.andThen, Job.write, Job.done]
      | false =>
        cases disk.find (routeTo root path).render with
        | error => simp [Job.done]
        | ok tree =>
          by_cases large : sizeLimit < tree.size
          · simp [large, Job.andThen, Job.write, Job.done, Nat.not_le_of_lt large]
          · simp [large, wanted, Job.done, Nat.le_of_not_lt large]
  · simp [wanted, Job.done]

theorem keep_outcome_of_not_decided (undecided : ¬ Decided options path) :
    (keep disk root options path).outcome = .error .emptyPattern := by
  obtain ⟨wanted, unanswered⟩ := Classical.not_imp.mp undecided
  simp [keep, wanted, not_not.mp unanswered, Job.fail]

theorem kept_iff : kept disk root options path ↔
    isWanted options (Route.components path) ∧ Glob.matchesAny? path options.exclude = some false ∧
      fits disk root path := by
  simp [kept, and_assoc]

theorem keepAll_outcome_of_decided {paths : List String}
    (decided : ∀ path ∈ paths, Decided options path) :
    (keepAll disk root options paths).outcome = .ok (paths.filter (kept disk root options)) := by
  induction paths with
  | nil => rfl
  | cons path rest ih =>
    obtain ⟨first, others⟩ := List.forall_mem_cons.mp decided
    simp only [keepAll, Job.andThen, keep_outcome_of_decided first, ih others, Job.done,
      List.filter_cons]

/-- If there is no decision on a path, there is none on the whole list. -/
theorem keepAll_outcome_of_not_decided {paths : List String} (member : path ∈ paths)
    (undecided : ¬ Decided options path) :
    (keepAll disk root options paths).outcome = .error .emptyPattern := by
  induction paths with
  | nil => cases member
  | cons first rest ih =>
    by_cases decided : Decided options first
    · have later : path ∈ rest := by
        rcases List.mem_cons.mp member with rfl | later
        · exact absurd decided undecided
        · exact later
      simp only [keepAll, Job.andThen, keep_outcome_of_decided decided, ih later]
    · simp only [keepAll, Job.andThen, keep_outcome_of_not_decided decided]

end Discovery

theorem discover_outcome_of_decided (disk : Disk) (listing : Option String) (root : Location)
    {options : DiscoveryOptions}
    (decided : ∀ path ∈ Discovery.candidates disk listing options.recursive root,
      Discovery.Decided options path) :
    (discover disk listing options root).outcome =
      .ok (((Discovery.candidates disk listing options.recursive root).filter
        (Discovery.kept disk root options)).mergeSort fun a b => a ≤ b) :=
  discover_outcome_eq_ok_iff.mpr ⟨_, Discovery.keepAll_outcome_of_decided decided, rfl⟩

theorem discover_outcome_of_not_decided {disk : Disk} {listing : Option String}
    {options : DiscoveryOptions} {root : Location} {path : String}
    (member : path ∈ Discovery.candidates disk listing options.recursive root)
    (undecided : ¬ Discovery.Decided options path) :
    (discover disk listing options root).outcome = .error .emptyPattern := by
  have stops : (Discovery.keepAll disk root options
      (Discovery.candidates disk listing options.recursive root)).outcome = .error .emptyPattern :=
    Discovery.keepAll_outcome_of_not_decided member undecided
  cases listing with
  | none => exact Job.andThen_outcome_of_error stops _
  | some text => exact Job.andThen_outcome_of_error stops _

/-- Discovery fails if there is no decision on a candidate, and for no other reason. -/
theorem discover_outcome_eq_error_iff {disk : Disk} {listing : Option String}
    {options : DiscoveryOptions} {root : Location} {failure : Failure} :
    (discover disk listing options root).outcome = .error failure ↔ failure = .emptyPattern ∧
      ∃ path ∈ Discovery.candidates disk listing options.recursive root,
        ¬ Discovery.Decided options path := by
  by_cases decided : ∀ path ∈ Discovery.candidates disk listing options.recursive root,
      Discovery.Decided options path
  · rw [discover_outcome_of_decided _ _ _ decided]
    refine iff_of_false nofun ?_
    rintro ⟨_, path, member, undecided⟩
    exact undecided (decided path member)
  · push Not at decided
    obtain ⟨path, member, undecided⟩ := decided
    rw [discover_outcome_of_not_decided member undecided, Except.error.injEq, eq_comm]
    exact (and_iff_left ⟨path, member, undecided⟩).symm

/-! ## Patterns -/

namespace Glob

/-- A pattern that can be compared with the end of a path: it has a component. -/
def HasComponent (pattern : String) : Prop := (Route.ofString pattern).steps ≠ []

instance (pattern : String) : Decidable (HasComponent pattern) :=
  inferInstanceAs (Decidable (_ ≠ _))

/-- A path as a whole matches a pattern, or its last components do. -/
def Matches (pattern path : String) : Prop :=
  matchesText pattern path = true ∨
    matchesEnd? (Route.ofString pattern) (Route.ofString path) = some true

theorem matchesEnd?_eq_none_iff {pattern : String} {path : Route} :
    matchesEnd? (Route.ofString pattern) path = none ↔ ¬ HasComponent pattern := by
  unfold matchesEnd? HasComponent
  simp only [List.isEmpty_iff]
  split_ifs with empty <;> simp [empty]

/-- There is no answer if a pattern without components is tried and none of those tried matches. -/
theorem matchesAny?_eq_none_iff {path : String} {patterns : List String} :
    matchesAny? path patterns = none ↔ ∃ front pattern rest, patterns = front ++ pattern :: rest ∧
      ¬ HasComponent pattern ∧ ∀ tried ∈ front ++ [pattern], ¬ Matches tried path := by
  induction patterns with
  | nil => simp [matchesAny?]
  | cons first others ih =>
    by_cases matched : Matches first path
    · have answered : matchesAny? path (first :: others) = some true := by
        rcases matched with whole | ending
        · rw [matchesAny?, if_pos whole]
        · simp [matchesAny?, ending]
      rw [answered]
      refine iff_of_false nofun ?_
      rintro ⟨front, pattern, rest, split, _, tried⟩
      exact tried first (by cases front <;> simp_all) matched
    · have whole : ¬ matchesText first path = true := fun whole => matched (.inl whole)
      rw [matchesAny?, if_neg whole]
      cases ending : matchesEnd? (Route.ofString first) (Route.ofString path) with
      | none =>
        refine iff_of_true rfl ⟨[], first, others, rfl, matchesEnd?_eq_none_iff.mp ending, ?_⟩
        simpa using matched
      | some answer =>
        cases answer with
        | true => exact absurd (.inr ending) matched
        | false =>
          have component : HasComponent first := by
            by_contra none
            cases (matchesEnd?_eq_none_iff.mpr none).symm.trans ending
          simp only [ih]
          constructor
          · rintro ⟨front, pattern, rest, rfl, empty, tried⟩
            exact ⟨first :: front, pattern, rest, rfl, empty,
              List.forall_mem_cons.mpr ⟨matched, tried⟩⟩
          · rintro ⟨_ | ⟨_, front⟩, pattern, rest, split, empty, tried⟩
            · cases split
              exact absurd component empty
            · cases split
              exact ⟨front, pattern, rest, rfl, empty, (List.forall_mem_cons.mp tried).2⟩

end Glob

/-- A path that is wanted comes to a pattern without components: no pattern tried matches it. -/
def Discovery.MeetsEmptyPattern (options : DiscoveryOptions) (path : String) : Prop :=
  isWanted options (Route.components path) = true ∧ ∃ front pattern rest,
    options.exclude = front ++ pattern :: rest ∧ ¬ Glob.HasComponent pattern ∧
      ∀ tried ∈ front ++ [pattern], ¬ Glob.Matches tried path

theorem Discovery.not_decided_iff {options : DiscoveryOptions} {path : String} :
    ¬ Decided options path ↔ MeetsEmptyPattern options path := by
  rw [Decided, Classical.not_imp, not_not, Glob.matchesAny?_eq_none_iff, MeetsEmptyPattern]

theorem Discovery.decided_of_hasComponent {options : DiscoveryOptions}
    (components : ∀ pattern ∈ options.exclude, Glob.HasComponent pattern) (path : String) :
    Decided options path := by
  by_contra undecided
  obtain ⟨_, front, pattern, rest, split, empty, _⟩ := not_decided_iff.mp undecided
  exact empty (components pattern (by simp [split]))

/-! ## Paths of files -/

/-- The path leads to a file below the folder. -/
def FileTree.HasPath (tree : FileTree) (path : String) : Prop :=
  ∃ names content, names ≠ [] ∧ tree.at? names = some (.file content) ∧
    path = String.intercalate "/" names

theorem FileTree.hasPath_iff {tree : FileTree} (proper : tree.Proper) {path : String} :
    tree.HasPath path ↔ path ∈ (tree.filesBelow fun _ => true).map (String.intercalate "/") := by
  simp only [HasPath, List.mem_map, mem_filesBelow_iff proper, implies_true, and_true, and_assoc,
    exists_and_left, ← exists_and_right, eq_comm]

namespace Discovery

/-- A path that stays as it is when it is printed on a line of its own and read again. -/
structure IsPlain (path : String) : Prop where
  slashed : '\\' ∉ path.toList
  unbroken : ∀ c ∈ path.toList, Text.isLineBreak c = false
  front : ∀ c ∈ path.toList.head?, Text.isBlank c = false
  back : ∀ c ∈ path.toList.getLast?, Text.isBlank c = false

/-- A listing with one path on each line. -/
def printed (paths : List String) : String := String.join (paths.map (· ++ "\n"))

/-- The paths are those of the Go files below a folder, hidden ones among them, in any order. -/
structure ListsGoFiles (tree : FileTree) (paths : List String) : Prop where
  distinct : paths.Nodup
  mem_iff : ∀ path, path ∈ paths ↔ tree.HasPath path ∧ endsIn ".go" path

theorem slashed_of_not_mem {path : String} (plain : '\\' ∉ path.toList) : slashed path = path := by
  rw [slashed, List.map_congr_left (g := id), List.map_id, String.ofList_toList]
  rintro c member
  have other : c ≠ '\\' := by
    rintro rfl
    exact plain member
  simp [other]

theorem lines_printed {paths : List String} (plain : ∀ path ∈ paths, IsPlain path) :
    Text.lines (printed paths).toList = paths.map String.toList := by
  induction paths with
  | nil => rfl
  | cons path rest ih =>
    obtain ⟨first, others⟩ := List.forall_mem_cons.mp plain
    have whole : (printed (path :: rest)).toList =
        path.toList ++ '\n' :: (printed rest).toList := by
      simp [printed]
    rw [whole, Text.lines, Text.linesFrom_append first.unbroken, List.map_cons]
    exact congrArg _ (ih others)

theorem listed_printed {paths : List String} (plain : ∀ path ∈ paths, IsPlain path)
    (named : "" ∉ paths) : listed (printed paths) = paths := by
  rw [listed, lines_printed plain, List.map_map, List.filterMap_map]
  refine (List.filterMap_congr fun path member => ?_).trans List.filterMap_some
  have nonempty : path.toList ≠ [] := fun none => named (String.toList_eq_nil_iff.mp none ▸ member)
  simp [Text.trim_eq_self (plain path member).front (plain path member).back, nonempty]

section

variable {disk : Disk} {root : Location} {tree : FileTree} {names : List String}

theorem routeTo_intercalate (resolved : root.Resolved) (nonempty : names ≠ [])
    (named : ∀ name ∈ names, Route.IsPart name ∧ name ≠ "..") :
    routeTo root (String.intercalate "/" names) = ⟨"/", root.reverse ++ names⟩ := by
  have formed : Route.WellFormed ⟨"", names⟩ := ⟨.inl rfl, fun name member => (named name member).1⟩
  have written : String.intercalate "/" names = Route.render ⟨"", names⟩ := by
    simp [Route.render, nonempty]
  rw [routeTo, resolved.ofString_render, written, Route.ofString_render formed]
  simp [Route.join]

theorem render_routeTo (resolved : root.Resolved) (nonempty : names ≠ [])
    (named : ∀ name ∈ names, Route.IsPart name ∧ name ≠ "..") :
    (routeTo root (String.intercalate "/" names)).render =
      Location.render (names.reverse ++ root) := by
  rw [routeTo_intercalate resolved nonempty named]
  simp [Route.render, Location.render]

/-- The walk enters the folders on the way to a wanted file. -/
theorem enters_of_isWanted {options : DiscoveryOptions} (wanted : isWanted options names) :
    ∀ name ∈ names.dropLast, (options.recursive && !isSkipped name) := by
  simp only [isWanted, Bool.and_eq_true, Bool.or_eq_true, decide_eq_true_eq, Bool.not_eq_true',
    List.any_eq_false] at wanted
  obtain ⟨⟨⟨⟨depth, unskipped⟩, _⟩, _⟩, _⟩ := wanted
  intro name member
  have recursive : options.recursive := by
    refine depth.resolve_right fun short => ?_
    have none : names.dropLast = [] := List.eq_nil_of_length_eq_zero (by simp; omega)
    simp [none] at member
  simp [recursive, unskipped name member]

theorem endsIn_of_isWanted {options : DiscoveryOptions} (wanted : isWanted options names) :
    endsIn ".go" (String.intercalate "/" names) := by
  rcases List.eq_nil_or_concat' names with rfl | ⟨front, last, rfl⟩
  · simp [isWanted, endsIn] at wanted
  · simp only [isWanted, List.getLast?_concat, Option.getD_some, Bool.and_eq_true, endsIn,
      List.isSuffixOf_iff_suffix] at wanted ⊢
    refine wanted.1.1.2.trans ?_
    clear wanted
    induction front with
    | nil => simp
    | cons name rest ih =>
      obtain ⟨next, more, listed⟩ := List.exists_cons_of_ne_nil (l := rest ++ [last]) (by simp)
      rw [List.cons_append, listed, String.intercalate_cons_cons, ← listed]
      simpa using ih.trans (List.suffix_append (name.toList ++ ['/']) _)

variable (proper : disk.root.Proper) (placed : disk.at? root = some tree)

/-- The files below a folder that discovery looks for: wanted, not excluded and not too large. -/
def Selects (options : DiscoveryOptions) (tree : FileTree) (path : String) : Prop :=
  ∃ names content, names ≠ [] ∧ tree.at? names = some (.file content) ∧
    path = String.intercalate "/" names ∧ isWanted options names ∧
    Glob.matchesAny? path options.exclude = some false ∧ content.bytes.size ≤ sizeLimit

include proper placed

/-- A file below a folder is kept if it is wanted, not excluded and not too large. -/
theorem kept_intercalate_iff {options : DiscoveryOptions} {content : FileContent}
    (nonempty : names ≠ []) (leads : tree.at? names = some (.file content)) :
    kept disk root options (String.intercalate "/" names) ↔ isWanted options names ∧
      Glob.matchesAny? (String.intercalate "/" names) options.exclude = some false ∧
      content.bytes.size ≤ sizeLimit := by
  have named := ((proper.at? placed).2.at? leads).1
  have found : disk.at? (names.reverse ++ root) = some (.file content) := by
    rw [Disk.at?_append, placed, Option.bind_some, List.reverse_reverse, leads]
  have reached := Disk.find_render (Disk.resolved_of_at? proper found) (by simp [nonempty]) found
  rw [← render_routeTo (Disk.resolved_of_at? proper placed) nonempty named] at reached
  have fitting : fits disk root (String.intercalate "/" names) ↔
      content.bytes.size ≤ sizeLimit := by
    unfold fits
    rw [reached]
    exact decide_eq_true_iff
  rw [kept_iff, Route.components_intercalate nonempty fun name member => (named name member).1.2.2,
    fitting]

theorem selects_iff {options : DiscoveryOptions} {path : String} :
    Selects options tree path ↔ tree.HasPath path ∧ kept disk root options path := by
  constructor
  · rintro ⟨names, content, nonempty, leads, rfl, selected⟩
    exact ⟨⟨names, content, nonempty, leads, rfl⟩,
      (kept_intercalate_iff proper placed nonempty leads).mpr selected⟩
  · rintro ⟨⟨names, content, nonempty, leads, rfl⟩, selected⟩
    exact ⟨names, content, nonempty, leads, rfl,
      (kept_intercalate_iff proper placed nonempty leads).mp selected⟩

section

variable (unslashed : ∀ path, tree.HasPath path → '\\' ∉ path.toList)

include unslashed

theorem candidates_walk (recursive : Bool) : candidates disk none recursive root =
    (tree.filesBelow fun name => recursive && !isSkipped name).map (String.intercalate "/") := by
  have walk : candidates disk none recursive root =
      ((tree.filesBelow fun name => recursive && !isSkipped name).map
        (String.intercalate "/")).map slashed := by
    simp [candidates, walked, placed]
  rw [walk, List.map_map]
  refine List.map_congr_left fun names member => slashed_of_not_mem (unslashed _ ?_)
  obtain ⟨nonempty, ⟨content, leads⟩, _⟩ :=
    (FileTree.mem_filesBelow_iff (proper.at? placed).2).mp member
  exact ⟨names, content, nonempty, leads, rfl⟩

theorem nodup_candidates_walk (recursive : Bool) :
    (candidates disk none recursive root).Nodup := by
  have properTree := (proper.at? placed).2
  rw [candidates_walk proper placed unslashed]
  refine properTree.nodup_filesBelow.map_on fun first firstIn second secondIn same => ?_
  have split {names : List String}
      (member : names ∈ tree.filesBelow fun name => recursive && !isSkipped name) :
      Route.components (String.intercalate "/" names) = names := by
    obtain ⟨nonempty, ⟨content, leads⟩, _⟩ := (FileTree.mem_filesBelow_iff properTree).mp member
    exact Route.components_intercalate nonempty
      fun name inside => ((properTree.at? leads).1 name inside).1.2.2
  rw [← split firstIn, same, split secondIn]

/-- Of the files that the walk comes to, those that discovery looks for are kept. -/
theorem mem_filter_walk_iff {options : DiscoveryOptions} {path : String} :
    path ∈ (candidates disk none options.recursive root).filter (kept disk root options) ↔
      Selects options tree path := by
  rw [List.mem_filter, candidates_walk proper placed unslashed, selects_iff proper placed]
  refine and_congr_left fun keeps => ?_
  constructor
  · intro member
    obtain ⟨names, inside, rfl⟩ := List.mem_map.mp member
    obtain ⟨nonempty, ⟨content, leads⟩, _⟩ :=
      (FileTree.mem_filesBelow_iff (proper.at? placed).2).mp inside
    exact ⟨names, content, nonempty, leads, rfl⟩
  · rintro ⟨names, content, nonempty, leads, rfl⟩
    have wanted := ((kept_intercalate_iff proper placed nonempty leads).mp keeps).1
    exact List.mem_map.mpr ⟨names, (FileTree.mem_filesBelow_iff (proper.at? placed).2).mpr
      ⟨nonempty, ⟨content, leads⟩, enters_of_isWanted wanted⟩, rfl⟩

end

/-- The same of the files in a listing. -/
theorem mem_filter_listing_iff {paths : List String} (lists : ListsGoFiles tree paths)
    {options : DiscoveryOptions} {path : String} :
    path ∈ paths.filter (kept disk root options) ↔ Selects options tree path := by
  rw [List.mem_filter, lists.mem_iff, selects_iff proper placed]
  refine and_congr_left fun keeps => and_iff_left_of_imp ?_
  rintro ⟨names, content, nonempty, leads, rfl⟩
  exact endsIn_of_isWanted ((kept_intercalate_iff proper placed nonempty leads).mp keeps).1

end

theorem candidates_listing {disk : Disk} {root : Location} {paths : List String}
    (plain : ∀ path ∈ paths, IsPlain path) (named : "" ∉ paths) (recursive : Bool) :
    candidates disk (some (printed paths)) recursive root = paths := by
  have read : candidates disk (some (printed paths)) recursive root =
      (listed (printed paths)).map slashed := rfl
  rw [read, listed_printed plain named]
  have same : ∀ path ∈ paths, slashed path = path := fun path member =>
    slashed_of_not_mem (plain path member).slashed
  rw [List.map_congr_left same, List.map_id']

/-- If the candidates that are kept are the files that discovery looks for, these are what it
finds. -/
theorem exists_discover_of_selects {disk : Disk} {listing : Option String} {root : Location}
    {tree : FileTree} {options : DiscoveryOptions}
    (components : ∀ pattern ∈ options.exclude, Glob.HasComponent pattern)
    (distinct : (candidates disk listing options.recursive root).Nodup)
    (selected : ∀ path, path ∈ (candidates disk listing options.recursive root).filter
      (kept disk root options) ↔ Selects options tree path) :
    ∃ files, (discover disk listing options root).outcome = .ok files ∧ files.Pairwise (· < ·) ∧
      ∀ path, path ∈ files ↔ Selects options tree path := by
  have found := discover_outcome_of_decided disk listing root
    fun path _ => decided_of_hasComponent components path
  refine ⟨_, found, pairwise_lt_mergeSort (distinct.filter _), fun path => ?_⟩
  rw [List.mem_mergeSort, selected]

/-- The walk finds the files that discovery looks for. -/
theorem exists_discover_walk {disk : Disk} {root : Location} {tree : FileTree}
    {options : DiscoveryOptions} (proper : disk.root.Proper) (placed : disk.at? root = some tree)
    (unslashed : ∀ path, tree.HasPath path → '\\' ∉ path.toList)
    (components : ∀ pattern ∈ options.exclude, Glob.HasComponent pattern) :
    ∃ files, (discover disk none options root).outcome = .ok files ∧ files.Pairwise (· < ·) ∧
      ∀ path, path ∈ files ↔ Selects options tree path :=
  exists_discover_of_selects components (nodup_candidates_walk proper placed unslashed _)
    fun _ => mem_filter_walk_iff proper placed unslashed

end Discovery

/-- For a folder of a proper tree whose paths are plain, discovery finds the same files with a
listing of the Go files, whatever their order, and with a walk: those that are wanted, not excluded
and not too large, in strictly increasing order. -/
theorem listings_agree_with_walks (disk : Disk) (root : Location) (tree : FileTree)
    (options : DiscoveryOptions) (paths : List String) (proper : disk.root.Proper)
    (placed : disk.at? root = some tree)
    (plain : ∀ path, tree.HasPath path → Discovery.IsPlain path)
    (components : ∀ pattern ∈ options.exclude, Glob.HasComponent pattern)
    (lists : Discovery.ListsGoFiles tree paths) :
    ∃ files, (discover disk (some (Discovery.printed paths)) options root).outcome = .ok files ∧
      (discover disk none options root).outcome = .ok files ∧ files.Pairwise (· < ·) ∧
      ∀ path, path ∈ files ↔ Discovery.Selects options tree path := by
  obtain ⟨files, walked, increasing, selects⟩ := Discovery.exists_discover_walk proper placed
    (fun path leads => (plain path leads).slashed) components
  have listing : Discovery.candidates disk (some (Discovery.printed paths)) options.recursive root =
      paths := by
    refine Discovery.candidates_listing (fun path member => plain path ?_) (fun empty => ?_) _
    · exact ((lists.mem_iff path).mp member).1
    · exact absurd ((lists.mem_iff "").mp empty).2 (by decide)
  obtain ⟨others, listed, sorted, found⟩ : ∃ files,
      (discover disk (some (Discovery.printed paths)) options root).outcome = .ok files ∧
        files.Pairwise (· < ·) ∧ ∀ path, path ∈ files ↔ Discovery.Selects options tree path := by
    refine Discovery.exists_discover_of_selects components ?_ fun path => ?_
    · rw [listing]
      exact lists.distinct
    · rw [listing, Discovery.mem_filter_listing_iff proper placed lists]
  have same : others = files :=
    sorted.eq_of_mem_iff increasing fun path => (found path).trans (selects path).symm
  exact ⟨files, same ▸ listed, walked, increasing, selects⟩

/-- A folder with a test, a vendored file and a file that is no Go file. -/
def vendoredTree : FileTree :=
  .folder [("sub", .folder [("c_test.go", .file ByteArray.empty), ("c.go", .file ByteArray.empty)]),
    ("vendor", .folder [("v.go", .file ByteArray.empty)]), ("notes", .file ByteArray.empty)]

/-- The paths that a listing of the folder has. -/
def vendoredPaths : List String := ["vendor/v.go", "sub/c.go", "sub/c_test.go"]

/-- The walk does not enter the vendored folder, the listing has its file. -/
theorem listings_agree_with_walks_vendored :
    ∃ files, (discover ⟨vendoredTree, []⟩ (some (Discovery.printed vendoredPaths))
        { recursive := true, exclude := ["gen/*"] } []).outcome = .ok files ∧
      (discover ⟨vendoredTree, []⟩ none { recursive := true, exclude := ["gen/*"] } []).outcome =
        .ok files ∧
      "sub/c.go" ∈ files ∧ "vendor/v.go" ∉ files := by
  have proper : vendoredTree.Proper := by decide +kernel
  have all : (vendoredTree.filesBelow fun _ => true).map (String.intercalate "/") =
      ["sub/c_test.go", "sub/c.go", "vendor/v.go", "notes"] := by
    simp [vendoredTree, FileTree.filesBelow, FileTree.filesAmong]
  have hasPath (path : String) : vendoredTree.HasPath path ↔
      path ∈ ["sub/c_test.go", "sub/c.go", "vendor/v.go", "notes"] :=
    all ▸ FileTree.hasPath_iff proper
  have plain (path : String) (leads : vendoredTree.HasPath path) : Discovery.IsPlain path := by
    have each : ∀ path ∈ ["sub/c_test.go", "sub/c.go", "vendor/v.go", "notes"],
        path.toList.all (fun c => c != '\\' && !Text.isLineBreak c) ∧
          path.toList.head?.all (fun c => !Text.isBlank c) ∧
          path.toList.getLast?.all (fun c => !Text.isBlank c) := by decide +kernel
    obtain ⟨inside, front, back⟩ := each path ((hasPath path).mp leads)
    simp only [List.all_eq_true, Bool.and_eq_true, bne_iff_ne, Bool.not_eq_true',
      Option.all_eq_true]
      at inside front back
    exact ⟨fun slash => (inside _ slash).1 rfl, fun c member => (inside c member).2, front, back⟩
  have lists : Discovery.ListsGoFiles vendoredTree vendoredPaths := by
    refine ⟨by decide +kernel, fun path => ?_⟩
    rw [hasPath]
    constructor
    · revert path
      decide +kernel
    · rintro ⟨member, goFile⟩
      revert path
      decide +kernel
  obtain ⟨files, listed, walked, _, found⟩ := listings_agree_with_walks ⟨vendoredTree, []⟩ []
    vendoredTree { recursive := true, exclude := ["gen/*"] } vendoredPaths proper rfl plain
    (List.forall_mem_singleton.mpr (by decide +kernel)) lists
  refine ⟨files, listed, walked, (found _).mpr ?_, fun member => ?_⟩
  · exact ⟨["sub", "c.go"], ByteArray.empty, by decide, rfl, by decide +kernel, by decide +kernel,
      by decide +kernel, by decide +kernel⟩
  · obtain ⟨names, content, nonempty, leads, same, wanted, _⟩ := (found _).mp member
    have split := Route.components_intercalate nonempty
      fun name inside => ((proper.at? leads).1 name inside).1.2.2
    rw [← same] at split
    subst split
    exact absurd wanted (by decide +kernel)

end AssetRefs
