import AssetRefs.Proofs.Routes

/-! # Proper file trees

A file tree is proper if the entries of every folder have names of their own, as those on a disk do.
In a proper tree, the walk below a folder comes to every file once, by the names that lead there
from the folder (`mem_filesBelow_iff`, `Proper.nodup_filesBelow`), and the absolute path of a place
leads to what is there (`Disk.find_render`).
-/

namespace AssetRefs

namespace FileTree

/-- A tree in which the entries of every folder have names that differ from each other. -/
inductive Proper : FileTree → Prop where
  | file (content : FileContent) : Proper (.file content)
  | folder {entries : List (String × FileTree)} (distinct : (entries.map Prod.fst).Nodup)
      (names : Location.Resolved (entries.map Prod.fst))
      (below : ∀ entry ∈ entries, Proper entry.2) : Proper (.folder entries)

/-- The name of an entry that is in none of the others. -/
def freshName (name : String) (others : List (String × FileTree)) : Bool :=
  name != "" && name != "." && !name.toList.contains '/' && name != ".." &&
    !(others.map Prod.fst).contains name

mutual

/-- Decides whether a tree is proper. -/
def isProper : FileTree → Bool
  | file _ => true
  | folder entries => areProper entries

/-- Decides whether a folder with the given entries is proper. -/
def areProper : List (String × FileTree) → Bool
  | [] => true
  | entry :: rest => freshName entry.1 rest && isProperBelow entry && areProper rest

/-- Decides whether the tree of an entry is proper. -/
def isProperBelow : String × FileTree → Bool
  | (_, tree) => tree.isProper

end

theorem freshName_iff {name : String} {others : List (String × FileTree)} :
    freshName name others ↔ (Route.IsPart name ∧ name ≠ "..") ∧ name ∉ others.map Prod.fst := by
  simp [freshName, Route.IsPart, and_assoc]

theorem proper_folder_nil : (folder []).Proper :=
  .folder List.nodup_nil (List.forall_mem_nil _) (List.forall_mem_nil _)

theorem proper_folder_cons_iff {name : String} {tree : FileTree}
    {rest : List (String × FileTree)} :
    (folder ((name, tree) :: rest)).Proper ↔
      freshName name rest ∧ tree.Proper ∧ (folder rest).Proper := by
  rw [freshName_iff]
  constructor
  · intro proper
    cases proper with
    | folder distinct names below =>
      obtain ⟨absent, distinctRest⟩ := List.nodup_cons.mp distinct
      obtain ⟨named, namesRest⟩ := List.forall_mem_cons.mp names
      obtain ⟨first, belowRest⟩ := List.forall_mem_cons.mp below
      exact ⟨⟨named, absent⟩, first, .folder distinctRest namesRest belowRest⟩
  · rintro ⟨⟨named, absent⟩, first, proper⟩
    cases proper with
    | folder distinct names below =>
      exact .folder (List.nodup_cons.mpr ⟨absent, distinct⟩)
        (List.forall_mem_cons.mpr ⟨named, names⟩) (List.forall_mem_cons.mpr ⟨first, below⟩)

mutual

theorem isProper_iff (tree : FileTree) : tree.isProper ↔ tree.Proper := by
  cases tree with
  | file content => simp [isProper, Proper.file]
  | folder entries => rw [isProper, areProper_iff entries]
termination_by sizeOf tree

theorem areProper_iff (entries : List (String × FileTree)) :
    areProper entries ↔ (folder entries).Proper := by
  cases entries with
  | nil => simp [areProper, proper_folder_nil]
  | cons entry rest =>
    obtain ⟨name, tree⟩ := entry
    simp [areProper, isProperBelow, proper_folder_cons_iff, isProper_iff tree, areProper_iff rest,
      and_assoc]
termination_by sizeOf entries

end

instance (tree : FileTree) : Decidable tree.Proper := decidable_of_iff _ (isProper_iff tree)

variable {enter : String → Bool} {entries : List (String × FileTree)} {tree : FileTree}

/-! ## Entries -/

theorem mem_of_below? {name : String} (found : (folder entries).below? name = some tree) :
    (name, tree) ∈ entries := by
  obtain ⟨⟨other, _⟩, present, rfl⟩ := Option.map_eq_some_iff.mp found
  have same : other = name := by simpa using List.find?_some present
  exact same ▸ List.mem_of_find?_eq_some present

theorem below?_of_mem (distinct : (entries.map Prod.fst).Nodup) {name : String}
    (member : (name, tree) ∈ entries) : (folder entries).below? name = some tree := by
  induction entries with
  | nil => cases member
  | cons entry rest ih =>
    obtain ⟨absent, distinctRest⟩ := List.nodup_cons.mp distinct
    rcases List.mem_cons.mp member with rfl | later
    · simp [below?]
    · have different : entry.1 ≠ name := by
        rintro rfl
        exact absent (List.mem_map.mpr ⟨_, later, rfl⟩)
      simpa [below?, different] using ih distinctRest later

namespace Proper

theorem below? (proper : tree.Proper) {name : String} {below : FileTree}
    (found : tree.below? name = some below) :
    (Route.IsPart name ∧ name ≠ "..") ∧ below.Proper := by
  cases proper with
  | file => cases found
  | folder _ names inside =>
    have member := mem_of_below? found
    exact ⟨names name (List.mem_map.mpr ⟨_, member, rfl⟩), inside _ member⟩

theorem at? (proper : tree.Proper) {path : List String} {target : FileTree}
    (found : tree.at? path = some target) :
    (∀ name ∈ path, Route.IsPart name ∧ name ≠ "..") ∧ target.Proper := by
  induction path generalizing tree with
  | nil =>
    cases found
    exact ⟨List.forall_mem_nil _, proper⟩
  | cons name rest ih =>
    rw [FileTree.at?] at found
    split at found
    · next below present =>
      obtain ⟨named, properBelow⟩ := proper.below? present
      obtain ⟨namedRest, properTarget⟩ := ih properBelow found
      exact ⟨List.forall_mem_cons.mpr ⟨named, namedRest⟩, properTarget⟩
    · cases found

end Proper

theorem at?_append (tree : FileTree) (first second : List String) :
    tree.at? (first ++ second) = (tree.at? first).bind fun below => below.at? second := by
  induction first generalizing tree with
  | nil => rfl
  | cons name rest ih =>
    rw [List.cons_append, at?, at?]
    cases tree.below? name with
    | none => rfl
    | some below => exact ih below

/-! ## Files below a folder -/

theorem mem_filesAmong_iff {path : List String} :
    path ∈ filesAmong enter entries ↔ ∃ name below, (name, below) ∈ entries ∧
      ((∃ content, below = .file content ∧ path = [name]) ∨
        ∃ rest ∈ below.filesBelow enter, enter name ∧ path = name :: rest) := by
  induction entries with
  | nil => simp [filesAmong]
  | cons entry others ih =>
    obtain ⟨name, content | inner⟩ := entry
    · simp only [filesAmong, List.mem_cons, ih, Prod.mk.injEq]
      constructor
      · rintro (rfl | ⟨other, below, later, leads⟩)
        · exact ⟨name, .file content, .inl ⟨rfl, rfl⟩, .inl ⟨content, rfl, rfl⟩⟩
        · exact ⟨other, below, .inr later, leads⟩
      · rintro ⟨other, below, ⟨rfl, rfl⟩ | later, leads⟩
        · rcases leads with ⟨_, _, rfl⟩ | ⟨rest, inside, _⟩
          · exact .inl rfl
          · simp [filesBelow] at inside
        · exact .inr ⟨other, below, later, leads⟩
    · simp only [filesAmong, List.mem_append, List.mem_cons, ih, Prod.mk.injEq]
      constructor
      · rintro (inside | ⟨other, below, later, leads⟩)
        · split_ifs at inside with entered
          · obtain ⟨rest, member, rfl⟩ := List.mem_map.mp inside
            exact ⟨name, .folder inner, .inl ⟨rfl, rfl⟩, .inr ⟨rest, member, entered, rfl⟩⟩
          · cases inside
        · exact ⟨other, below, .inr later, leads⟩
      · rintro ⟨other, below, ⟨rfl, rfl⟩ | later, leads⟩
        · rcases leads with ⟨_, isFile, _⟩ | ⟨rest, inside, entered, rfl⟩
          · cases isFile
          · exact .inl (by simpa [entered, filesBelow] using inside)
        · exact .inr ⟨other, below, later, leads⟩

/-- The walk comes to a file by the names that lead to it, if it enters all folders on the way. -/
theorem mem_filesBelow_iff (proper : tree.Proper) {path : List String} :
    path ∈ tree.filesBelow enter ↔ path ≠ [] ∧ (∃ content, tree.at? path = some (.file content)) ∧
      ∀ name ∈ path.dropLast, enter name := by
  induction proper generalizing path with
  | file content =>
    cases path with
    | nil => simp [filesBelow]
    | cons name rest => simp [filesBelow, at?, FileTree.below?]
  | @folder entries distinct _ _ ih =>
    rw [filesBelow, mem_filesAmong_iff]
    constructor
    · rintro ⟨name, below, member, ⟨content, rfl, rfl⟩ | ⟨rest, inside, entered, rfl⟩⟩
      · refine ⟨by simp, ⟨content, ?_⟩, by simp⟩
        simp [at?, below?_of_mem distinct member]
      · obtain ⟨nonempty, ⟨content, leads⟩, enters⟩ := (ih _ member).mp inside
        refine ⟨by simp, ⟨content, ?_⟩, ?_⟩
        · simpa [at?, below?_of_mem distinct member] using leads
        · rw [List.dropLast_cons_of_ne_nil nonempty]
          exact List.forall_mem_cons.mpr ⟨entered, enters⟩
    · rintro ⟨nonempty, ⟨content, leads⟩, enters⟩
      obtain ⟨name, rest, rfl⟩ := List.exists_cons_of_ne_nil nonempty
      rw [at?] at leads
      split at leads
      · next below present =>
        have member := mem_of_below? present
        refine ⟨name, below, member, ?_⟩
        cases rest with
        | nil => exact .inl ⟨content, Option.some.inj leads, rfl⟩
        | cons next more =>
          rw [List.dropLast_cons_of_ne_nil (by simp)] at enters
          obtain ⟨entered, entersRest⟩ := List.forall_mem_cons.mp enters
          exact .inr ⟨_, (ih _ member).mpr ⟨by simp, ⟨content, leads⟩, entersRest⟩, entered, rfl⟩
      · cases leads

theorem nodup_filesAmong (distinct : (entries.map Prod.fst).Nodup)
    (each : ∀ entry ∈ entries, (entry.2.filesBelow enter).Nodup) :
    (filesAmong enter entries).Nodup := by
  induction entries with
  | nil => simp [filesAmong]
  | cons entry others ih =>
    obtain ⟨absent, distinctRest⟩ := List.nodup_cons.mp distinct
    obtain ⟨first, rest⟩ := List.forall_mem_cons.mp each
    -- What is found in the other entries starts with another name.
    have apart {path : List String} (later : path ∈ filesAmong enter others) :
        path.head? ≠ some entry.1 := by
      obtain ⟨name, below, member, leads⟩ := mem_filesAmong_iff.mp later
      have other : name ≠ entry.1 := by
        rintro rfl
        exact absent (List.mem_map.mpr ⟨_, member, rfl⟩)
      rcases leads with ⟨_, _, rfl⟩ | ⟨_, _, _, rfl⟩
      · simpa using other
      · simpa using other
    obtain ⟨name, content | inner⟩ := entry
    · rw [filesAmong]
      exact List.nodup_cons.mpr ⟨fun later => apart later rfl, ih distinctRest rest⟩
    · rw [filesAmong]
      refine List.nodup_append.mpr ⟨?_, ih distinctRest rest, ?_⟩
      · split_ifs
        · exact first.map (List.cons_injective)
        · exact List.nodup_nil
      · rintro path inside _ later rfl
        split_ifs at inside
        · obtain ⟨_, _, rfl⟩ := List.mem_map.mp inside
          exact apart later rfl
        · cases inside

/-- The walk comes to no file twice. -/
theorem Proper.nodup_filesBelow (proper : tree.Proper) : (tree.filesBelow enter).Nodup := by
  induction proper with
  | file => exact List.nodup_nil
  | folder distinct _ _ ih => exact nodup_filesAmong distinct ih

end FileTree

/-! ## Absolute paths -/

namespace Disk

theorem at?_append (disk : Disk) (below folder : Location) :
    disk.at? (below ++ folder) = (disk.at? folder).bind fun tree => tree.at? below.reverse := by
  rw [at?, List.reverse_append, FileTree.at?_append]
  rfl

theorem resolved_of_at? {disk : Disk} (proper : disk.root.Proper) {location : Location}
    {tree : FileTree} (found : disk.at? location = some tree) : location.Resolved := by
  intro name member
  exact (proper.at? found).1 name (List.mem_reverse.mpr member)

theorem foldlM_follow_of_at? {parts : List String}
    (named : ∀ part ∈ parts, Route.IsPart part ∧ part ≠ "..") {tree target : FileTree}
    (found : tree.at? parts = some target) (above : List FileTree) :
    ∃ trail, parts.foldlM follow (tree :: above) = .ok (target :: trail) := by
  induction parts generalizing tree above with
  | nil =>
    cases found
    exact ⟨above, rfl⟩
  | cons part rest ih =>
    obtain ⟨⟨⟨nonempty, undotted, _⟩, down⟩, namedRest⟩ := List.forall_mem_cons.mp named
    rw [FileTree.at?] at found
    split at found
    · next below present =>
      have followed : follow (tree :: above) part = .ok (below :: tree :: above) := by
        cases tree with
        | file => cases present
        | folder entries => simp [follow, nonempty, undotted, down, present]
      obtain ⟨trail, ended⟩ := ih namedRest found (tree :: above)
      refine ⟨trail, ?_⟩
      rw [List.foldlM_cons, followed]
      exact ended
    · cases found

/-- The absolute path of a place leads to what is there. -/
theorem find_render {disk : Disk} {location : Location} (resolved : location.Resolved)
    (names : location ≠ []) {tree : FileTree} (found : disk.at? location = some tree) :
    disk.find location.render = .ok tree := by
  have named : ∀ part ∈ location.reverse, Route.IsPart part ∧ part ≠ ".." :=
    fun part member => resolved part (List.mem_reverse.mp member)
  have split : Route.components location.render = "" :: location.reverse := by
    rw [Location.render, Route.components_slash, Route.components_intercalate (by simpa using names)
      fun part member => (named part member).1.2.2]
  obtain ⟨trail, followed⟩ := foldlM_follow_of_at? named found []
  -- The root is a folder, since there is something below it.
  have start : follow [disk.root] "" = .ok [disk.root] := by
    obtain ⟨name, rest, reversed⟩ := List.exists_cons_of_ne_nil (List.reverse_ne_nil_iff.mpr names)
    rw [at?, reversed, FileTree.at?] at found
    cases tree : disk.root with
    | file => simp [tree, FileTree.below?] at found
    | folder => rfl
  have whole : (Route.components location.render).foldlM follow [disk.root] =
      .ok (tree :: trail) := by
    rw [split, List.foldlM_cons, start]
    exact followed
  have rooted : location.render.toList.head? = some '/' := by simp [Location.render]
  have nonempty : location.render ≠ "" := fun empty => by simp [empty] at rooted
  simp [find, rooted, nonempty, Except.bind, whole]

theorem hasFile_iff {disk : Disk} {location : Location} :
    disk.hasFile location ↔ ∃ content, disk.at? location = some (.file content) := by
  unfold hasFile
  rcases disk.at? location with _ | content | entries
  · simp
  · simp [FileTree.isFile]
  · simp [FileTree.isFile]

/-- There is nothing below a file. -/
theorem hasFile_eq_false_of_cons {disk : Disk} {name : String} {folder : Location}
    (present : disk.hasFile (name :: folder)) : disk.hasFile folder = false := by
  obtain ⟨content, found⟩ := hasFile_iff.mp present
  rw [← List.singleton_append, at?_append] at found
  unfold hasFile
  rcases placed : disk.at? folder with _ | content | entries
  · rfl
  · simp [placed, FileTree.at?, FileTree.below?] at found
  · rfl

end Disk

end AssetRefs
