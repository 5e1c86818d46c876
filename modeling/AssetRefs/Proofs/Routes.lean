import AssetRefs.Files.Tree
import AssetRefs.Proofs.CanonicalPaths

/-! # Written routes and the places they lead to

A route is read from text and written again. Reading undoes writing (`Route.ofString_render`), so
the place that a written route leads to can be told from its components, and a place is reached by
its absolute path. Without `..`, a route leads down along its components and nowhere else.
-/

namespace AssetRefs

theorem Text.pieces_eq_splitOn (separator : Char) (chars : List Char) :
    pieces separator chars = chars.splitOn separator := by
  induction chars with
  | nil => rfl
  | cons c rest ih =>
    rw [pieces, ih]
    unfold List.splitOn
    rw [List.splitOnP_cons_eq_if_modifyHead]
    by_cases same : c = separator
    · simp [same]
    · cases split : rest.splitOnP (· == separator) with
      | nil => exact absurd split (List.splitOnP_ne_nil _ _)
      | cons piece more => simp [same]

namespace Route

/-- A component that a route can have. -/
def IsPart (part : String) : Prop := part ≠ "" ∧ part ≠ "." ∧ '/' ∉ part.toList

/-- A route as it can be read. -/
structure WellFormed (route : Route) : Prop where
  root : route.root = "" ∨ route.root = "/" ∨ route.root = "//"
  parts : ∀ part ∈ route.parts, IsPart part

theorem mem_components {text part : String} (member : part ∈ components text) :
    '/' ∉ part.toList := by
  obtain ⟨piece, inside, rfl⟩ := List.mem_map.mp member
  rw [String.toList_ofList]
  exact (Text.mem_pieces inside).1

theorem ofString_wellFormed (text : String) : (ofString text).WellFormed where
  root := by
    simp only [ofString]
    split_ifs
    · exact .inl rfl
    · exact .inr (.inr rfl)
    · exact .inr (.inl rfl)
  parts part member := by
    obtain ⟨component, kept⟩ := List.mem_filter.mp member
    rw [Bool.and_eq_true, bne_iff_ne, bne_iff_ne] at kept
    exact ⟨kept.1, kept.2, mem_components component⟩

/-! ## Reading undoes writing -/

theorem components_slash (text : String) : components ("/" ++ text) = "" :: components text := by
  simp [components, Text.pieces]

theorem components_intercalate {parts : List String} (names : parts ≠ [])
    (apart : ∀ part ∈ parts, '/' ∉ part.toList) :
    components (String.intercalate "/" parts) = parts := by
  have split : List.splitOn '/' (String.intercalate "/" parts).toList =
      parts.map String.toList := by
    rw [String.toList_intercalate]
    exact List.splitOn_intercalate '/' (by simpa using apart) (by simpa using names)
  rw [components, Text.pieces_eq_splitOn, split, List.map_map]
  simp

/-- No component is lost between slashes. -/
theorem filter_components_intercalate {parts : List String} (formed : ∀ part ∈ parts, IsPart part) :
    (components (String.intercalate "/" parts)).filter (fun part => part != "" && part != ".") =
      parts := by
  rcases parts with _ | ⟨part, rest⟩
  · rfl
  · rw [components_intercalate (by simp) fun part member => (formed part member).2.2]
    refine List.filter_eq_self.mpr fun part member => ?_
    simp [(formed part member).1, (formed part member).2.1]

theorem takeWhile_slash_intercalate {parts : List String} (formed : ∀ part ∈ parts, IsPart part) :
    (String.intercalate "/" parts).toList.takeWhile (· == '/') = [] := by
  rcases parts with _ | ⟨part, rest⟩
  · rfl
  · obtain ⟨nonempty, _, apart⟩ := formed part List.mem_cons_self
    obtain ⟨c, chars, spelled⟩ := List.exists_cons_of_ne_nil
      (fun none => nonempty (String.toList_eq_nil_iff.mp none))
    have other : c ≠ '/' := by
      rintro rfl
      simp [spelled] at apart
    cases rest with
    | nil => simp [spelled, other]
    | cons next more =>
      simp [String.toList_intercalate, spelled, other]

theorem takeWhile_slash_append (text : String) :
    ("/" ++ text).toList.takeWhile (· == '/') = '/' :: text.toList.takeWhile (· == '/') := by
  simp

theorem ofString_render {route : Route} (formed : route.WellFormed) :
    ofString route.render = route := by
  obtain ⟨root, parts⟩ := route
  have kept := filter_components_intercalate formed.parts
  have front := takeWhile_slash_intercalate formed.parts
  rcases formed.root with rfl | rfl | rfl
  · cases parts with
    | nil => decide
    | cons part rest =>
      have written : render ⟨"", part :: rest⟩ = String.intercalate "/" (part :: rest) := by
        simp [render]
      rw [written, ofString, front, kept]
      rfl
  · have written : render ⟨"/", parts⟩ = "/" ++ String.intercalate "/" parts := by simp [render]
    rw [written, ofString, takeWhile_slash_append, front, components_slash,
      List.filter_cons_of_neg (by decide), kept]
    rfl
  · have written : render ⟨"//", parts⟩ = "/" ++ ("/" ++ String.intercalate "/" parts) := by
      rw [← String.append_assoc]
      simp [render]
    rw [written, ofString, takeWhile_slash_append, takeWhile_slash_append, front, components_slash,
      components_slash, List.filter_cons_of_neg (by decide), List.filter_cons_of_neg (by decide),
      kept]
    rfl

end Route

/-! ## Places -/

/-- Every component is the name of a file or a folder. -/
def Location.Resolved (location : Location) : Prop :=
  ∀ name ∈ location, Route.IsPart name ∧ name ≠ ".."

theorem Location.Resolved.ofString_render {location : Location} (resolved : location.Resolved) :
    Route.ofString location.render = ⟨"/", location.reverse⟩ := by
  have formed : Route.WellFormed ⟨"/", location.reverse⟩ :=
    ⟨.inr (.inl rfl), fun name member => (resolved name (List.mem_reverse.mp member)).1⟩
  have written : location.render = Route.render ⟨"/", location.reverse⟩ := by
    simp [Location.render, Route.render]
  rw [written, Route.ofString_render formed]

theorem Location.Resolved.step {location : Location} (resolved : location.Resolved)
    {part : String} (formed : Route.IsPart part) : (location.step part).Resolved := by
  unfold Location.step
  split_ifs with up
  · exact fun name member => resolved name (List.mem_of_mem_tail member)
  · exact List.forall_mem_cons.mpr ⟨⟨formed, up⟩, resolved⟩

namespace Route

variable {route : Route}

/-- From a working directory, a route leads to a place. -/
theorem WellFormed.locate_resolved (formed : route.WellFormed) {here : Location}
    (resolved : here.Resolved) : (route.locate here).Resolved := by
  have along (parts : List String) (each : ∀ part ∈ parts, IsPart part) (start : Location)
      (placed : start.Resolved) : (parts.foldl Location.step start).Resolved := by
    induction parts generalizing start with
    | nil => exact placed
    | cons part rest ih =>
      obtain ⟨first, others⟩ := List.forall_mem_cons.mp each
      exact ih others _ (placed.step first)
  refine along route.parts formed.parts _ ?_
  split_ifs
  · exact resolved
  · exact List.forall_mem_nil _

theorem foldl_step_of_not_mem {parts : List String} (down : ".." ∉ parts) (start : Location) :
    parts.foldl Location.step start = parts.reverse ++ start := by
  induction parts generalizing start with
  | nil => rfl
  | cons part rest ih =>
    rw [List.mem_cons, not_or] at down
    simp [ih down.2, Location.step, Ne.symm down.1]

/-- An absolute route without `..` leads to its components. -/
theorem locate_of_not_mem (absolute : route.root ≠ "") (down : ".." ∉ route.parts)
    (here : Location) : route.locate here = route.parts.reverse := by
  rw [locate, foldl_step_of_not_mem down, if_neg absolute, List.append_nil]

theorem parent_locate_of_not_mem (absolute : route.root ≠ "") (down : ".." ∉ route.parts)
    (here : Location) : route.parent.locate here = route.parts.reverse.tail := by
  have above : ".." ∉ route.parent.parts := fun up => down (List.dropLast_subset _ up)
  have rooted : route.parent.root ≠ "" := absolute
  have located : route.parent.locate here = route.parts.dropLast.reverse :=
    locate_of_not_mem rooted above here
  rw [located, List.tail_reverse]

end Route

/-! ## Paths that lead to something -/

namespace Disk

theorem find_of_read {disk : Disk} {path : String} {content : ByteArray}
    (given : disk.read path = .ok content) : disk.find path = .ok (.file content) := by
  unfold read at given
  split at given
  · next file found =>
    obtain ⟨bytes, readable⟩ := file
    cases readable with
    | false => cases given
    | true =>
      cases given
      exact found
  · cases given
  · cases given

theorem follow_part {tree : FileTree} {above trail : List FileTree} {part : String}
    (formed : Route.IsPart part) (down : part ≠ "..")
    (followed : follow (tree :: above) part = .ok trail) :
    ∃ entries below, tree = .folder entries ∧ tree.below? part = some below ∧
      trail = below :: tree :: above := by
  cases tree with
  | file => cases followed
  | folder entries =>
    simp only [follow, formed.1, formed.2.1, down, decide_false, Bool.or_self, Bool.false_eq_true,
      ↓reduceIte] at followed
    cases found : (FileTree.folder entries).below? part with
    | none => simp [found] at followed
    | some below =>
      simp only [found, Except.ok.injEq] at followed
      exact ⟨entries, below, rfl, rfl, followed.symm⟩

/-- What is found by its names is found in folders. -/
theorem at?_of_foldlM_follow {parts : List String} (formed : ∀ part ∈ parts, Route.IsPart part)
    (down : ".." ∉ parts) {tree : FileTree} {above trail : List FileTree}
    (followed : parts.foldlM follow (tree :: above) = .ok trail) {front : List String}
    (inside : front <+: parts) (proper : front ≠ parts) :
    ∃ entries, tree.at? front = some (.folder entries) := by
  induction parts generalizing tree above front with
  | nil => exact absurd (List.prefix_nil.mp inside) proper
  | cons part rest ih =>
    obtain ⟨first, others⟩ := List.forall_mem_cons.mp formed
    rw [List.mem_cons, not_or] at down
    rw [List.foldlM_cons] at followed
    cases stepped : follow (tree :: above) part with
    | error =>
      rw [stepped] at followed
      cases followed
    | ok next =>
      obtain ⟨entries, below, rfl, found, rfl⟩ := follow_part first (Ne.symm down.1) stepped
      cases front with
      | nil => exact ⟨entries, rfl⟩
      | cons name front =>
        obtain ⟨rfl, deeper⟩ := List.cons_prefix_cons.mp inside
        rw [stepped] at followed
        rw [FileTree.at?, found]
        exact ih others down.2 followed deeper fun same => proper (by rw [same])

theorem foldlM_follow_of_slash {parts : List String} {trail last : List FileTree}
    (followed : ("" :: parts).foldlM follow trail = .ok last) :
    parts.foldlM follow trail = .ok last := by
  rw [List.foldlM_cons] at followed
  cases trail with
  | nil => cases followed
  | cons tree above =>
    cases tree with
    | file => cases followed
    | folder entries => exact followed

theorem foldlM_follow_of_find {disk : Disk} {route : Route} (formed : route.WellFormed)
    (absolute : route.root ≠ "") (names : route.parts ≠ []) {tree : FileTree}
    (found : disk.find route.render = .ok tree) :
    ∃ trail, route.parts.foldlM follow [disk.root] = .ok trail := by
  have split := Route.components_intercalate names fun part member => (formed.parts part member).2.2
  have followed (rooted : route.render.toList.head? = some '/') :
      ∃ trail, (Route.components route.render).foldlM follow [disk.root] = .ok trail := by
    have nonempty : route.render ≠ "" := fun empty => by simp [empty] at rooted
    simp only [find, rooted, nonempty, ↓reduceIte] at found
    cases ended : (Route.components route.render).foldlM follow [disk.root] with
    | error => simp [Except.bind, ended] at found
    | ok trail => exact ⟨trail, rfl⟩
  rcases formed.root with root | root | root
  · exact absurd root absolute
  · have written : route.render = "/" ++ String.intercalate "/" route.parts := by
      simp [Route.render, root]
    obtain ⟨trail, followed⟩ := followed (by simp [written])
    rw [written, Route.components_slash, split] at followed
    exact ⟨trail, foldlM_follow_of_slash followed⟩
  · have written : route.render = "/" ++ ("/" ++ String.intercalate "/" route.parts) := by
      rw [← String.append_assoc]
      simp [Route.render, root]
    obtain ⟨trail, followed⟩ := followed (by simp [written])
    rw [written, Route.components_slash, Route.components_slash, split] at followed
    exact ⟨trail, foldlM_follow_of_slash (foldlM_follow_of_slash followed)⟩

/-- Above what an absolute route without `..` leads to, there are folders only. -/
theorem hasFile_of_find {disk : Disk} {route : Route} (formed : route.WellFormed)
    (absolute : route.root ≠ "") (down : ".." ∉ route.parts) {tree : FileTree}
    (found : disk.find route.render = .ok tree) {front : List String}
    (inside : front <+: route.parts) (proper : front ≠ route.parts) :
    disk.hasFile front.reverse = false := by
  have names : route.parts ≠ [] := by
    intro none
    rw [none] at inside proper
    exact proper (List.prefix_nil.mp inside)
  obtain ⟨trail, followed⟩ := foldlM_follow_of_find formed absolute names found
  obtain ⟨entries, folder⟩ := at?_of_foldlM_follow formed.parts down followed inside proper
  simp [hasFile, at?, folder, FileTree.isFile]

end Disk

end AssetRefs
