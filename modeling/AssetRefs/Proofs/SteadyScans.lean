import AssetRefs.Proofs.LiteralTokens
import AssetRefs.Proofs.PackageScans
import AssetRefs.Proofs.WellFormedTables

/-! # Steady scans

Let the trees that a parser gives be intact, as those of our own parser are. Then a source that can
be parsed is scanned to a result, whatever it says: its tree is lowered unless it is nested too
deep, and no literal in the lowered tree can stop the scan. See `SourceReader.KeepsIntact.steady`.
-/

namespace AssetRefs

open Lowering

/-! ## Intact trees -/

/-- A tree in which every node has the parts that its kind needs, and every literal the digits that
its escapes need. -/
structure Concrete.Intact (source : ByteArray) (tree : Concrete) : Prop where
  complete : ∀ part, tree.Contains part → part.shape.isComplete
  digits : ∀ part, tree.Contains part → part.shape = .literal →
    ¬ GoString.LacksHexDigits (part.text source)

theorem Concrete.Intact.of_contains {source : ByteArray} {tree part : Concrete}
    (intact : tree.Intact source) (contained : tree.Contains part) : part.Intact source where
  complete inner below := intact.complete inner (contained.trans below)
  digits inner below := intact.digits inner (contained.trans below)

theorem Concrete.Sound.intact {source : ByteArray} {tree : Concrete} (sound : tree.Sound source) :
    tree.Intact source where
  complete _ contained := (sound.of_contains contained).isComplete
  digits _ contained := (sound.of_contains contained).not_lacksHexDigits

/-- The parser gives an intact tree, or one that tells of a syntax error. -/
def SourceReader.KeepsIntact (reader : SourceReader) : Prop :=
  ∀ source root, reader.parse source = some root → root.label.erroneous = false →
    root.Intact source

theorem SourceReader.keepsIntact_of_parse? (limit : Nat) :
    SourceReader.KeepsIntact { parse := Go.parse?, limit } :=
  fun _ _ parsed _ => (Go.sound_of_parse? parsed).intact

/-! ## Lowering intact trees -/

/-- Whatever the lowering gives has the property. -/
def Lowering.Ends {α : Type} (step : Lowering α) (holds : α → Prop) : Prop :=
  ∀ value events, step.Gives value events → holds value

theorem Lowering.ends_pure {α : Type} {holds : α → Prop} {value : α} (here : holds value) :
    (pure value : Lowering α).Ends holds := by
  intro other events gives
  rw [(gives_pure_iff.mp gives).1]
  exact here

theorem Lowering.Ends.bind {α β : Type} {step : Lowering α} {next : α → Lowering β}
    {holds : α → Prop} {after : β → Prop} (first : step.Ends holds)
    (later : ∀ value, holds value → (next value).Ends after) : (step >>= next).Ends after := by
  intro result events gives
  obtain ⟨value, _, _, given, ended, _⟩ := gives_bind_iff.mp gives
  exact later value (first value _ given) _ _ ended

theorem Lowering.ends_bind {α β : Type} {step : Lowering α} {next : α → Lowering β}
    {after : β → Prop} (later : ∀ value, (next value).Ends after) : (step >>= next).Ends after :=
  have anything : step.Ends fun _ => True := fun _ _ _ => trivial
  anything.bind fun value _ => later value

namespace Node

/-- The node is no literal. -/
def NotLiteral (node : Node) : Prop := ∀ site raw, node ≠ .literal site raw

/-- No literal of the tree lacks digits. -/
def Legible (root : Node) : Prop :=
  ∀ site raw, root.Contains (.literal site raw) → ¬ GoString.LacksHexDigits raw

theorem legible_identNode (source : ByteArray) (tree : Concrete) :
    (tree.identNode source).Legible := by
  intro site raw contained
  rcases contains_iff.mp contained with same | ⟨_, ⟨⟩, _⟩
  cases same

end Node

section

variable {source : ByteArray} {lower : Address → Concrete → Lowering Node} {place : Address}
  {tree : Concrete}

theorem notLiteral_of_lowerGeneric : (lowerGeneric lower place tree).Ends Node.NotLiteral := by
  rw [lowerGeneric_eq]
  exact ends_bind fun _ => ends_bind fun _ => ends_bind fun _ => ends_pure nofun

theorem notLiteral_of_lowerShape (unlike : tree.shape ≠ .literal)
    (whole : ∀ inner, tree.shape ≠ .wrapper inner) :
    (lowerShape source lower place tree).Ends Node.NotLiteral := by
  unfold lowerShape
  generalize tree.shape = shape at unlike whole
  cases shape with
  | literal => exact absurd rfl unlike
  | wrapper inner => exact absurd rfl (whole inner)
  | name => exact ends_bind fun _ => ends_pure nofun
  | call =>
    exact ends_bind fun _ => ends_bind fun _ => ends_bind fun _ => ends_pure nofun
  | selector => exact ends_bind fun _ => ends_bind fun _ => ends_pure nofun
  | composite => exact ends_bind fun _ => ends_bind fun _ => ends_pure nofun
  | keyed parts =>
    dsimp only
    split
    · exact ends_bind fun _ => ends_bind fun _ => ends_pure nofun
    · exact nofun
  | closure =>
    refine ends_bind fun _ => notLiteral_of_lowerGeneric.bind fun node other => ?_
    exact ends_bind fun _ => ends_pure other
  | statement => exact ends_bind fun _ => ends_pure nofun
  | define =>
    exact ends_bind fun _ => ends_bind fun _ => ends_bind fun _ => ends_bind fun _ =>
      ends_pure nofun
  | assign => exact ends_bind fun _ => ends_bind fun _ => ends_pure nofun
  | block => exact ends_bind fun _ => ends_bind fun _ => ends_bind fun _ => ends_pure nofun
  | binder =>
    exact ends_bind fun _ => ends_bind fun _ => ends_bind fun _ => ends_pure nofun
  | typeSwitch => exact ends_bind fun _ => ends_bind fun _ => ends_bind fun _ => ends_pure nofun
  | packageClause => exact ends_bind fun _ => notLiteral_of_lowerGeneric
  | group => exact ends_bind fun _ => ends_pure nofun
  | valueSpec =>
    exact ends_bind fun _ => ends_bind fun _ => ends_bind fun _ => ends_pure nofun
  | function declares name signature body =>
    cases name <;> cases body
    all_goals
      repeat refine ends_bind fun _ => ?_
      exact ends_pure nofun
  | parameter => exact ends_bind fun _ => ends_bind fun _ => ends_pure nofun
  | shapeless => exact notLiteral_of_lowerGeneric

/-- A node is lowered to a literal only if it is one, or stands for its only part. -/
theorem literal_of_lowerShape {site : Site} {raw : String} {events : List ScopeEvent}
    (gives : (lowerShape source lower place tree).Gives (.literal site raw) events) :
    tree.shape = .literal ∧ raw = tree.text source ∨
      ∃ inner, tree.shape = .wrapper inner ∧
        (lower place inner).Gives (.literal site raw) events := by
  by_cases literal : tree.shape = .literal
  · rw [lowerShape, literal] at gives
    obtain ⟨same, _⟩ := gives_pure_iff.mp gives
    cases same
    exact .inl ⟨literal, rfl⟩
  · by_cases wrapper : ∃ inner, tree.shape = .wrapper inner
    · obtain ⟨inner, wraps⟩ := wrapper
      rw [lowerShape, wraps] at gives
      exact .inr ⟨inner, wraps, gives⟩
    · push Not at wrapper
      exact (notLiteral_of_lowerShape literal wrapper _ _ gives site raw rfl).elim

end

theorem forall_mem_of_forall₂ {α β : Type} {holds : β → Prop} {first : List α} {second : List β}
    (related : List.Forall₂ (fun _ value => holds value) first second) :
    ∀ value ∈ second, holds value := by
  induction related with
  | nil => exact List.forall_mem_nil _
  | cons here _ ih => exact List.forall_mem_cons.mpr ⟨here, ih⟩

/-- An intact tree is lowered, and no literal of the lowered tree lacks digits. -/
theorem Concrete.Intact.yields_legible {source : ByteArray} {tree : Concrete}
    (intact : tree.Intact source) (place : Address) :
    (lowerFully source place tree).Yields Node.Legible := by
  induction size : tree.weight using Nat.strongRecOn generalizing tree place with
  | ind size ih =>
    subst size
    have below {part : Concrete} (enclosed : tree.Encloses part) (place : Address) :
        (lowerFully source place part).Yields Node.Legible :=
      ih part.weight enclosed.weight_lt (intact.of_contains enclosed.contains) place rfl
    have lowered : ∀ part ∈ tree.operands, ∀ place,
        (lowerFully source place part).Yields Node.Legible :=
      fun part member => below (encloses_of_mem_operands member)
    obtain ⟨node, events, given, assembled⟩ := yields_lowerFully place (intact.complete _ .self)
      lowered fun part _ _ => Node.legible_identNode source part
    refine ⟨node, events, given, ?_⟩
    rcases assembled with ⟨_, _, legible⟩ | ⟨_, children⟩
    · exact legible
    · intro site raw contained
      rcases Node.contains_iff.mp contained with rfl | ⟨child, member, inside⟩
      · rw [lowerFully_eq] at given
        rcases literal_of_lowerShape given with ⟨literal, rfl⟩ | ⟨inner, wraps, lowered⟩
        · exact intact.digits _ .self literal
        · have enclosed : tree.Encloses inner :=
            encloses_of_mem_shape (by simp [wraps, Shape.members])
          obtain ⟨_, _, same, legible⟩ := below enclosed place
          cases same.symm.trans lowered
          exact legible site raw .self
      · exact forall_mem_of_forall₂ children child member site raw inside

/-! ## Scanning lowered files -/

section

variable {source : ByteArray} {path : String} {root : Concrete} {limit : Nat} {tree : SyntaxTree}

/-- The declarations that the names of a lowered file refer to are nodes of its tree. -/
theorem within_of_lowerFile (lowered : lowerFile source path root limit = .ok tree) :
    tree.bindings.Within tree.root := by
  unfold lowerFile at lowered
  split at lowered
  · cases lowered
  · next node events lowers =>
    cases lowered
    intro offset place target found
    have coherent := coherent_of_lower lowers
    have traced := (NameState.Traced.initial events).replay coherent fun _ member => member
    obtain ⟨_, _, _, told⟩ := (traced.finish coherent).2 _ _ found
    exact Node.contains_of_at? (declaration_of_told lowers told).1

theorem Concrete.Intact.lowerFile (intact : root.Intact source) (path : String) (limit : Nat) :
    lowerFile source path root limit = .error .tooDeep ∨
      ∃ tree, AssetRefs.lowerFile source path root limit = .ok tree ∧ tree.root.Legible := by
  obtain ⟨node, events, given, legible⟩ := intact.yields_legible []
  unfold AssetRefs.lowerFile
  rcases lower_cutOff source limit [] root with cut | same
  · rw [cut]
    exact .inl rfl
  · rw [same, given]
    exact .inr ⟨_, rfl, legible⟩

/-- A tree without literals that lack digits is scanned to a result. -/
theorem exists_scanTree_of_legible (context : ScanContext) (within : tree.bindings.Within tree.root)
    (legible : tree.root.Legible) : ∃ result, scanTree context tree = .ok result := by
  have returns : ∀ node ∈ tree.root.walk, VisitReturns context tree node := by
    intro node walked
    by_contra stops
    obtain ⟨raw, site, reached, lacking⟩ := exists_lacksHexDigits_of_not_visitReturns stops
    obtain ⟨⟨spot, position⟩, _⟩ :=
      ScanTask.InTree.of_reachable within (Node.mem_walk_iff.mp walked) reached
    exact legible spot raw position.contains lacking
  obtain ⟨paths, errors, completed⟩ := exists_scanTree_eq_ok returns
  exact ⟨_, completed⟩

/-- A source is refused with an error about it, or it has a tree that is scanned to a result. -/
theorem SourceReader.KeepsIntact.parseSource {reader : SourceReader} (intact : reader.KeepsIntact)
    (source : ByteArray) (path : String) :
    (∃ error, parseSource source path reader = .error (.source error)) ∨
      ∃ tree, AssetRefs.parseSource source path reader = .ok tree ∧
        ∀ context, ∃ result, scanTree context tree = .ok result := by
  unfold AssetRefs.parseSource
  cases parsed : reader.parse source with
  | none => exact .inl ⟨_, rfl⟩
  | some root =>
    dsimp only [loadTree]
    split_ifs with flagged
    · exact .inl ⟨_, rfl⟩
    · have whole := intact source root parsed (Bool.eq_false_iff.mpr flagged)
      rcases whole.lowerFile path reader.limit with deep | ⟨tree, lowered, legible⟩
      · rw [deep]
        exact .inl ⟨_, rfl⟩
      · rw [lowered]
        exact .inr ⟨tree, rfl, fun context =>
          exists_scanTree_of_legible context (within_of_lowerFile lowered) legible⟩

end

/-! ## Files that cannot be loaded -/

/-- The file at the path cannot be read or parsed, with the given error. -/
inductive Disk.Refuses (disk : Disk) (reader : SourceReader) (path : String) :
    SourceError → Prop where
  | unread {error : FileError} (failed : disk.read path = .error error) :
      Refuses disk reader path { path, message := error.message }
  /-- The parser gives no tree. -/
  | unparsed {source : ByteArray} (read : disk.read path = .ok source)
      (none : reader.parse source = none) :
      Refuses disk reader path { path, message := "syntax error" }
  /-- The parser gives a tree that tells where the syntax error is. -/
  | erroneous {source : ByteArray} {root : Concrete} (read : disk.read path = .ok source)
      (parsed : reader.parse source = some root) (flagged : root.label.erroneous = true) :
      Refuses disk reader path (syntaxErrorAt path root)
  | tooDeep {source : ByteArray} {root : Concrete} (read : disk.read path = .ok source)
      (parsed : reader.parse source = some root) (unflagged : root.label.erroneous = false)
      (deep : lowerFile source path root reader.limit = .error .tooDeep) :
      Refuses disk reader path ⟨path, "expression nesting too deep", some 1, some 1⟩

theorem loadTree_eq_source_iff {source : ByteArray} {path : String} {root : Concrete} {limit : Nat}
    {error : SourceError} :
    loadTree source path root limit = .error (.source error) ↔
      root.label.erroneous = true ∧ syntaxErrorAt path root = error ∨
      root.label.erroneous = false ∧ lowerFile source path root limit = .error .tooDeep ∧
        ⟨path, "expression nesting too deep", some 1, some 1⟩ = error := by
  unfold loadTree
  split_ifs with flagged
  · simp [flagged]
  · split
    · next lowered => simp [flagged, lowered]
    · next deep => simp [flagged, deep]
    · next other failed => simpa [flagged, failed] using fun deep => (other deep).elim

theorem scanJob_outcome_ne_load {context : ScanContext} {tree : SyntaxTree} {error : LoadError} :
    (scanJob context tree).outcome ≠ .error (.load error) := by
  unfold scanJob
  rcases ({} : Session).run context tree with ⟨session, reason | result⟩
  · simp
  · simp

section

variable {disk : Disk} {context : ScanContext} {reader : SourceReader} {error : SourceError}

theorem scanFile_outcome_eq_source_iff_of_read {source : ByteArray}
    (read : disk.read context.file = .ok source) :
    (scanFile disk context reader).outcome = .error (.load (.source error)) ↔
      parseSource source context.file reader = .error (.source error) := by
  simp only [scanFile, read, Job.write_andThen_outcome, Job.andThen_outcome_eq_error_iff,
    Job.ofExcept_outcome_eq_error_iff, scanJob_outcome_ne_load, and_false, exists_false, or_false,
    Failure.load.injEq, exists_eq_right']

/-- A scan of a file ends with an error about the file exactly if the file cannot be loaded. -/
theorem scanFile_outcome_eq_source_iff :
    (scanFile disk context reader).outcome = .error (.load (.source error)) ↔
      disk.Refuses reader context.file error := by
  constructor
  · intro failed
    cases read : disk.read context.file with
    | error =>
      simp only [scanFile, read, Job.fail, Except.error.injEq, Failure.load.injEq,
        LoadError.source.injEq] at failed
      exact failed ▸ .unread read
    | ok source =>
      rw [scanFile_outcome_eq_source_iff_of_read read, parseSource] at failed
      cases parsed : reader.parse source with
      | none =>
        simp only [parsed, Except.error.injEq, LoadError.source.injEq] at failed
        exact failed ▸ .unparsed read parsed
      | some root =>
        simp only [parsed] at failed
        rcases loadTree_eq_source_iff.mp failed with ⟨flagged, rfl⟩ | ⟨unflagged, deep, rfl⟩
        · exact .erroneous read parsed flagged
        · exact .tooDeep read parsed unflagged deep
  · intro refuses
    cases refuses with
    | unread failed => simp [scanFile, failed, Job.fail]
    | unparsed read none => simp [scanFile_outcome_eq_source_iff_of_read read, parseSource, none]
    | erroneous read parsed flagged =>
      rw [scanFile_outcome_eq_source_iff_of_read read, parseSource, parsed]
      exact loadTree_eq_source_iff.mpr (.inl ⟨flagged, rfl⟩)
    | tooDeep read parsed unflagged deep =>
      rw [scanFile_outcome_eq_source_iff_of_read read, parseSource, parsed]
      exact loadTree_eq_source_iff.mpr (.inr ⟨unflagged, deep, rfl⟩)

end

/-! ## Scanning files -/

/-- The scan of a file fails only if the file cannot be read or parsed. -/
def IsSteady (disk : Disk) (context : ScanContext) (reader : SourceReader) : Prop :=
  ∀ failure, (scanFile disk context reader).outcome = .error failure →
    ∃ error, failure = .load (.source error)

theorem SourceReader.KeepsIntact.steady {reader : SourceReader} (intact : reader.KeepsIntact)
    (disk : Disk) (context : ScanContext) : IsSteady disk context reader := by
  intro failure failed
  cases read : disk.read context.file with
  | error =>
    simp only [scanFile, read, Job.fail, Except.error.injEq] at failed
    exact ⟨_, failed.symm⟩
  | ok source =>
    rcases intact.parseSource source context.file with ⟨error, refused⟩ | ⟨tree, parsed, scans⟩
    · have same := (scanFile_outcome_eq_source_iff_of_read read).mpr refused
      exact ⟨error, Except.error.inj (failed.symm.trans same)⟩
    · obtain ⟨result, scanned⟩ := scans context
      have same := scanFile_outcome_eq_ok_iff.mpr ⟨source, tree, read, parsed, scanned⟩
      cases failed.symm.trans same

namespace IsSteady

variable {disk : Disk} {context : ScanContext} {reader : SourceReader}
  (steady : IsSteady disk context reader)

include steady

/-- Such a scan fails if the file cannot be read or parsed, and for no other reason. -/
theorem outcome_eq_error_iff {failure : Failure} :
    (scanFile disk context reader).outcome = .error failure ↔
      ∃ error, disk.Refuses reader context.file error ∧ failure = .load (.source error) := by
  constructor
  · intro failed
    obtain ⟨error, rfl⟩ := steady failure failed
    exact ⟨error, scanFile_outcome_eq_source_iff.mp failed, rfl⟩
  · rintro ⟨error, refused, rfl⟩
    exact scanFile_outcome_eq_source_iff.mpr refused

/-- The scan of a file that can be read and parsed ends with a result. -/
theorem exists_outcome_eq_ok_iff :
    (∃ result, (scanFile disk context reader).outcome = .ok result) ↔
      ∀ error, ¬ disk.Refuses reader context.file error := by
  cases ending : (scanFile disk context reader).outcome with
  | ok result =>
    refine iff_of_true ⟨result, rfl⟩ fun error refused => ?_
    cases ending.symm.trans (scanFile_outcome_eq_source_iff.mpr refused)
  | error failure =>
    obtain ⟨error, refused, _⟩ := steady.outcome_eq_error_iff.mp ending
    exact iff_of_false (by simp) fun loads => loads error refused

end IsSteady

end AssetRefs
