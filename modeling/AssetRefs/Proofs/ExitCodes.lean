import AssetRefs.Proofs.CommandSteps

/-! # Exit codes

The first step of a command that fails decides how the command ends: with the exit code for the
failure if there is a message for it, and with a crash otherwise. A file that can be read and parsed
is no reason to fail, so crashes come from settings, modules and patterns only.
-/

namespace AssetRefs

namespace Json

theorem mem_setMember_self (key : String) (value : Json) (members : List (String × Json)) :
    (key, value) ∈ setMember key value members := by
  induction members with
  | nil => exact List.mem_singleton_self _
  | cons member rest ih =>
    unfold setMember
    split_ifs
    · exact List.mem_cons_self
    · exact List.mem_cons_of_mem _ ih

theorem mem_setMember_of_ne {key other : String} {value old : Json} {members : List (String × Json)}
    (different : other ≠ key) (member : (other, old) ∈ members) :
    (other, old) ∈ setMember key value members := by
  induction members with
  | nil => cases member
  | cons first rest ih =>
    unfold setMember
    rcases List.mem_cons.mp member with rfl | later
    · simp [different]
    · split_ifs
      · exact List.mem_cons_of_mem _ later
      · exact List.mem_cons_of_mem _ (ih later)

end Json

namespace Command

/-! ## Printed paths -/

/-- The output has the paths, one on each line or as a member of a JSON document. -/
def Prints (json : Bool) (paths : List AssetPath) (output : String) : Prop :=
  if json then ∃ members, ("paths", pathsToJson paths) ∈ members ∧
    output = printed (Json.object members).render
  else output = printedAll (paths.map AssetPath.render)

theorem prints_report {json strict : Bool} {members : List (String × Json)} {paths : List AssetPath}
    {errors : List ScanError} (listed : ("paths", pathsToJson paths) ∈ members) :
    Prints json paths (report json strict (.object members) paths errors).output := by
  unfold Prints report
  cases json with
  | true => exact ⟨members, listed, rfl⟩
  | false => rfl

theorem prints_scan {json strict : Bool} {timestamp : String} {result : ScanResult} :
    Prints json result.paths (report json strict (scanDocument timestamp result) result.paths
      result.errors).output := by
  have apart : "paths" ≠ "_meta" ∧ "paths" ≠ "errors" := by decide
  exact prints_report (Json.mem_setMember_of_ne apart.1 (Json.mem_setMember_of_ne apart.2
    (Json.mem_setMember_self _ _ _)))

theorem prints_list {json strict : Bool} {timestamp : String} {result : PackageResult} :
    Prints json result.paths (report json strict (listDocument timestamp result) result.paths
      result.errors).output := by
  have apart : "paths" ≠ "_meta" ∧ "paths" ≠ "errors" := by decide
  exact prints_report (Json.mem_setMember_of_ne apart.1 (Json.mem_setMember_of_ne apart.2
    (Json.mem_setMember_self _ _ _)))

/-! ## Endings -/

/-- How a command ends that fails. -/
def endingOf (failure : Failure) : Ending :=
  match errorOf? failure with
  | some error => .exit error.code
  | none => .crash failure

section

variable {α : Type} {verbose : Bool} {job : Job α} {report : α → Transcript}

theorem transcript_of_ok (verbose : Bool) (report : α → Transcript) {value : α}
    (completed : job.outcome = .ok value) :
    (transcript verbose job report).ending = (report value).ending ∧
      (transcript verbose job report).output = (report value).output := by
  simp [transcript, completed]

theorem transcript_of_error {failure : Failure} (failed : job.outcome = .error failure) :
    (transcript verbose job report).ending = endingOf failure := by
  unfold transcript endingOf
  rw [failed]
  dsimp only
  cases errorOf? failure with
  | some => rfl
  | none => rfl

end

theorem report_ending (json strict : Bool) (document : Json) (paths : List AssetPath)
    (errors : List ScanError) : (report json strict document paths errors).ending =
      .exit (if strict && !errors.isEmpty then 6 else 0) := by
  unfold report strictly
  split_ifs <;> rfl

section

variable {world : World} {json verbose : Bool} {command : Command}

theorem run_of_error {failure : Failure}
    (failed : (scanAll world command).outcome = .error failure) :
    (run world json verbose command).ending = endingOf failure := by
  cases command with
  | scan options =>
    rw [← scanOne_outcome, Except.map_eq_error_iff] at failed
    exact transcript_of_error failed
  | list options =>
    rw [← scanFolder_outcome, Except.map_eq_error_iff] at failed
    exact transcript_of_error failed

theorem run_of_ok (json verbose : Bool) {results : List ScanResult}
    (completed : (scanAll world command).outcome = .ok results) :
    (run world json verbose command).ending =
        .exit (if command.strict && !(results.flatMap ScanResult.errors).isEmpty then 6 else 0) ∧
      ∃ paths, (∀ path, path ∈ paths ↔ ∃ result ∈ results, path ∈ result.paths) ∧
        Prints json paths (run world json verbose command).output := by
  cases command with
  | scan options =>
    rw [← scanOne_outcome] at completed
    obtain ⟨result, ending, rfl⟩ := Except.map_eq_ok_iff.mp completed
    obtain ⟨ends, prints⟩ := transcript_of_ok verbose (fun result => report json options.strict
      (scanDocument world.timestamp result) result.paths result.errors) ending
    refine ⟨ends.trans ?_, result.paths, by simp, ?_⟩
    · rw [report_ending, List.flatMap_singleton, strict]
    · rw [run, prints]
      exact prints_scan
  | list options =>
    rw [← scanFolder_outcome] at completed
    obtain ⟨result, ending, rfl⟩ := Except.map_eq_ok_iff.mp completed
    obtain ⟨ends, prints⟩ := transcript_of_ok verbose (fun result => report json options.strict
      (listDocument world.timestamp result) result.paths result.errors) ending
    obtain ⟨settings, _, scanned⟩ := Job.andThen_outcome_eq_ok_iff.mp ending
    obtain ⟨_, _, _, _, merges⟩ := merges_of_scanPackage scanned
    refine ⟨ends.trans ?_, result.paths, merges.mem_paths, ?_⟩
    · rw [report_ending, strict, PackageResult.errors]
    · rw [run, prints]
      exact prints_list

end

/-! ## Failures -/

/-- The problems of settings files that there is no message for. -/
def unreported : List SettingsProblem := [.unreadable, .notText, .unorderedKeys, .outOfRange]

/-- What can be wrong for a command without a message for it: a settings file that may not be read,
is not UTF-8, has a key that is no text or a value that does not exist; a module file that is not
UTF-8; a pattern without components. -/
inductive Unhandled : Failure → Prop where
  | settings {error : SettingsError} : error.problem ∈ unreported → Unhandled (.settings error)
  | module (path : String) : Unhandled (.module (.notText path))
  | pattern : Unhandled .emptyPattern

/-- The failures that are about settings or modules. -/
def IsConfiguration : Failure → Prop
  | .settings _ | .module _ => True
  | _ => False

/-- A failure ends a command with a crash if it is unhandled, and with the exit code for it
otherwise. -/
def Ends (failure : Failure) : Prop :=
  Unhandled failure ∧ endingOf failure = .crash failure ∨
    ¬ Unhandled failure ∧ (IsConfiguration failure ∧ endingOf failure = .exit 4 ∨
      (∃ error, failure = .load (.source error)) ∧ endingOf failure = .exit 3)

theorem ends_settings (error : SettingsError) : Ends (.settings error) := by
  have silent : errorOf? (.settings error) =
      if error.problem ∈ unreported then none else some (.configFailed error.message) := by
    simp [errorOf?, unreported]
  by_cases problem : error.problem ∈ unreported
  · exact .inl ⟨.settings problem, by rw [endingOf, silent, if_pos problem]⟩
  · refine .inr ⟨?_, .inl ⟨trivial, ?_⟩⟩
    · rintro (⟨listed⟩)
      exact problem listed
    · rw [endingOf, silent, if_neg problem]
      rfl

theorem ends_module (error : ModuleError) : Ends (.module error) := by
  cases error with
  | notText path => exact .inl ⟨.module path, rfl⟩
  | _ => exact .inr ⟨nofun, .inl ⟨trivial, rfl⟩⟩

theorem Stops.ends {world : World} {command : Command} {failure : Failure}
    (stops : Stops world command failure) : Ends failure := by
  cases stops with
  | settings => exact ends_settings _
  | module => exact ends_module _
  | pattern => exact .inl ⟨.pattern, rfl⟩
  | outside => exact ends_module _
  | source => exact .inr ⟨nofun, .inr ⟨⟨_, rfl⟩, rfl⟩⟩

end Command

/-- A folder with a Go file and perhaps a module file. -/
def loneFile (module : List (String × FileTree)) : World where
  disk := ⟨.folder (module ++ [("main.go", .file "package main".toUTF8)]), []⟩
  timestamp := ""

/-- Nor is there one for a settings file that may not be read. -/
example : (runArguments (loneFile [("go.mod", .file "module app".toUTF8),
      (".embedscan.yml", .file { bytes := .empty, readable := false })])
    ["scan", "main.go"]).ending = .crash (.settings ⟨"/.embedscan.yml", .unreadable⟩) := by
  decide +kernel

end AssetRefs
