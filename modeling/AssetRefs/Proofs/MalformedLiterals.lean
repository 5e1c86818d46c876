import AssetRefs.Proofs.CallSites
import AssetRefs.Proofs.Provenance

/-! # Literals that stop a scan

What is wrong at a call site is logged and the scan goes on, with one exception: an interpreted
literal in which decoding comes to `\x` without two hexadecimal digits after it. It is no literal of
the language, but a tree may have one. Such a literal stops the scan if its path is registered, and
nothing else does: see `scans_stop_at_missing_digits_only`.
-/

namespace AssetRefs

namespace GoString

/-! ## Which literals these are -/

/-- Decoding the inside of an interpreted literal comes to the given rest of it: the escapes before
the rest denote bytes. -/
inductive Reads (raw : String) : List Char → List Char → Prop where
  | here (chars : List Char) : Reads raw chars chars
  | plain {c : Char} {chars rest : List Char} : c ≠ '\\' → Reads raw chars rest →
      Reads raw (c :: chars) rest
  | escape {chars rest : List Char} {bytes : List UInt8} {taken : Nat} :
      GoString.escape raw chars = .ok (bytes, taken) → Reads raw (chars.drop taken) rest →
      Reads raw ('\\' :: chars) rest

/-- Two hexadecimal digits and any other characters. -/
def StartsWithHexDigits (chars : List Char) : Prop :=
  ∃ high low rest, chars = high :: low :: rest ∧ (digit? 16 high).isSome ∧ (digit? 16 low).isSome

/-- An interpreted literal in which decoding comes to `\x` without two hexadecimal digits after
it. -/
def LacksHexDigits (raw : String) : Prop :=
  ∃ inside rest, raw.toList = '"' :: (inside ++ ['"']) ∧
    Reads raw inside ('\\' :: 'x' :: rest) ∧ ¬ StartsWithHexDigits rest

theorem numeral?_hex_eq_none_iff {chars : List Char} :
    numeral? 16 2 0 chars = none ↔ ¬ StartsWithHexDigits chars := by
  unfold StartsWithHexDigits
  cases chars with
  | nil => simp [numeral?]
  | cons high rest =>
    cases rest with
    | nil => cases first : digit? 16 high <;> simp [numeral?, first]
    | cons low rest =>
      cases first : digit? 16 high <;> cases second : digit? 16 low <;>
        simp [numeral?, first, second]

variable {raw : String}

theorem escape_eq_hexDigitsMissing_iff {chars : List Char} :
    escape raw chars = .error .hexDigitsMissing ↔
      ∃ rest, chars = 'x' :: rest ∧ ¬ StartsWithHexDigits rest := by
  have codePoint (count : Nat) (digits : List Char) :
      codePointEscape raw count digits ≠ .error .hexDigitsMissing := by
    unfold codePointEscape
    split
    · simp
    · split_ifs <;> simp
  simp only [← numeral?_hex_eq_none_iff]
  constructor
  · intro missing
    unfold escape at missing
    split at missing
    · cases missing
    · next c rest =>
      split at missing
      · cases missing
      · split_ifs at missing with hex short long
        · split at missing
          · cases missing
          · next none => exact ⟨rest, by rw [hex], none⟩
        · exact (codePoint 4 rest missing).elim
        · exact (codePoint 8 rest missing).elim
        · split at missing
          · split_ifs at missing
            cases missing
          · cases missing
  · rintro ⟨rest, rfl, none⟩
    simp [escape, simpleEscape?, none]

theorem bytesFrom_eq_drop (skip : Nat) (chars : List Char) :
    bytesFrom raw skip chars = bytesFrom raw 0 (chars.drop skip) := by
  induction chars generalizing skip with
  | nil => cases skip <;> rfl
  | cons c rest ih =>
    cases skip with
    | zero => rfl
    | succ skip => exact ih skip

theorem map_eq_hexDigitsMissing_iff {α β : Type} {decoded : Except Fault α} {f : α → β} :
    decoded.map f = .error .hexDigitsMissing ↔ decoded = .error .hexDigitsMissing := by
  cases decoded <;> simp [Except.map]

/-- Decoding fails for want of digits just where it comes to such an escape. -/
theorem bytesFrom_eq_hexDigitsMissing_iff {chars : List Char} :
    bytesFrom raw 0 chars = .error .hexDigitsMissing ↔
      ∃ rest, Reads raw chars ('\\' :: 'x' :: rest) ∧ ¬ StartsWithHexDigits rest := by
  constructor
  · suffices ∀ skip, bytesFrom raw skip chars = .error .hexDigitsMissing →
        ∃ rest, Reads raw (chars.drop skip) ('\\' :: 'x' :: rest) ∧ ¬ StartsWithHexDigits rest
      from this 0
    induction chars with
    | nil =>
      intro skip missing
      cases skip <;> cases missing
    | cons c rest ih =>
      intro skip missing
      cases skip with
      | succ skip => exact ih skip missing
      | zero =>
        rw [bytesFrom] at missing
        split_ifs at missing with backslash
        · subst backslash
          split at missing
          · next failed =>
            cases missing
            obtain ⟨digits, rfl, lacking⟩ := escape_eq_hexDigitsMissing_iff.mp failed
            exact ⟨digits, .here _, lacking⟩
          · next decoded =>
            obtain ⟨digits, read, lacking⟩ := ih _ (map_eq_hexDigitsMissing_iff.mp missing)
            exact ⟨digits, .escape decoded read, lacking⟩
        · obtain ⟨digits, read, lacking⟩ := ih 0 (map_eq_hexDigitsMissing_iff.mp missing)
          exact ⟨digits, .plain backslash read, lacking⟩
  · rintro ⟨rest, read, lacking⟩
    generalize target : '\\' :: 'x' :: rest = remaining at read
    induction read with
    | here chars =>
      subst target
      have missing : escape raw ('x' :: rest) = .error .hexDigitsMissing :=
        escape_eq_hexDigitsMissing_iff.mpr ⟨rest, rfl, lacking⟩
      rw [bytesFrom, if_pos rfl, missing]
    | plain different _ ih =>
      rw [bytesFrom, if_neg different]
      exact map_eq_hexDigitsMissing_iff.mpr (ih target)
    | escape decoded _ ih =>
      rw [bytesFrom, if_pos rfl, decoded]
      exact map_eq_hexDigitsMissing_iff.mpr (bytesFrom_eq_drop .. ▸ ih target)

theorem between?_eq_some_iff {mark : Char} {chars inside : List Char} :
    between? mark chars = some inside ↔ chars = mark :: (inside ++ [mark]) := by
  constructor
  · intro marked
    unfold between? at marked
    split at marked
    · next first second rest =>
      split_ifs at marked with ends
      simp only [Bool.and_eq_true, decide_eq_true_eq, List.getLast?_eq_some_iff] at ends
      obtain ⟨rfl, inner, whole⟩ := ends
      rw [whole, List.dropLast_concat, Option.some.injEq] at marked
      rw [whole, marked]
    · cases marked
  · rintro rfl
    cases inside with
    | nil => simp [between?]
    | cons c rest =>
      rw [List.cons_append, between?, ← List.cons_append, List.getLast?_concat,
        List.dropLast_concat]
      simp

theorem between?_rawMark {chars : List Char} (start : raw.toList = '"' :: chars) :
    between? rawMark raw.toList = none := by
  rw [start]
  cases chars <;> simp [between?, rawMark]

theorem unquote_eq_hexDigitsMissing_iff :
    unquote raw = .error .hexDigitsMissing ↔ LacksHexDigits raw := by
  constructor
  · intro missing
    unfold unquote at missing
    split at missing
    · cases missing
    · split at missing
      · next inside quoted =>
        obtain ⟨rest, read, lacking⟩ :=
          bytesFrom_eq_hexDigitsMissing_iff.mp (map_eq_hexDigitsMissing_iff.mp missing)
        exact ⟨inside, rest, between?_eq_some_iff.mp quoted, read, lacking⟩
      · cases missing
  · rintro ⟨inside, rest, quoted, read, lacking⟩
    rw [unquote, between?_rawMark quoted, between?_eq_some_iff.mpr quoted]
    exact map_eq_hexDigitsMissing_iff.mpr
      (bytesFrom_eq_hexDigitsMissing_iff.mpr ⟨rest, read, lacking⟩)

end GoString

/-! ## What they do to a scan -/

theorem ScanContext.pathOf_eq_hexDigitsMissing_iff {context : ScanContext} {raw : String} :
    context.pathOf raw = .error .hexDigitsMissing ↔ GoString.LacksHexDigits raw := by
  rw [← GoString.unquote_eq_hexDigitsMissing_iff, pathOf]
  cases GoString.unquote raw with
  | error fault => simp
  | ok text => cases parsed : AssetPath.parse context.home text <;> simp [parsed]

namespace ScanTask

variable {context : ScanContext} {table : BindingTable}

/-- Only registering such a literal can stop a scan. -/
theorem lacksHexDigits_of_fault? {task : ScanTask}
    (fault : task.fault? context table = some .malformedLiteral) :
    ∃ raw site, task = registration raw site ∧ GoString.LacksHexDigits raw := by
  cases task with
  | registration raw site =>
    refine ⟨raw, site, rfl, context.pathOf_eq_hexDigitsMissing_iff.mp ?_⟩
    simp only [fault?] at fault
    split at fault
    · cases fault
    · cases fault
    · assumption
  | recognition site arguments callee =>
    have contained : (Node.call site callee arguments).Contains (.call site callee arguments) :=
      .self
    obtain ⟨_, node, problem, _, same⟩ := problem_of_recognition contained fault
    cases same
  | _ => cases fault

/-- What can be reached from a task is the task or can be reached from one that it starts. -/
theorem Reachable.eq_or_next {task other : ScanTask}
    (reached : task.Reachable context table other) :
    other = task ∨ ∃ started ∈ task.next context table, started.Reachable context table other := by
  rcases reached.cases_head with same | ⟨started, starts, later⟩
  · exact .inl same.symm
  · exact .inr ⟨started, starts, later⟩

end ScanTask

section

variable {context : ScanContext} {tree : SyntaxTree}

/-- A visit that stops the scan can come to registering such a literal. -/
theorem exists_lacksHexDigits_of_not_visitReturns {node : Node}
    (stops : ¬ VisitReturns context tree node) :
    ∃ raw site, (ScanTask.classification node).Reachable context tree.bindings
      (.registration raw site) ∧ GoString.LacksHexDigits raw := by
  obtain ⟨effect, has, covers⟩ := visitTrace_explores context tree node
  rw [has.visitReturns_iff, not_not] at stops
  obtain ⟨task, reached, fault⟩ := covers.faulty _ stops
  obtain ⟨raw, site, rfl, lacking⟩ := ScanTask.lacksHexDigits_of_fault? fault
  exact ⟨raw, site, ScanTask.mem_reach_nil_iff.mp reached, lacking⟩

/-- Whatever else a visit ends with is in the log of a completed run. -/
theorem problem_of_visit {result : ScanResult} (completed : scanTree context tree = .ok result)
    {node : Node} (walked : node ∈ tree.root.walk) {session : Session} (idle : session.active = [])
    {reason : Halt} (ended : ((visitTrace context tree node).run session).2 = .error reason) :
    ∃ error ∈ result.errors, reason = .problem error := by
  obtain ⟨effect, has⟩ := (Trace.tame_closed context).visitTrace tree node []
  have returns := has.visitReturns_iff.mp ((scanTree_collects completed).1 node walked)
  rw [has session idle] at ended
  cases reason with
  | malformedLiteral => exact (returns ended).elim
  | problem error =>
    refine ⟨error, (mem_errors_iff completed).mpr ⟨node, walked, ?_⟩, rfl⟩
    rw [has.errors_visitAlone]
    exact Trace.Effect.mem_logged_iff.mpr ended

theorem Session.visitAll_ne_problem (session : Session) (traces : List (Trace Unit))
    (error : ScanError) : (session.visitAll traces).2 ≠ .error (.problem error) := by
  induction traces generalizing session with
  | nil => exact nofun
  | cons trace rest ih =>
    by_cases ok : (session.visit trace).2 = .ok ()
    · rw [visitAll_cons_of_ok ok]
      exact ih _
    · rw [visitAll_cons_of_not_ok ok]
      unfold visit
      split
      · exact nofun
      · exact nofun
      · exact nofun

/-- There is only one reason why a run of a new session gives no result. -/
theorem scanTree_eq_error {reason : RunError} (stopped : scanTree context tree = .error reason) :
    reason = .halted .malformedLiteral := by
  simp only [scanTree, Session.run, Bool.false_eq_true, ↓reduceIte] at stopped
  split at stopped
  · next halted ran =>
    cases stopped
    cases halted with
    | malformedLiteral => rfl
    | problem error => exact (Session.visitAll_ne_problem _ _ error (congrArg Prod.snd ran)).elim
  · cases stopped

end

/-- A scan is stopped by literals that lack hexadecimal digits and by nothing else. A run gives a
result, or it is halted because some visit can come to registering such a literal. If a run gives a
result, whatever ends the resolution of a node early is an error in its log. A plain call site with
such a literal does stop the run. -/
theorem scans_stop_at_missing_digits_only (context : ScanContext) (tree : SyntaxTree) :
    ((∃ paths errors,
        scanTree context tree = .ok ⟨context.file, context.package, paths, errors⟩) ∨
      scanTree context tree = .error (.halted .malformedLiteral) ∧
        ∃ node ∈ tree.root.walk, ∃ raw site, (ScanTask.classification node).Reachable context
          tree.bindings (.registration raw site) ∧ GoString.LacksHexDigits raw) ∧
    (∀ result, scanTree context tree = .ok result → ∀ node ∈ tree.root.walk,
      ∀ session : Session, session.active = [] → ∀ reason,
        ((visitTrace context tree node).run session).2 = .error reason →
        ∃ error ∈ result.errors, reason = .problem error) ∧
    ∀ call first raw, tree.root.Contains call → PlainCall context tree.bindings call first raw →
      GoString.LacksHexDigits raw → scanTree context tree = .error (.halted .malformedLiteral) := by
  have halted (incomplete : ¬ ∃ result, scanTree context tree = .ok result) :
      scanTree context tree = .error (.halted .malformedLiteral) := by
    cases ended : scanTree context tree with
    | ok result => exact (incomplete ⟨result, ended⟩).elim
    | error reason => rw [scanTree_eq_error ended]
  refine ⟨?_, ?_, ?_⟩
  · by_cases returns : ∀ node ∈ tree.root.walk, VisitReturns context tree node
    · exact .inl (exists_scanTree_eq_ok returns)
    · have incomplete : ¬ ∃ result, scanTree context tree = .ok result :=
        fun ⟨_, completed⟩ => returns (scanTree_collects completed).1
      push Not at returns
      obtain ⟨node, walked, stops⟩ := returns
      obtain ⟨raw, site, reached, lacking⟩ := exists_lacksHexDigits_of_not_visitReturns stops
      exact .inr ⟨halted incomplete, node, walked, raw, site, reached, lacking⟩
  · intro result completed node walked session idle reason ended
    exact problem_of_visit completed walked idle ended
  · intro call first raw contained plain lacking
    refine halted ?_
    rintro ⟨result, completed⟩
    have denoted := context.pathOf_eq_hexDigitsMissing_iff.mpr lacking
    exact plain.pathOf_ne_hexDigitsMissing completed contained denoted

/-- A call that opens what a literal denotes. -/
def openingCall (text : String) : Node :=
  memberCall 1 "Open" [.literal ⟨"interpreted_string_literal", 1, 12⟩ text]

/-- A file with such a call. -/
def openingFile (text : String) : SyntaxTree where
  path := "main.go"
  root := .generic ⟨"source_file", 1, 1⟩ [openingCall text]
  package := none
  bindings := .empty

/-- The literal is the only one that a visit can come to register. -/
theorem eq_of_reachable_openingFile {text raw : String} {site : Site} {node : Node}
    (walked : node ∈ (openingFile text).root.walk)
    (reached : (ScanTask.classification node).Reachable { file := "main.go", package := "app" }
      (openingFile text).bindings (.registration raw site)) : raw = text := by
  have walk : (openingFile text).root.walk =
      [(openingFile text).root, openingCall text,
        .selector ⟨"selector_expression", 1, 1⟩ (.ident ⟨"identifier", 1, 1⟩ "pkger" 100) "Open",
        .ident ⟨"identifier", 1, 1⟩ "pkger" 100,
        .literal ⟨"interpreted_string_literal", 1, 12⟩ text] := by
    simp [Node.walk_eq, openingFile, openingCall, memberCall, Node.children]
  rw [walk] at walked
  simp only [List.mem_cons, List.not_mem_nil, or_false] at walked
  -- Every task starts at most one other, so there is one chain of tasks from each node.
  rcases walked with rfl | rfl | rfl | rfl | rfl
  · rcases reached.eq_or_next with ⟨⟨⟩⟩ | ⟨_, ⟨⟩, _⟩
  · rcases reached.eq_or_next with ⟨⟨⟩⟩ | ⟨_, _ | ⟨_, ⟨⟩⟩, direct⟩
    rcases direct.eq_or_next with ⟨⟨⟩⟩ | ⟨_, _ | ⟨_, ⟨⟩⟩, recognized⟩
    rcases recognized.eq_or_next with ⟨⟨⟩⟩ | ⟨_, _ | ⟨_, ⟨⟩⟩, registered⟩
    rcases registered.eq_or_next with ⟨⟨⟩⟩ | ⟨_, ⟨⟩, _⟩
    rfl
  · rcases reached.eq_or_next with ⟨⟨⟩⟩ | ⟨_, ⟨⟩, _⟩
  · rcases reached.eq_or_next with ⟨⟨⟩⟩ | ⟨_, _ | ⟨_, ⟨⟩⟩, declared⟩
    rcases declared.eq_or_next with ⟨⟨⟩⟩ | ⟨_, ⟨⟩, _⟩
  · rcases reached.eq_or_next with ⟨⟨⟩⟩ | ⟨_, ⟨⟩, _⟩

theorem scans_stop_at_missing_digits_only_reported :
    let context : ScanContext := { file := "main.go", package := "app" }
    let error : ScanError := ⟨(PathError.badEscape "\"\\u12\"").message, "main.go", 1, 12⟩
    (∃ paths errors, scanTree context (openingFile "\"\\u12\"") =
      .ok ⟨"main.go", "app", paths, errors⟩) ∧
    (∃ logged ∈ [error], Halt.problem error = .problem logged) ∧
    scanTree context (openingFile "\"\\x\"") = .error (.halted .malformedLiteral) := by
  intro context error
  obtain ⟨returns, logs, _⟩ :=
    scans_stop_at_missing_digits_only context (openingFile "\"\\u12\"")
  obtain ⟨_, _, stops⟩ := scans_stop_at_missing_digits_only context (openingFile "\"\\x\"")
  have completed : scanTree context (openingFile "\"\\u12\"") =
      .ok ⟨"main.go", "app", [], [error]⟩ := by decide +kernel
  refine ⟨returns.resolve_right ?_, ?_, ?_⟩
  · rintro ⟨_, node, walked, raw, site, reached, lacking⟩
    rw [eq_of_reachable_openingFile walked reached, ← GoString.unquote_eq_hexDigitsMissing_iff]
      at lacking
    revert lacking
    decide +kernel
  · refine logs _ completed (openingCall "\"\\u12\"") ?_ {} rfl _ ?_
    · exact Node.mem_walk_iff.mpr (.child .self (.head _))
    · decide +kernel
  · have plain : PlainCall context (openingFile "\"\\x\"").bindings (openingCall "\"\\x\"") _
        "\"\\x\"" :=
      .opens (by simp [Node.isCall, Node.isComposite]) (.literal ..)
    refine stops _ _ _ (.child .self (.head _)) plain ⟨['\\', 'x'], [], rfl, .here _, ?_⟩
    rintro ⟨_, _, _, ⟨⟩, _⟩

theorem missing_digits_stop_scans :
    ¬ ∀ (context : ScanContext) (tree : SyntaxTree), ∃ result,
      scanTree context tree = .ok result := by
  intro returns
  obtain ⟨result, completed⟩ :=
    returns { file := "main.go", package := "app" } (openingFile "\"\\x\"")
  have stopped : scanTree { file := "main.go", package := "app" } (openingFile "\"\\x\"") =
      .error (.halted .malformedLiteral) := by decide +kernel
  rw [stopped] at completed
  cases completed

end AssetRefs
