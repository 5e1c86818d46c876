import AssetRefs.GoModule
import AssetRefs.Scan.Run
import AssetRefs.Settings.Error
import AssetRefs.Syntax.Source

/-! # Jobs

A job is a step of a command: it writes to a log and ends with a value or a failure. What was logged
before a failure stays logged.
-/

namespace AssetRefs

/-- How much a log entry matters. -/
inductive LogLevel where
  | debug
  | warning
deriving DecidableEq, Repr

/-- The name of a level. -/
def LogLevel.name : LogLevel → String
  | debug => "DEBUG"
  | warning => "WARNING"

/-- A line of the log and the part of the program that wrote it. -/
structure LogEntry where
  level : LogLevel
  origin : String
  message : String
deriving DecidableEq, Repr

/-- The line that shows an entry in full. -/
def LogEntry.render (entry : LogEntry) : String :=
  entry.level.name ++ " " ++ entry.origin ++ ": " ++ entry.message

/-- Why a job has no value. -/
inductive Failure where
  /-- A source file could not be read or parsed. -/
  | load (error : LoadError)
  | module (error : ModuleError)
  | settings (error : SettingsError)
  /-- A scan could not go on. -/
  | scan (error : RunError)
  /-- A pattern without components was tried. -/
  | emptyPattern
deriving DecidableEq, Repr

/-- What a job logs and how it ends. -/
structure Job (α : Type) where
  log : List LogEntry
  outcome : Except Failure α

namespace Job

/-- The job that does nothing but give a value. -/
def done {α : Type} (value : α) : Job α := ⟨[], .ok value⟩

/-- The job that fails. -/
def fail {α : Type} (failure : Failure) : Job α := ⟨[], .error failure⟩

/-- The job that writes one entry. -/
def write (entry : LogEntry) : Job Unit := ⟨[entry], .ok ()⟩

/-- One job after another. -/
def andThen {α β : Type} (first : Job α) (next : α → Job β) : Job β :=
  match first.outcome with
  | .error failure => ⟨first.log, .error failure⟩
  | .ok value =>
    let second := next value
    ⟨first.log ++ second.log, second.outcome⟩

instance : Monad Job where
  pure := done
  bind := andThen

/-- The job that logs nothing and ends as told. -/
def ofExcept {ε α : Type} (failure : ε → Failure) : Except ε α → Job α
  | .ok value => done value
  | .error error => fail (failure error)

/-- Does a job for every item and collects the values. -/
def collect {α β : Type} (job : α → Job β) : List α → Job (List β)
  | [] => done []
  | item :: rest =>
    (job item).andThen fun value => (collect job rest).andThen fun values => done (value :: values)

end Job

end AssetRefs
