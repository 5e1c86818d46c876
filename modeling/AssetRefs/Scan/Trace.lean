import AssetRefs.Scan.Session

/-! # Traces

A trace is a stretch of a scan: what it does to the session, and whether it ends with a result or
with a reason why it stopped. What was registered before it stopped stays registered.
-/

namespace AssetRefs

/-- A stretch of a scan. -/
structure Trace (α : Type) where
  run : Session → Session × Except Halt α

namespace Trace

/-- The trace that does nothing. -/
def done {α : Type} (value : α) : Trace α := ⟨fun session => (session, .ok value)⟩

/-- The trace that stops at once. -/
def halt {α : Type} (reason : Halt) : Trace α := ⟨fun session => (session, .error reason)⟩

/-- One trace after another that is told how the first one ended. -/
def resume {α β : Type} (first : Trace α) (next : Except Halt α → Trace β) : Trace β :=
  ⟨fun session =>
    match first.run session with
    | (session, outcome) => (next outcome).run session⟩

/-- One trace after another, unless the first one stopped. -/
def andThen {α β : Type} (first : Trace α) (next : α → Trace β) : Trace β :=
  first.resume fun
    | .error reason => halt reason
    | .ok value => next value

/-- One trace after another, even if the first met a problem; the problem stands at the end. -/
def deferring {α : Type} (first : Trace α) (next : Unit → Trace Unit) : Trace Unit :=
  first.resume fun
    | .error (.problem error) => (next ()).andThen fun _ => halt (.problem error)
    | .error .malformedLiteral => halt .malformedLiteral
    | .ok _ => next ()

/-- The trace that registers one path. -/
def register (entry : Registration) : Trace Unit :=
  ⟨fun session => (session.register entry, .ok ())⟩

/-- A trace during which the declaration at a place counts as being followed, however it ends. It
does nothing if that declaration is being followed already. -/
def following (place : Address) (trace : Trace Unit) : Trace Unit :=
  ⟨fun session =>
    if session.active.contains place then (session, .ok ())
    else
      match trace.run (session.withActive (place :: session.active)) with
      | (session, outcome) => (session.withActive (session.active.erase place), outcome)⟩

end Trace

end AssetRefs
