import BytecodeVerifier.Failure

/-!
# Reports

A check ends in a violation or goes on. On its way it may come upon something that can still be
settled when the code runs. Where warnings are allowed, it raises one and goes on; where they are
not, the first one ends it.
-/

namespace BytecodeVerifier

/-- A check that can be told whether warnings are allowed, with its warnings, oldest first. What
else it works with is up to `m`. -/
abbrev ReportT (m : Type → Type) := ReaderT Bool (ExceptT Objection (StateT (List Warning) m))

/-- A check that works with nothing else. -/
abbrev Report := ReportT Id

namespace ReportT

variable {m : Type → Type} [Monad m] {α : Type}

/-- Rejects the method. -/
def reject (v : Violation) : ReportT m α := throw (.violation v)

/-- Leaves a check to run time, if that is allowed. -/
def flag (w : Warning) : ReportT m Unit := fun allowed =>
  if allowed then modify (· ++ [w]) else throw (.warning w)

/-- An access to a frame as a check. -/
def ofFrame : Except FrameError α → ReportT m α
  | .ok a => pure a
  | .error e => reject (.frame e)

/-- A look-up that only a fault makes fail, as a check. -/
def ofFault : Except Fault α → ReportT m α
  | .ok a => pure a
  | .error f => reject (.fault f)

/-- Work that nothing can be wrong with, as a check. -/
def lift (x : m α) : ReportT m α := fun _ warnings => do return (.ok (← x), warnings)

/-- Runs a check after the given warnings. -/
def runFrom (r : ReportT m α) (allowed : Bool) (warnings : List Warning) :
    m (Except Objection α × List Warning) :=
  ((ReaderT.run r allowed).run).run warnings

/-- A check that works with nothing else, as part of one that does. -/
def ofReport (r : Report α) : ReportT m α := fun allowed warnings =>
  return Id.run (r.runFrom allowed warnings)

/-- How a check ends after the given warnings, and the warnings then. -/
def runs (r : Report α) (allowed : Bool) (warnings : List Warning) :
    Except Objection α × List Warning :=
  Id.run (r.runFrom allowed warnings)

/-- How a check ends where warnings are allowed, and all its warnings. -/
def outcome (r : Report α) : Except Objection α × List Warning := r.runs true []

end ReportT

end BytecodeVerifier
