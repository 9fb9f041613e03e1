import BytecodeVerifier.Dataflow.Visit

/-!
# The worklist

Positions are visited as long as one is queued. The caller may set a budget of visits; the number of
visits that can be counted is a bound in any case, and the recursion is on what is left of it.
-/

namespace BytecodeVerifier

/-- How a verifier is set. -/
structure Config where
  /-- Constants are taken to be exact. -/
  preciseConstants : Bool := true
  /-- Give up after this many visits. -/
  maxVisits : Option Nat := none
  /-- Warnings are collected; otherwise the first one stops the verification. -/
  allowWarnings : Bool := true
  deriving DecidableEq, Repr

/-- The number of visits that can be counted. -/
def visitLimit : Nat := 0xffffffffffffffff

/-- The budget if it is used up. -/
def Config.exhausted? (config : Config) (visits : Nat) : Option Nat :=
  config.maxVisits.filter (· ≤ visits)

namespace Task

variable {m : Type → Type} [Monad m] {F : Type} [Flow m F] (task : Task) (config : Config)

/-- Visits the position `pc`. What the visit stops at stops the verification. -/
def advanceM (s : Progress F) (pc : Nat) : m (Except Failure (Progress F)) := do
  match task.frameBefore s pc with
  | .error fault => return .error (.hard (.fault fault) none)
  | .ok before =>
    match ← (task.visit s pc before).runFrom config.allowWarnings [] with
    | (.error objection, _) => return .error (objection.failure pc)
    | (.ok s', warnings) =>
      return .ok
        { s' with visits := s.visits + 1, flags := Progress.addFlags s.flags pc warnings }

/-- Visits queued positions until there are none, if that takes at most `n` visits. -/
def solveM : (n : Nat) → Progress F → m (Except Failure (Progress F))
  | n, s =>
    match s.next?, n with
    | none, _ => return .ok s
    | some _, 0 => return .error (.hard (.fault .visitOverflow) none)
    | some (pc, cursor), n + 1 =>
      match config.exhausted? s.visits with
      | some max => return .error (.hard (.budget max) (some pc))
      | none => do
        match ← task.advanceM config { s with cursor } pc with
        | .error e => return .error e
        | .ok s' => solveM n s'

/-- Visits the position `pc` with frames of types. -/
def advance (s : Progress) (pc : Nat) : Except Failure Progress :=
  Id.run (task.advanceM config s pc)

/-- Visits queued positions with frames of types. -/
def solve (n : Nat) (s : Progress) : Except Failure Progress :=
  Id.run (task.solveM config n s)

end Task

end BytecodeVerifier
