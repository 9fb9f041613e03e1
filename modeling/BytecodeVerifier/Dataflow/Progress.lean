import BytecodeVerifier.Dataflow.Flow

/-!
# Progress of a verification

What is known so far: of each position whether it has been looked at and whether it is to be looked
at (again), and of each branch target the frame in which execution arrives there.
-/

namespace BytecodeVerifier

/-- What is known so far of one position. -/
structure Point (F : Type := Frame) where
  /-- The position has been looked at. -/
  visited : Bool := false
  /-- The position is to be looked at. -/
  queued : Bool := false
  /-- The merge of all frames in which execution has arrived, at a branch target. -/
  entry : Option F := none
  deriving DecidableEq, Repr

namespace Point

variable {m : Type → Type} [Monad m] {F : Type} [Flow m F]

/-- Execution arrives in frame `f`. The position is queued if that tells anything new. -/
def arrive (p : ClassPool) (point : Point F) (f : F) : m (Point F) := do
  match point.entry with
  | none => return { point with entry := some f, queued := true }
  | some g =>
    let (merged, changed) ← Flow.absorb p g f
    return { point with entry := some merged, queued := point.queued || changed }

/-- The warning due when execution arrives at position `pc` in frame `f` and holds another number of
monitors than it did on the paths that arrived before. -/
def monitorMismatch? (point : Point F) (f : F) (pc : Nat) : Option Warning :=
  match point.entry.bind Flow.monitors, Flow.monitors f with
  | some held, some incoming =>
    if held = incoming then none else some (.monitorMismatch incoming held pc)
  | _, _ => none

/-- The position is to be looked at. -/
def queue (point : Point F) : Point F := { point with queued := true }

/-- The position has just been looked at. -/
def leave (point : Point F) : Point F := { point with visited := true, queued := false }

end Point

/-- What is known so far of a method. -/
structure Progress (F : Type := Frame) where
  points : Array (Point F)
  /-- The frame after the position that was looked at last. -/
  work : F
  /-- Where the search for a queued position begins. -/
  cursor : Nat
  /-- How many times a position has been looked at. -/
  visits : Nat
  /-- The warnings so far, each once. -/
  flags : List Flag
  deriving DecidableEq, Repr

namespace Progress

variable {F : Type}

/-- Nothing is known but the frame in which execution enters the method. -/
def start (size : Nat) (entry : F) : Progress F :=
  { points := (Array.replicate size ({} : Point F)).modify 0 fun point =>
      { point with entry := some entry, queued := true }
    work := entry
    cursor := 0
    visits := 0
    flags := [] }

/-- The position is to be looked at. -/
def isQueued (s : Progress F) (pc : Nat) : Bool := s.points[pc]?.any Point.queued

/-- The first queued position from `i` on. -/
def queuedFrom? (s : Progress F) (i : Nat) : Option Nat :=
  (List.range' i (s.points.size - i)).find? s.isQueued

/-- The position to look at next, and the cursor then: the first queued one from the cursor on, or
else the first of all. -/
def next? (s : Progress F) : Option (Nat × Nat) :=
  match s.queuedFrom? s.cursor with
  | some pc => some (pc, s.cursor)
  | none => (s.queuedFrom? 0).map (·, 0)

/-- The warnings with one more, unless it is among them. -/
def addFlag (flags : List Flag) (flag : Flag) : List Flag :=
  if flag ∈ flags then flags else flags ++ [flag]

/-- The warnings with those raised at `pc`. -/
def addFlags (flags : List Flag) (pc : Nat) (warnings : List Warning) : List Flag :=
  warnings.foldl (fun flags warning => addFlag flags { warning, pc }) flags

end Progress

end BytecodeVerifier
