import BytecodeVerifier.Dataflow.Progress

/-!
# Visits

A visit looks at one position: it applies the operation there to the frame before it, and lets
execution arrive at every position that may follow. An exception leaves with the frame before the
operation, since it may be raised before the operation has done anything.
-/

namespace BytecodeVerifier

/-- A method whose structure has been checked. -/
structure Task where
  env : Environment
  /-- The operation at each position; a label mark has none. -/
  operations : Array (Option Operation)

namespace Task

open ReportT

variable {m : Type → Type} [Monad m] {F : Type} [Flow m F] (task : Task)

/-- The operation at a position, if there is one. -/
def operation? (pc : Nat) : Option Operation := task.operations[pc]?.join

/-- The handlers to which an exception raised by the operation at `pc` may go. They are looked for
only where the layout has marked the position. -/
def handlers (pc : Nat) (o : Operation) : List Nat :=
  if o.opcode.canThrow && task.env.layout.isProtected pc then
    task.env.layout.handlersCovering pc
  else []

/-- The positions to which the operation may branch. -/
def jumps (o : Operation) : Except Fault (List Nat) :=
  o.targets.mapM task.env.layout.labels.position

/-- A handler that takes its exception is only entered by an exception. -/
def checkNormalEdge (target : Nat) : ReportT m Unit := do
  let site ← ofFault (task.env.layout.site target)
  if site.isHandler && (task.operation? (target + 1)).any Operation.isMoveException then
    reject (.flow .intoHandler)

/-- Execution arrives at `target` in frame `f`. -/
def deliver (f : F) (points : Array (Point F)) (target : Nat) : ReportT m (Array (Point F)) :=
  match points[target]? with
  | none => reject (.fault .indexOutOfRange)
  | some point => do
    let arrived ← lift (point.arrive task.env.pool f)
    if let some w := point.monitorMismatch? f target then
      flag w
    return points.setIfInBounds target arrived

/-- Execution arrives at `target` in frame `f`, and not by an exception. -/
def deliverNormally (f : F) (points : Array (Point F)) (target : Nat) :
    ReportT m (Array (Point F)) := do
  task.checkNormalEdge target
  task.deliver f points target

/-- Execution goes on to the position `next` in frame `f`. Unless that is a branch target, it needs
no frame of its own, because it is looked at right afterwards. -/
def fallThrough (f : F) (points : Array (Point F)) (next : Nat) :
    ReportT m (Array (Point F)) := do
  if task.env.layout.size ≤ next then
    reject (.flow .fallsOff)
  let site ← ofFault (task.env.layout.site next)
  if site.isTarget then
    task.deliverNormally f points next
  else
    return points.modify next Point.queue

/-- The frame before the position `pc`. -/
def frameBefore (s : Progress F) (pc : Nat) : Except Fault F := do
  let site ← task.env.layout.site pc
  if site.isTarget then
    match s.points[pc]?.bind Point.entry with
    | some f => return f
    | none => throw .missingState
  else
    return s.work

/-- The frame after the operation at `pc`. Only an operation that fetches the value left behind by a
call still finds it. -/
def frameAfter (pc : Nat) (o : Operation) (before : F) : ReportT m F :=
  Flow.transfer task.env pc o
    (if o.opcode.isMoveResult then before else Flow.clearResult before)

/-- Lets execution arrive at everything that may follow the operation at `pc`: by an exception in
frame `before`, and otherwise in frame `after`. -/
def depart (s : Progress F) (pc : Nat) (o : Operation) (before after : F) :
    ReportT m (Progress F) := do
  let points ← (task.handlers pc o).foldlM (task.deliver (Flow.clearResult before)) s.points
  let jumps ← ofFault (task.jumps o)
  let points ← jumps.foldlM (task.deliverNormally after) points
  if o.opcode.canContinue then
    let points ← task.fallThrough after points (pc + 1)
    return { s with points, work := after, cursor := pc + 1 }
  else
    return { s with points, work := after, cursor := jumps.headD s.cursor }

/-- Applies the operation at `pc` and goes on behind it. -/
def visitOperation (s : Progress F) (pc : Nat) (o : Operation) (before : F) :
    ReportT m (Progress F) := do
  task.depart s pc o before (← task.frameAfter pc o before)

/-- Goes on behind the label mark at `pc`. -/
def visitLabel (s : Progress F) (pc : Nat) (before : F) : ReportT m (Progress F) := do
  let points ← task.fallThrough before s.points (pc + 1)
  return { s with points, work := before, cursor := pc + 1 }

/-- Looks at the position `pc`, where execution arrives in frame `before`. -/
def visit (s : Progress F) (pc : Nat) (before : F) : ReportT m (Progress F) := do
  let s ← match task.operation? pc with
    | some o => task.visitOperation s pc o before
    | none => task.visitLabel s pc before
  return { s with points := s.points.modify pc Point.leave }

end Task

end BytecodeVerifier
