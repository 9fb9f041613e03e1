import BytecodeVerifier.TypeTable.HandleTransfer
import BytecodeVerifier.Verifier

/-!
# The verifier on handles

A verification that knows every type by its handle in a table. The table is taken along from one
method to the next, so that handles of one verification stay valid in the later ones.
`Method.verifyOver` does what `Method.verify` does; the structure of a method is checked before any
type comes in, and is checked by the same definitions.
-/

namespace BytecodeVerifier

instance : Flow Lookup HandleFrame where
  transfer := Lookup.transfer
  absorb := HandleFrame.absorb
  clearResult := HandleFrame.clearResult
  monitors := HandleFrame.monitors

/-- The accepted method as a table shows it: with the types that the handles stand for. -/
def VerifiedMethod.view (v : VerifiedMethod HandleFrame) (t : TypeTable) : VerifiedMethod :=
  { body := v.body
    states := v.states.map fun s => (s.1, s.2.view t)
    flags := v.flags
    visits := v.visits }

namespace Method

open Lookup HandleFrame

/-- The frame with the parameters written from register `reg` on. -/
def writeParamHandles (p : ClassPool) (f : HandleFrame) (reg : Nat) :
    List Descriptor → Lookup (Except Violation HandleFrame)
  | [] => return .ok f
  | param :: params => do
    let h ← ofDescriptor p param false
    if h = .fixed .conflict then
      return .error (.declaration (.parameter param))
    match ← (f.write reg h).run with
    | .error e => return .error (.frame e)
    | .ok f' => writeParamHandles p f' (reg + param.slots) params

/-- The frame in which the method is entered. -/
def entryHandles (p : ClassPool) (m : Method) (classType : Handle) :
    Lookup (Except Violation HandleFrame) := do
  let blank := HandleFrame.blank m.locals m.ins
  if m.isStatic then
    return ← writeParamHandles p blank m.locals m.proto.params
  let receiver ← if m.entersUninitialized then asUninitializedThis classType else pure classType
  match ← (blank.writeSingle m.locals receiver).run with
  | .error e => return .error (.frame e)
  | .ok f =>
    let f := { f with thisInitialized := !m.entersUninitialized }
    writeParamHandles p f (m.locals + 1) m.proto.params

/-- The method with the code `body`, its declaration and the structure of the code checked, and the
declaring class as the type of an object. -/
def taskOver (p : ClassPool) (config : Config) (m : Method) (body : Body) :
    ExceptT Failure Lookup (Task × Handle) := do
  Failure.unplaced .declaration m.checkDeclaration
  let operations ← operationsFrom m.registers 0 body.code
  let classType ← Lookup.ofReference p m.owner false
  if classType = .fixed .conflict then
    throw (.hard (.declaration (.declaringClass m.owner)) none)
  let layout ← Failure.unplaced .fault (Layout.ofBody body)
  Failure.unplaced .declaration layout.checkSpans
  let env : Environment :=
    { pool := p, method := m, layout, preciseConstants := config.preciseConstants }
  return ({ env, operations := operations.toArray }, classType)

/-- Verifies a method over a table, if that takes at most `limit` visits. -/
def verifyOverWithin (limit : Nat) (p : ClassPool) (config : Config) (m : Method) :
    ExceptT Failure Lookup (VerifiedMethod HandleFrame) := do
  let body ← Failure.unplaced .fault m.body.normalize
  let (task, classType) ← m.taskOver p config body
  let entry ← Failure.unplaced id (← m.entryHandles p classType)
  let final ← ExceptT.mk (task.solveM config limit (.start task.env.layout.size entry))
  let states ← Failure.unplaced .fault (reachedLabels body.code final.points)
  return { body, states, flags := final.flags, visits := final.visits }

/-- Verifies a method over a table. -/
def verifyOver (p : ClassPool) (config : Config) (m : Method) :
    ExceptT Failure Lookup (VerifiedMethod HandleFrame) :=
  m.verifyOverWithin visitLimit p config

/-- What comes of verifying a method over a table, with the types that the table has then. -/
def outcomeOver (p : ClassPool) (config : Config) (m : Method) (t : TypeTable) :
    Except Failure VerifiedMethod :=
  let (outcome, t') := (m.verifyOver p config).run t
  outcome.map fun v => v.view t'

end Method

end BytecodeVerifier
