import BytecodeVerifier.Code.NormalForm
import BytecodeVerifier.Dataflow.Solve
import BytecodeVerifier.Operation.Shape

/-!
# The verifier

`Method.verify` brings the body of a method into normal form, checks the method's declaration and
the operands of all its instructions, and then follows the types of all registers along every path.
-/

namespace BytecodeVerifier

/-- A method that has been accepted. -/
structure VerifiedMethod (F : Type := Frame) where
  /-- The body in normal form. -/
  body : Body
  /-- The frame at each branch target that can be reached, in the order of the labels. -/
  states : List (Label × F)
  /-- What is left to be checked at run time, each once. -/
  flags : List Flag
  visits : Nat
  deriving DecidableEq, Repr

/-- The frame at a label of the normal form, if execution can reach it. -/
def VerifiedMethod.state? (v : VerifiedMethod) (l : Label) : Option Frame := v.states.lookup l

/-- Some checks are left to run time. -/
def VerifiedMethod.hasWarnings (v : VerifiedMethod) : Bool := !v.flags.isEmpty

/-- A failure that is not about an instruction. -/
def Failure.unplaced {ε α : Type} (f : ε → Violation) : Except ε α → Except Failure α
  | .ok a => .ok a
  | .error e => .error (.hard (f e) none)

/-- No protected span ends before it starts. -/
def Layout.checkSpans (l : Layout) : Except DeclarationViolation Unit :=
  match l.spans.find? (fun s => s.stop < s.start) with
  | some s => .error (.reversedRange s.start s.stop)
  | none => .ok ()

/-- The operations of the code that begins at position `pc`, in a frame of `size` registers. -/
def operationsFrom (size : Nat) :
    (pc : Nat) → List Instruction → Except Failure (List (Option Operation))
  | _, [] => .ok []
  | pc, i :: rest =>
    match i.toOperation? size with
    | .error v => .error (.hard v (some pc))
    | .ok o => (o :: ·) <$> operationsFrom size (pc + 1) rest

/-- The labels that were reached, each with its frame. -/
def reachedLabels {F : Type} (code : List Instruction) (points : Array (Point F)) :
    Except Fault (List (Label × F)) :=
  let reached := (code.zip points.toList).filterMap fun (i, point) => point.entry.map (i, ·)
  reached.mapM fun (i, f) =>
    match i.placed? with
    | some l => .ok (l, f)
    | none => .error .targetNotLabel

namespace Method

/-- The method has the argument registers that its prototype asks for, and the prototype is well
formed. -/
def checkDeclaration (m : Method) : Except DeclarationViolation Unit :=
  if m.ins ≠ m.expectedIns then .error (.argumentCount m.ins m.expectedIns)
  else if m.proto.params.any (fun p => !p.isValid || p.isVoid) || !m.proto.ret.isValid then
    .error (.signature m.proto)
  else .ok ()

/-- The receiver is not initialized on entry: the method is a constructor, and not that of the root
class. -/
def entersUninitialized (m : Method) : Bool := m.isConstructor && m.owner != .object

/-- The frame with the parameters written from register `reg` on. -/
def writeParams (p : ClassPool) (f : Frame) (reg : Nat) : List Descriptor → Except Violation Frame
  | [] => .ok f
  | param :: params =>
    let t := RegType.ofDescriptor p param false
    if t = .conflict then .error (.declaration (.parameter param))
    else
      match f.write reg t with
      | .error e => .error (.frame e)
      | .ok f' => writeParams p f' (reg + param.slots) params

/-- The frame in which the method is entered. -/
def entryFrame (p : ClassPool) (m : Method) (classType : RegType) : Except Violation Frame :=
  let blank := Frame.blank m.locals m.ins
  if m.isStatic then writeParams p blank m.locals m.proto.params
  else
    let receiver := if m.entersUninitialized then classType.asUninitializedThis else classType
    match blank.writeSingle m.locals receiver with
    | .error e => .error (.frame e)
    | .ok f =>
      let f := { f with thisInitialized := !m.entersUninitialized }
      writeParams p f (m.locals + 1) m.proto.params

/-- The declaring class as the type of an object. -/
def classType (p : ClassPool) (m : Method) : RegType := .ofReference p m.owner false

/-- The method with the code `body`, its declaration and the structure of the code checked. -/
def task (p : ClassPool) (config : Config) (m : Method) (body : Body) : Except Failure Task := do
  Failure.unplaced .declaration m.checkDeclaration
  let operations ← operationsFrom m.registers 0 body.code
  if m.classType p = .conflict then
    throw (.hard (.declaration (.declaringClass m.owner)) none)
  let layout ← Failure.unplaced .fault (Layout.ofBody body)
  Failure.unplaced .declaration layout.checkSpans
  let env : Environment :=
    { pool := p, method := m, layout, preciseConstants := config.preciseConstants }
  return { env, operations := operations.toArray }

/-- Verifies a method against the classes of a pool, if that takes at most `limit` visits. -/
def verifyWithin (limit : Nat) (p : ClassPool) (config : Config) (m : Method) :
    Except Failure VerifiedMethod := do
  let body ← Failure.unplaced .fault m.body.normalize
  let task ← m.task p config body
  let entry ← Failure.unplaced id (m.entryFrame p (m.classType p))
  let final ← task.solve config limit (Progress.start task.env.layout.size entry)
  let states ← Failure.unplaced .fault (reachedLabels body.code final.points)
  return { body, states, flags := final.flags, visits := final.visits }

/-- Verifies a method against the classes of a pool. -/
def verify (p : ClassPool) (config : Config) (m : Method) : Except Failure VerifiedMethod :=
  m.verifyWithin visitLimit p config

end Method

end BytecodeVerifier
