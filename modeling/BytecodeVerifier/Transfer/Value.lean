import BytecodeVerifier.Operation
import BytecodeVerifier.Transfer.Expectation

/-!
# Values

Moves, constants, returns, monitors, branches and arithmetic.
-/

namespace BytecodeVerifier

namespace Environment

open ReportT

variable (env : Environment)

/-- Copies a register, or a pair of them. A register that is in conflict may be copied, since only
its use is an error. -/
def move (form : ValueForm) (dst src : Nat) (f : Frame) : Report Frame := do
  match form with
  | .wide =>
    let lo ← read f src
    let hi ← read f (src + 1)
    if !lo.pairsWith hi then
      reject (.value (.moveWide src lo hi))
    ofFrame (f.writePair dst lo hi)
  | .single | .object =>
    let t ← read f src
    let fits := if form = .object then t.isReference else t.isSingle
    if !(t.isConflict || fits) then
      reject (.value (.move (.move form) dst src t))
    writeSingle f dst t

/-- Takes the value that a call has left behind. -/
def moveResult (form : ValueForm) (dst : Nat) (f : Frame) : Report Frame := do
  let (_, f) ← ofFrame (f.consumeResult dst form)
  return f

/-- The type of what one handler catches. -/
def caughtType : Option Descriptor → Report RegType
  | none => pure .throwable
  | some d => do
    let t := RegType.ofReference env.pool d false
    if t = .conflict then
      reject (.value (.catchNoClass d))
    if !RegType.throwable.isAssignable env.pool t then
      reject (.value (.catchNoThrowable d))
    return t

/-- Takes the exception at the start of a handler. Its type is the merge of all that is caught
there. -/
def moveException (pc dst : Nat) (f : Frame) : Report Frame := do
  match pc with
  | 0 => reject (.value .exceptionAtEntry)
  | before + 1 =>
    let handler ← ofFault (env.layout.site before)
    if !handler.isHandler then
      reject (.value .exceptionOutsideHandler)
    match ← handler.catches.mapM env.caughtType with
    | [] => reject (.fault .noCaughtType)
    | t :: ts => writeSingle f dst (ts.foldl (RegType.merge env.pool) t)

/-- A method that returns holds no monitor. -/
def checkMonitors (f : Frame) : Report Unit :=
  match f.monitors with
  | some (n + 1) => flag (.monitorsHeld (n + 1))
  | _ => pure ()

/-- Returns from a method without a value. A constructor must have called another one before. -/
def returnVoid (f : Frame) : Report Frame := do
  let declared := env.method.proto.ret
  if !declared.isVoid then
    reject (.value (.returnForm .returnVoid declared))
  if env.method.isConstructor && !f.thisInitialized then
    reject (.value .returnBeforeSuper)
  checkMonitors f
  return f

/-- A `boolean`, `byte`, `short` or `char`, which may be returned as any `int`. -/
def isNarrow : RegType → Bool
  | .boolean | .byte | .short | .char => true
  | _ => false

/-- The register holds what a method that returns one register may return. -/
def checkReturnSingle (f : Frame) (src : Nat) (ret : RegType) : Report Unit := do
  if isNarrow ret && (← read f src) = .int then
    return
  env.expectSingle f src ret

/-- The register holds what a method that returns a reference may return. -/
def checkReturnObject (f : Frame) (src : Nat) (ret : RegType) : Report Unit := do
  let actual ← read f src
  if actual.isUninitialized then
    reject (.value (.returnUninitialized src))
  if !actual.isReference || !ret.isAssignable env.pool actual then
    reject (.value (.returnType actual env.method.proto.ret))

/-- Returns a value from a method. -/
def returnValue (form : ValueForm) (src : Nat) (f : Frame) : Report Frame := do
  let declared := env.method.proto.ret
  let ret := RegType.ofDescriptor env.pool declared false
  let fits :=
    match form with
    | .single => ret.isSingle
    | .wide => ret.isLowHalf
    | .object => ret.isReference
  if !fits then
    reject (.value (.returnForm (.returnValue form) declared))
  match form with
  | .single => env.checkReturnSingle f src ret
  | .wide => env.expectPair f src ret
  | .object => env.checkReturnObject f src ret
  checkMonitors f
  return f

/-- A constant number, precise if the verifier is set so. -/
def constantType (value : Int32) : RegType := .constant value value env.preciseConstants

/-- A class object for a class that may be named here. -/
def constClass (dst : Nat) (type : Descriptor) (f : Frame) : Report Frame := do
  if !type.isReference then
    reject (.value (.classConstant type))
  env.checkClassAccess type
  writeSingle f dst .classObject

/-- A monitor belongs to an object. -/
def checkMonitorOwner (op : Opcode) (object : Nat) (f : Frame) : Report Unit := do
  let t ← read f object
  if !t.isReference then
    reject (.value (.monitor op t))

/-- Takes a monitor. -/
def monitorEnter (object : Nat) (f : Frame) : Report Frame := do
  checkMonitorOwner .monitorEnter object f
  return f.enterMonitor

/-- Gives a monitor back. -/
def monitorExit (object : Nat) (f : Frame) : Report Frame := do
  checkMonitorOwner .monitorExit object f
  match f.exitMonitor? with
  | some f => return f
  | none =>
    flag .noMonitor
    return f

/-- Throws an initialized object, or null. -/
def throwException (src : Nat) (f : Frame) : Report Frame := do
  let t ← read f src
  if t.isZero then
    return f
  if t.isUninitialized then
    reject (.value (.throwUninitialized src))
  if !t.isReference then
    reject (.value (.throwValue t))
  env.expectSingle f src .throwable
  return f

/-- Two registers are compared for equality if both are references or both integral; for order, if
both are integral. -/
def ifPair (test : Condition) (a b : Nat) (f : Frame) : Report Frame := do
  match test with
  | .eq | .ne =>
    let ta ← read f a
    let tb ← read f b
    if !(ta.isReference && tb.isReference || ta.fitsInt && tb.fitsInt) then
      reject (.value (.comparedPair (.ifPair test) a b))
  | .lt | .ge | .gt | .le =>
    env.expectSingle f a .int
    env.expectSingle f b .int
  return f

/-- A register is compared with zero, or with null. -/
def ifZero (test : Condition) (a : Nat) (f : Frame) : Report Frame := do
  match test with
  | .eq | .ne =>
    let t ← read f a
    if !(t.isReference || t.fitsInt) then
      reject (.value (.compared (.ifZero test) a t))
  | .lt | .ge | .gt | .le => env.expectSingle f a .int
  return f

/-- Compares two numbers; the answer is an `int`. -/
def compare (c : Comparison) (dst a b : Nat) (f : Frame) : Report Frame := do
  env.expectPrimitive f a c.operand
  env.expectPrimitive f b c.operand
  write f dst .int

/-- Computes from one register. -/
def unary (op : UnaryOp) (dst src : Nat) (f : Frame) : Report Frame := do
  env.expectPrimitive f src op.source
  write f dst (.ofPrimitive op.target)

/-- The result of an operation on the registers `a` and `b`, whose types are checked. -/
def binaryResult (op : BinaryOp) (a b : Nat) (f : Frame) : Report RegType := do
  if op.keepsBooleans && (← read f a).fitsBoolean && (← read f b).fitsBoolean then
    return .boolean
  return .ofPrimitive op.target

/-- Computes from two registers. Bitwise operations keep booleans boolean. -/
def binary (op : BinaryOp) (dst a b : Nat) (f : Frame) : Report Frame := do
  env.expectPrimitive f a op.target
  env.expectPrimitive f b op.second
  write f dst (← binaryResult op a b f)

/-- Computes from a register and a literal; a literal that is 0 or 1 counts as a boolean. -/
def literal (op : LiteralOp) (dst src : Nat) (value : Int32) (f : Frame) : Report Frame := do
  env.expectSingle f src .int
  let t ← read f src
  let boolean := op.keepsBooleans && t.fitsBoolean && (value == 0 || value == 1)
  write f dst (if boolean then .boolean else .int)

/-- Shifts by a literal. -/
def shiftLiteral (dst src : Nat) (f : Frame) : Report Frame := do
  env.expectSingle f src .int
  write f dst .int

end Environment

end BytecodeVerifier
