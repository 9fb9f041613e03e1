import BytecodeVerifier.Operation
import BytecodeVerifier.Transfer.Expectation

/-!
# Calls

A call is checked in this order: what it names, what that resolves to, the number of argument
registers, the receiver, the arguments, the return type. A method that cannot be found is a warning,
and the call is then checked against the prototype that it names.
-/

namespace BytecodeVerifier

/-- How a call looks its method up. -/
def InvokeKind.search : InvokeKind → MethodSearch
  | .direct | .static => .direct
  | .virtual | .super => .virtual
  | .interface => .interface

/-- The method is of the kind that the call is for. -/
def InvokeKind.suits (kind : InvokeKind) (m : MethodDef) : Bool :=
  match kind with
  | .direct => m.isDirect && !m.flags.has .static
  | .static => m.flags.has .static
  | .virtual | .super | .interface => !m.isDirect

namespace Environment

open ReportT

variable (env : Environment)

/-- What can be told from the reference alone: class initializers are never called,
constructors only directly, and the owner is a class or an array. -/
def checkCallee (kind : InvokeKind) (method : MethodRef) : Report Unit := do
  if method.isClassInitializer then
    reject (.call (.classInitializer method))
  if method.isConstructor && kind != .direct then
    reject (.call (.indirectConstructor method))
  if !method.owner.isReference then
    reject (.call (.owner method.owner))
  env.checkClassAccess method.owner

/-- The declaration that was found is one that this call may reach. -/
def checkResolved (kind : InvokeKind) (op : Opcode) (method : MethodRef) (found : MethodDef) :
    Report Unit := do
  let here := env.method.owner
  if !kind.suits found then
    reject (.call (.kind op method))
  if !env.canAccessMember found.owner found.flags then
    reject (.call (.access method here))
  if kind = .super && (found.owner == here || !env.pool.isSubclass here found.owner) then
    flag (.superOutside method here)

/-- Looks the method up. Arrays inherit every method of the root class. -/
def resolveCall (kind : InvokeKind) (op : Opcode) (method : MethodRef) : Report Unit := do
  let owner := if method.owner.isArray then .object else method.owner
  match env.pool.find? owner with
  | none => flag (.unknownOwner method)
  | some c =>
    if kind = .interface && !c.isInterface then
      reject (.call (.noInterface op owner))
    if kind = .virtual && c.isInterface then
      reject (.call (.interface op owner))
    match env.pool.resolveMethod owner method.name method.proto kind.search with
    | none => flag (.unknownMethod method)
    | some found => env.checkResolved kind op method found

/-- A constructor is called on an uninitialized object of the class it belongs to, or on the
receiver of a constructor of its own class or of a direct subclass. Called on null it initializes
nothing. -/
def checkConstructed (method : MethodRef) (t : RegType) : Report (Option RegType) := do
  let here := env.method.owner
  if t.isZero then
    return none
  if !t.isUninitialized then
    reject (.call (.initializedReceiver method t))
  if t.isUninitializedThis then
    match env.pool.find? here with
    | none => flag (.unknownDeclaringClass here method)
    | some c =>
      if method.owner != here && c.superclass != some method.owner then
        reject (.call (.thisTarget here method.owner))
  else if t.descriptor? != some method.owner then
    reject (.call (.constructorOwner method.owner t))
  return some t

/-- A receiver is an initialized object of the class that the call names; the class is checked again
at run time. -/
def checkInstance (op : Opcode) (method : MethodRef) (reg : Nat) (t : RegType) : Report Unit := do
  if t.isUninitialized then
    reject (.object (.uninitialized op reg))
  if !t.isZero then
    if !(RegType.ofReference env.pool method.owner false).isAssignable env.pool t then
      flag (.receiverMismatch t method.owner)

/-- Checks the receiver of a call. Gives the uninitialized object that the call initializes. -/
def checkReceiver (op : Opcode) (method : MethodRef) (reg : Nat) (f : Frame) :
    Report (Option RegType) := do
  let t ← read f reg
  if !t.isReference then
    reject (.call (.receiver op reg t))
  if method.isConstructor then
    env.checkConstructed method t
  else
    env.checkInstance op method reg t
    return none

/-- Checks one argument, given the registers from its first on. -/
def checkArgument (method : MethodRef) (param : Descriptor) (regs : List Nat) (f : Frame) :
    Report Unit := do
  match regs with
  | [] => reject (.fault .noArgument)
  | reg :: rest =>
    let expected := RegType.ofDescriptor env.pool param false
    if expected = .conflict then
      reject (.call (.parameter param method))
    if expected.isLowHalf then
      match rest with
      | [] => reject (.fault .noArgument)
      | hi :: _ =>
        if hi ≠ reg + 1 then
          reject (.call (.splitArgument param reg hi))
        env.expectPair f reg expected
    else
      env.expectSingle f reg expected

/-- Checks the arguments one after another, each against as many registers as its type takes. -/
def checkArguments (method : MethodRef) (f : Frame) :
    (params : List Descriptor) → (regs : List Nat) → Report Unit
  | [], _ => pure ()
  | param :: params, regs => do
    env.checkArgument method param regs f
    checkArguments method f params (regs.drop param.slots)

/-- Checks a call's registers: the receiver, if there is one, then the arguments. Gives the
uninitialized object that the call initializes. -/
def checkRegisters (kind : InvokeKind) (op : Opcode) (args : List Nat) (method : MethodRef)
    (f : Frame) : Report (Option RegType) := do
  let receivers := if kind = .static then 0 else 1
  let expected := method.proto.argSlots + receivers
  if args.length ≠ expected then
    reject (.call (.argumentCount op method expected args.length))
  if kind = .static then
    env.checkArguments method f method.proto.params args
    return none
  match args with
  | [] => reject (.fault .noReceiver)
  | receiver :: args =>
    let initialized ← env.checkReceiver op method receiver f
    env.checkArguments method f method.proto.params args
    return initialized

/-- The frame in which the value of a call is left behind. -/
def leaveResult (method : MethodRef) (f : Frame) : Report Frame := do
  let ret := method.proto.ret
  if ret.isVoid then
    return f
  let t := RegType.ofDescriptor env.pool ret false
  if t = .conflict then
    reject (.call (.returnType method))
  return f.setResult t

/-- Calls a method. A constructor initializes every copy of its receiver. -/
def invoke (kind : InvokeKind) (form : ArgumentForm) (args : List Nat) (method : MethodRef)
    (f : Frame) : Report Frame := do
  let op := Opcode.invoke kind form
  env.checkCallee kind method
  env.resolveCall kind op method
  let initialized ← env.checkRegisters kind op args method f
  let f := match initialized with
    | some uninit => f.markInitialized env.pool uninit
    | none => f
  env.leaveResult method f

end Environment

end BytecodeVerifier
