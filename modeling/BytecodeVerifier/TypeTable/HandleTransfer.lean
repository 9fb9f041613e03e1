import BytecodeVerifier.Transfer
import BytecodeVerifier.TypeTable.HandleFrame

/-!
# Transfer on handles

What an operation does to a frame of handles. Every type that an operation comes by on its way,
such as the declared type of a field, is entered into the table. What does not depend on the
registers is checked as in `Environment.transfer`, and so is what depends only on the types that the
table has for them.
-/

namespace BytecodeVerifier

/-- A check that works with a table. -/
abbrev TableReport := ReportT Lookup

namespace TableReport

open ReportT (reject flag lift ofReport)

variable {α : Type}

/-- An access to a frame as a check. -/
def ofAccess (x : HandleFrame.Access α) : TableReport α := do
  match ← lift x.run with
  | .ok a => return a
  | .error e => reject (.frame e)

/-- A check of the types that the table has for the registers of a frame. -/
def viewing (check : Frame → Report α) (f : HandleFrame) : TableReport α := do
  ofReport (check (f.view (← lift get)))

/-- The type that a handle stands for. -/
def typeOf (h : Handle) : TableReport RegType := lift (Lookup.type h)

/-- The handle of a type, issued now if it has none. -/
def handleOf (x : RegType) : TableReport Handle := lift (Lookup.intern x)

/-- The handle in a register. -/
def read (f : HandleFrame) (reg : Nat) : TableReport Handle := ofAccess (f.read reg)

/-- The type in a register. -/
def typeAt (f : HandleFrame) (reg : Nat) : TableReport RegType := do typeOf (← read f reg)

/-- Writes a value, given by its low half if it is wide. -/
def write (f : HandleFrame) (reg : Nat) (h : Handle) : TableReport HandleFrame :=
  ofAccess (f.write reg h)

/-- Writes a value that takes one register. -/
def writeSingle (f : HandleFrame) (reg : Nat) (h : Handle) : TableReport HandleFrame :=
  ofAccess (f.writeSingle reg h)

end TableReport

namespace Lookup

open TableReport
open ReportT (reject flag lift ofFault ofReport)
open Environment (isRecheckable isNarrow canStore)

variable (env : Environment)

/-! ## Expectations -/

/-- The register holds a value usable as `expected`, which takes one register. -/
def expectSingle (f : HandleFrame) (reg : Nat) (expected : Handle) : TableReport Unit := do
  let actual ← read f reg
  if ← lift (isAssignable env.pool expected actual) then
    return
  let x ← typeOf actual
  let y ← typeOf expected
  if isRecheckable x y then
    flag (.typeMismatch reg x y)
  else
    reject (.value (.mismatch reg x y))

/-- The register and the one after it hold a wide value whose low half is usable as `expected`. -/
def expectPair (f : HandleFrame) (reg : Nat) (expected : Handle) : TableReport Unit := do
  if ← ofAccess (f.holdsPair env.pool reg expected) then
    return
  let lo ← typeAt f reg
  let hi ← typeAt f (reg + 1)
  reject (.value (.pairMismatch reg lo hi (← typeOf expected)))

/-- The register holds a value usable as `expected`, wide or not. -/
def expect (f : HandleFrame) (reg : Nat) (expected : Handle) : TableReport Unit := do
  if (← typeOf expected).isLowHalf then expectPair env f reg expected
  else expectSingle env f reg expected

/-- The register holds a value of a primitive type. -/
def expectPrimitive (f : HandleFrame) (reg : Nat) (t : Primitive) : TableReport Unit :=
  expect env f reg (.fixed (.ofPrimitive t))

/-! ## Values -/

/-- Copies a register, or a pair of them. -/
def move (form : ValueForm) (dst src : Nat) (f : HandleFrame) : TableReport HandleFrame := do
  match form with
  | .wide =>
    let lo ← read f src
    let hi ← read f (src + 1)
    let x ← typeOf lo
    let y ← typeOf hi
    if !x.pairsWith y then
      reject (.value (.moveWide src x y))
    ofAccess (f.writePair dst lo hi)
  | .single | .object =>
    let h ← read f src
    let t ← typeOf h
    let fits := if form = .object then t.isReference else t.isSingle
    if !(t.isConflict || fits) then
      reject (.value (.move (.move form) dst src t))
    writeSingle f dst h

/-- The type of what one handler catches. -/
def caughtType (throwable : Handle) : Option Descriptor → TableReport Handle
  | none => return throwable
  | some d => do
    let h ← lift (ofReference env.pool d false)
    if h = .fixed .conflict then
      reject (.value (.catchNoClass d))
    if !(← lift (isAssignable env.pool throwable h)) then
      reject (.value (.catchNoThrowable d))
    return h

/-- The merge of what was caught before and what one more handler catches. -/
def alsoCaught (throwable : Handle) (caught : Option Handle) (catches : Option Descriptor) :
    TableReport (Option Handle) := do
  let h ← caughtType env throwable catches
  match caught with
  | none => return some h
  | some before => return some (← lift (merge env.pool before h))

/-- Takes the exception at the start of a handler. -/
def moveException (pc dst : Nat) (f : HandleFrame) : TableReport HandleFrame := do
  match pc with
  | 0 => reject (.value .exceptionAtEntry)
  | before + 1 =>
    let handler ← ofFault (env.layout.site before)
    if !handler.isHandler then
      reject (.value .exceptionOutsideHandler)
    let throwable ← handleOf .throwable
    match ← handler.catches.foldlM (alsoCaught env throwable) none with
    | none => reject (.fault .noCaughtType)
    | some h => writeSingle f dst h

/-- Returns from a method without a value. -/
def returnVoid (f : HandleFrame) : TableReport HandleFrame := do
  let _ ← lift (ofDescriptor env.pool env.method.proto.ret false)
  let _ ← viewing env.returnVoid f
  return f

/-- The register holds what a method that returns one register may return. -/
def checkReturnSingle (f : HandleFrame) (src : Nat) (ret : Handle) : TableReport Unit := do
  if isNarrow (← typeOf ret) && (← typeAt f src) = .int then
    return
  expectSingle env f src ret

/-- The register holds what a method that returns a reference may return. -/
def checkReturnObject (f : HandleFrame) (src : Nat) (ret : Handle) : TableReport Unit := do
  let actual ← read f src
  let x ← typeOf actual
  if x.isUninitialized then
    reject (.value (.returnUninitialized src))
  if !x.isReference || !(← lift (isAssignable env.pool ret actual)) then
    reject (.value (.returnType x env.method.proto.ret))

/-- Returns a value from a method. -/
def returnValue (form : ValueForm) (src : Nat) (f : HandleFrame) : TableReport HandleFrame := do
  let declared := env.method.proto.ret
  let ret ← lift (ofDescriptor env.pool declared false)
  let x ← typeOf ret
  let fits :=
    match form with
    | .single => x.isSingle
    | .wide => x.isLowHalf
    | .object => x.isReference
  if !fits then
    reject (.value (.returnForm (.returnValue form) declared))
  match form with
  | .single => checkReturnSingle env f src ret
  | .wide => expectPair env f src ret
  | .object => checkReturnObject env f src ret
  viewing Environment.checkMonitors f
  return f

/-- Writes a constant number, precise if the verifier is set so. -/
def constInt (dst : Nat) (value : Int32) (f : HandleFrame) : TableReport HandleFrame := do
  writeSingle f dst (← handleOf (env.constantType value))

/-- A class object for a class that may be named here. -/
def constClass (dst : Nat) (type : Descriptor) (f : HandleFrame) : TableReport HandleFrame := do
  if !type.isReference then
    reject (.value (.classConstant type))
  ofReport (env.checkClassAccess type)
  writeSingle f dst (← handleOf .classObject)

/-- Takes a monitor. -/
def monitorEnter (object : Nat) (f : HandleFrame) : TableReport HandleFrame := do
  viewing (Environment.checkMonitorOwner .monitorEnter object) f
  return f.enterMonitor

/-- Gives a monitor back. -/
def monitorExit (object : Nat) (f : HandleFrame) : TableReport HandleFrame := do
  viewing (Environment.checkMonitorOwner .monitorExit object) f
  match f.exitMonitor? with
  | some f => return f
  | none =>
    flag .noMonitor
    return f

/-- Throws an initialized object, or null. -/
def throwException (src : Nat) (f : HandleFrame) : TableReport HandleFrame := do
  let t ← typeAt f src
  if t.isZero then
    return f
  if t.isUninitialized then
    reject (.value (.throwUninitialized src))
  let throwable ← handleOf .throwable
  if !t.isReference then
    reject (.value (.throwValue t))
  expectSingle env f src throwable
  return f

/-- Two registers are compared. -/
def ifPair (test : Condition) (a b : Nat) (f : HandleFrame) : TableReport HandleFrame := do
  match test with
  | .eq | .ne =>
    let ta ← typeAt f a
    let tb ← typeAt f b
    if !(ta.isReference && tb.isReference || ta.fitsInt && tb.fitsInt) then
      reject (.value (.comparedPair (.ifPair test) a b))
  | .lt | .ge | .gt | .le =>
    expectSingle env f a (.fixed .int)
    expectSingle env f b (.fixed .int)
  return f

/-- A register is compared with zero, or with null. -/
def ifZero (test : Condition) (a : Nat) (f : HandleFrame) : TableReport HandleFrame := do
  match test with
  | .eq | .ne =>
    let t ← typeAt f a
    if !(t.isReference || t.fitsInt) then
      reject (.value (.compared (.ifZero test) a t))
  | .lt | .ge | .gt | .le => expectSingle env f a (.fixed .int)
  return f

/-- Compares two numbers; the answer is an `int`. -/
def compare (c : Comparison) (dst a b : Nat) (f : HandleFrame) : TableReport HandleFrame := do
  expectPrimitive env f a c.operand
  expectPrimitive env f b c.operand
  write f dst (.fixed .int)

/-- Computes from one register. -/
def unary (op : UnaryOp) (dst src : Nat) (f : HandleFrame) : TableReport HandleFrame := do
  expectPrimitive env f src op.source
  write f dst (.fixed (.ofPrimitive op.target))

/-- Computes from two registers. -/
def binary (op : BinaryOp) (dst a b : Nat) (f : HandleFrame) : TableReport HandleFrame := do
  expectPrimitive env f a op.target
  expectPrimitive env f b op.second
  write f dst (.fixed (← viewing (Environment.binaryResult op a b) f))

/-- Computes from a register and a literal. -/
def literal (op : LiteralOp) (dst src : Nat) (value : Int32) (f : HandleFrame) :
    TableReport HandleFrame := do
  expectSingle env f src (.fixed .int)
  let t ← typeAt f src
  let boolean := op.keepsBooleans && t.fitsBoolean && (value == 0 || value == 1)
  write f dst (.fixed (if boolean then .boolean else .int))

/-- Shifts by a literal. -/
def shiftLiteral (dst src : Nat) (f : HandleFrame) : TableReport HandleFrame := do
  expectSingle env f src (.fixed .int)
  write f dst (.fixed .int)

/-! ## Array elements -/

/-- The type read through a null reference. -/
def elementOfNull (form : ElementForm) : Lookup Handle :=
  match form with
  | .single => intern (env.constantType 1)
  | _ => return .fixed (env.elementOfNull form)

/-- Reads an element. -/
def arrayGet (form : ElementForm) (dst array index : Nat) (f : HandleFrame) :
    TableReport HandleFrame := do
  let op := Opcode.array .get form
  viewing (Environment.checkIndex index) f
  let h ← read f array
  let t ← typeOf h
  if t.isZero then
    return ← write f dst (← lift (elementOfNull env form))
  if t = .unresolvedMerged then
    if form ≠ .object then
      reject (.element (.unresolved op))
    flag (.unresolvedArray op)
    return ← write f dst (← handleOf .object)
  if !t.isArray then
    reject (.object (.noArray op t))
  let component ← lift (component env.pool h)
  let _ ← ofReport (Environment.elementRead form t (← typeOf component))
  write f dst component

/-- The type expected of a value that is stored through a null reference. -/
def storedToNull (form : ElementForm) (value : RegType) : Lookup Handle :=
  match form with
  | .object => intern .object
  | _ => return .fixed (Environment.storedToNull form value)

/-- A reference is stored. That it fits the array is checked again at run time. -/
def storeObject (value : Nat) (array : RegType) (component : Handle) (f : HandleFrame) :
    TableReport Unit := do
  if !(← typeOf component).isReference then
    reject (.element (.primitiveArray (.array .put .object) array))
  expectSingle env f value (← handleOf .object)
  let stored ← read f value
  if !(← lift (isAssignable env.pool component stored)) then
    flag (.storedElement (← typeOf stored) array)

/-- A primitive value is stored. -/
def storePrimitive (form : ElementForm) (value : Nat) (array : RegType) (component : Handle)
    (f : HandleFrame) : TableReport Unit := do
  let op := Opcode.array .put form
  let x ← typeOf component
  if !form.touches x then
    reject (.element (.incompatible op array))
  let stored ← typeAt f value
  if x.isLowHalf then
    expectPair env f value component
  else if !canStore x stored then
    reject (.element (.value op value stored array))

/-- Writes an element. The frame stays as it is. -/
def arrayPut (form : ElementForm) (value array index : Nat) (f : HandleFrame) :
    TableReport HandleFrame := do
  let op := Opcode.array .put form
  viewing (Environment.checkIndex index) f
  let h ← read f array
  let t ← typeOf h
  if t.isZero then
    let expected ← lift (storedToNull form (← typeAt f value))
    expect env f value expected
    return f
  if t = .unresolvedMerged then
    if form ≠ .object then
      reject (.element (.unresolved op))
    flag (.unresolvedArray op)
    return f
  if !t.isArray then
    reject (.object (.noArray op t))
  let component ← lift (component env.pool h)
  if form = .object then
    storeObject env value t component f
  else
    storePrimitive env form value t component f
  return f

/-! ## Fields -/

/-- The register holds an object that has the field. -/
def checkFieldObject (field : FieldRef) (owner : Descriptor) (object : Nat) (f : HandleFrame) :
    TableReport Unit := do
  let h ← read f object
  let t ← typeOf h
  if !t.isReference then
    reject (.field (.object object t))
  if t.isUninitialized then
    let own := t.isUninitializedThis && env.method.isConstructor && owner == env.method.owner
    if !own then
      reject (.field (.uninitializedObject field))
  else if !t.isZero then
    let expected ← lift (ofReference env.pool owner false)
    if !(← lift (isAssignable env.pool expected h)) then
      flag (.fieldObject field t)

/-- Reads a field of type `t`. -/
def readField (op : Opcode) (form : ElementForm) (dst : Nat) (field : FieldRef) (t : Handle)
    (f : HandleFrame) : TableReport HandleFrame := do
  let x ← typeOf t
  match form.regType? with
  | none =>
    if !x.isReference then
      reject (.field (.primitive op field))
    write f dst t
  | some named =>
    if form.touches x then
      return ← write f dst t
    if !x.isReference then
      reject (.field (.form op field x))
    flag (.fieldForm op field x)
    write f dst (.fixed named)

/-- Writes a field of type `t`. -/
def writeField (op : Opcode) (form : ElementForm) (value : Nat) (field : FieldRef) (t : Handle)
    (f : HandleFrame) : TableReport Unit := do
  let x ← typeOf t
  if form = .object then
    if !x.isReference then
      reject (.field (.primitive op field))
    expectSingle env f value t
  else
    if !form.touches x then
      reject (.field (.form op field x))
    let stored ← typeAt f value
    if x.isLowHalf then
      expectPair env f value t
    else if !canStore x stored then
      reject (.field (.value op stored field))

/-- Accesses a field of the object in a register, or a static field where there is none. -/
def accessField (access : Access) (form : ElementForm) (value : Nat) (object : Option Nat)
    (field : FieldRef) (f : HandleFrame) : TableReport HandleFrame := do
  let place : FieldPlace := if object.isSome then .instanceField else .staticField
  let op := Opcode.field place access form
  ofReport (env.checkClassAccess field.owner)
  let owner ← ofReport (env.fieldOwner access place field)
  let t ← lift (ofDescriptor env.pool field.type false)
  if t = .fixed .conflict then
    reject (.field (.type field))
  if let some reg := object then
    checkFieldObject env field owner reg f
  match access with
  | .get => readField op form value field t f
  | .put =>
    writeField env op form value field t f
    return f

/-! ## Objects and whole arrays -/

/-- The register holds an initialized object that can be compared with the type `type`, which is
given as well. -/
def checkCastOperand (op : Opcode) (src : Nat) (type : Descriptor) (f : HandleFrame) :
    TableReport Handle := do
  if !type.isReference then
    reject (.object (.castType op type))
  ofReport (env.checkClassAccess type)
  let cast ← lift (ofReference env.pool type false)
  let t ← typeAt f src
  if !t.isReference then
    reject (.object (.castValue op src t))
  if t.isUninitialized then
    reject (.object (.uninitialized op src))
  return cast

/-- The object is of the type afterwards. -/
def checkCast (object : Nat) (type : Descriptor) (f : HandleFrame) : TableReport HandleFrame := do
  write f object (← checkCastOperand env .checkCast object type f)

/-- Whether the object is of the type. -/
def instanceOf (dst src : Nat) (type : Descriptor) (f : HandleFrame) :
    TableReport HandleFrame := do
  let _ ← checkCastOperand env .instanceOf src type f
  write f dst (.fixed .boolean)

/-- The length of an array, or of null, which fails at run time. -/
def arrayLength (dst array : Nat) (f : HandleFrame) : TableReport HandleFrame := do
  let t ← typeAt f array
  if !(t.isZero || t.isArray) then
    reject (.object (.noArray .arrayLength t))
  write f dst (.fixed .int)

/-- Allocates an object, marked with the position of the allocation until a constructor has run on
it. -/
def newInstance (pc dst : Nat) (type : Descriptor) (f : HandleFrame) : TableReport HandleFrame := do
  ofReport (env.checkInstantiable type)
  if Environment.allocationLimit ≤ pc then
    reject (.fault .allocationIndex)
  let allocated ← lift (ofReference env.pool type true)
  let uninit ← lift (asUninitialized allocated pc)
  write (f.invalidate uninit) dst uninit

/-- Makes an array, which is exactly of its type. -/
def newArray (dst size : Nat) (type : Descriptor) (f : HandleFrame) : TableReport HandleFrame := do
  if !type.isArray then
    reject (.object (.arrayType .newArray type))
  ofReport (env.checkClassAccess type)
  expectSingle env f size (.fixed .int)
  write f dst (← lift (ofReference env.pool type true))

/-- Leaves behind an array of `int` or of references, made from registers. -/
def filledNewArray (args : List Nat) (type : Descriptor) (f : HandleFrame) :
    TableReport HandleFrame := do
  match type.component? with
  | none => reject (.object (.arrayType (.filledNewArray .list) type))
  | some component =>
    if !Environment.isFillable component then
      reject (.object (.filledComponent component))
    ofReport (env.checkClassAccess type)
    let expected ← lift (ofDescriptor env.pool component false)
    args.forM fun reg => expectSingle env f reg expected
    let array ← lift (ofReference env.pool type true)
    lift (f.setResult array)

/-- Fills an array of primitives, or null, which fails at run time. -/
def fillArrayData (array : Nat) (width : UInt8) (f : HandleFrame) : TableReport HandleFrame := do
  let _ ← viewing (Environment.fillArrayData array width) f
  return f

/-! ## Calls -/

/-- A constructor is called on an object that it may initialize, which is given. -/
def checkConstructed (method : MethodRef) (h : Handle) : TableReport (Option Handle) := do
  let constructed ← ofReport (env.checkConstructed method (← typeOf h))
  return constructed.map fun _ => h

/-- A receiver is an initialized object of the class that the call names. -/
def checkInstance (op : Opcode) (method : MethodRef) (reg : Nat) (h : Handle) :
    TableReport Unit := do
  let t ← typeOf h
  if t.isUninitialized then
    reject (.object (.uninitialized op reg))
  if !t.isZero then
    let expected ← lift (ofReference env.pool method.owner false)
    if !(← lift (isAssignable env.pool expected h)) then
      flag (.receiverMismatch t method.owner)

/-- Checks the receiver of a call. Gives the uninitialized object that the call initializes. -/
def checkReceiver (op : Opcode) (method : MethodRef) (reg : Nat) (f : HandleFrame) :
    TableReport (Option Handle) := do
  let h ← read f reg
  let t ← typeOf h
  if !t.isReference then
    reject (.call (.receiver op reg t))
  if method.isConstructor then
    checkConstructed env method h
  else
    checkInstance env op method reg h
    return none

/-- Checks one argument, given the registers from its first on. -/
def checkArgument (method : MethodRef) (param : Descriptor) (regs : List Nat) (f : HandleFrame) :
    TableReport Unit := do
  match regs with
  | [] => reject (.fault .noArgument)
  | reg :: rest =>
    let expected ← lift (ofDescriptor env.pool param false)
    if expected = .fixed .conflict then
      reject (.call (.parameter param method))
    if (← typeOf expected).isLowHalf then
      match rest with
      | [] => reject (.fault .noArgument)
      | hi :: _ =>
        if hi ≠ reg + 1 then
          reject (.call (.splitArgument param reg hi))
        expectPair env f reg expected
    else
      expectSingle env f reg expected

/-- Checks the arguments one after another, each against as many registers as its type takes. -/
def checkArguments (method : MethodRef) (f : HandleFrame) :
    (params : List Descriptor) → (regs : List Nat) → TableReport Unit
  | [], _ => pure ()
  | param :: params, regs => do
    checkArgument env method param regs f
    checkArguments method f params (regs.drop param.slots)

/-- Checks a call's registers: the receiver, if there is one, then the arguments. -/
def checkRegisters (kind : InvokeKind) (op : Opcode) (args : List Nat) (method : MethodRef)
    (f : HandleFrame) : TableReport (Option Handle) := do
  let receivers := if kind = .static then 0 else 1
  let expected := method.proto.argSlots + receivers
  if args.length ≠ expected then
    reject (.call (.argumentCount op method expected args.length))
  if kind = .static then
    checkArguments env method f method.proto.params args
    return none
  match args with
  | [] => reject (.fault .noReceiver)
  | receiver :: args =>
    let initialized ← checkReceiver env op method receiver f
    checkArguments env method f method.proto.params args
    return initialized

/-- The frame in which the value of a call is left behind. -/
def leaveResult (method : MethodRef) (f : HandleFrame) : TableReport HandleFrame := do
  let ret := method.proto.ret
  if ret.isVoid then
    return f
  let h ← lift (ofDescriptor env.pool ret false)
  if h = .fixed .conflict then
    reject (.call (.returnType method))
  lift (f.setResult h)

/-- Calls a method. A constructor initializes every copy of its receiver. -/
def invoke (kind : InvokeKind) (form : ArgumentForm) (args : List Nat) (method : MethodRef)
    (f : HandleFrame) : TableReport HandleFrame := do
  let op := Opcode.invoke kind form
  ofReport (env.checkCallee kind method)
  ofReport (env.resolveCall kind op method)
  let initialized ← checkRegisters env kind op args method f
  let f ← match initialized with
    | some uninit => lift (f.markInitialized env.pool uninit)
    | none => pure f
  leaveResult env method f

/-! ## Operations -/

/-- The frame after the operation at position `pc`, given the frame before it. -/
def transfer (pc : Nat) (o : Operation) (f : HandleFrame) : TableReport HandleFrame :=
  match o with
  | .nop | .goto _ => pure f
  | .move form dst src => move form dst src f
  | .moveResult form dst => ofAccess (f.consumeResult dst form)
  | .moveException dst => moveException env pc dst f
  | .returnVoid => returnVoid env f
  | .returnValue form src => returnValue env form src f
  | .constInt dst v => constInt env dst v f
  | .constWide dst => ofAccess (f.writePair dst (.fixed (.low .constant)) (.fixed (.high .constant)))
  | .constString dst => do writeSingle f dst (← handleOf .string)
  | .constClass dst t => constClass env dst t f
  | .monitorEnter object => monitorEnter object f
  | .monitorExit object => monitorExit object f
  | .checkCast object t => checkCast env object t f
  | .instanceOf dst src t => instanceOf env dst src t f
  | .arrayLength dst array => arrayLength dst array f
  | .newInstance dst t => newInstance env pc dst t f
  | .newArray dst size t => newArray env dst size t f
  | .filledNewArray _ args t => filledNewArray env args t f
  | .fillArrayData array width => fillArrayData array width f
  | .throwException src => throwException env src f
  | .switch _ key _ => do
    expectSingle env f key (.fixed .int)
    return f
  | .compare c dst a b => compare env c dst a b f
  | .ifPair test a b _ => ifPair env test a b f
  | .ifZero test a _ => ifZero env test a f
  | .array .get form dst array index => arrayGet env form dst array index f
  | .array .put form value array index => arrayPut env form value array index f
  | .field access form value object ref => accessField env access form value object ref f
  | .invoke kind form args method => invoke env kind form args method f
  | .unary op dst src => unary env op dst src f
  | .binary op dst a b => binary env op dst a b f
  | .binaryInPlace op dst b => binary env op dst dst b f
  | .literal _ op dst src v => literal env op dst src v f
  | .shiftLiteral _ dst src _ => shiftLiteral env dst src f

end Lookup

end BytecodeVerifier
