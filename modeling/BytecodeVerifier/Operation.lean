import BytecodeVerifier.Instruction

/-!
# Operations

An operation is an instruction whose operands suit its opcode, each under a name of its own.
Register operands are plain numbers here.
-/

namespace BytecodeVerifier

/-- An opcode with operands that suit it. -/
inductive Operation where
  | nop
  | move (form : ValueForm) (dst src : Nat)
  | moveResult (form : ValueForm) (dst : Nat)
  | moveException (dst : Nat)
  | returnVoid
  | returnValue (form : ValueForm) (src : Nat)
  | constInt (dst : Nat) (value : Int32)
  | constWide (dst : Nat)
  | constString (dst : Nat)
  | constClass (dst : Nat) (type : Descriptor)
  | monitorEnter (object : Nat)
  | monitorExit (object : Nat)
  | checkCast (object : Nat) (type : Descriptor)
  | instanceOf (dst src : Nat) (type : Descriptor)
  | arrayLength (dst array : Nat)
  | newInstance (dst : Nat) (type : Descriptor)
  | newArray (dst size : Nat) (type : Descriptor)
  | filledNewArray (form : ArgumentForm) (args : List Nat) (type : Descriptor)
  | fillArrayData (array : Nat) (width : UInt8)
  | throwException (src : Nat)
  | goto (target : Label)
  | switch (kind : SwitchKind) (key : Nat) (targets : List Label)
  | compare (comparison : Comparison) (dst a b : Nat)
  | ifPair (test : Condition) (a b : Nat) (target : Label)
  | ifZero (test : Condition) (a : Nat) (target : Label)
  | array (access : Access) (form : ElementForm) (value array index : Nat)
  /-- A field of the object in a register, or a static field where there is none. -/
  | field (access : Access) (form : ElementForm) (value : Nat) (object : Option Nat)
      (field : FieldRef)
  | invoke (kind : InvokeKind) (form : ArgumentForm) (args : List Nat) (method : MethodRef)
  | unary (op : UnaryOp) (dst src : Nat)
  | binary (op : BinaryOp) (dst a b : Nat)
  | binaryInPlace (op : BinaryOp) (dst b : Nat)
  | literal (width : LiteralWidth) (op : LiteralOp) (dst src : Nat) (value : Int32)
  | shiftLiteral (op : ShiftOp) (dst src : Nat) (value : Int32)
  deriving DecidableEq, Repr

namespace Operation

/-- The opcode of an operation. -/
def opcode : Operation → Opcode
  | .nop => .nop
  | .move form _ _ => .move form
  | .moveResult form _ => .moveResult form
  | .moveException _ => .moveException
  | .returnVoid => .returnVoid
  | .returnValue form _ => .returnValue form
  | .constInt _ _ => .constInt
  | .constWide _ => .constWide
  | .constString _ => .constString
  | .constClass _ _ => .constClass
  | .monitorEnter _ => .monitorEnter
  | .monitorExit _ => .monitorExit
  | .checkCast _ _ => .checkCast
  | .instanceOf _ _ _ => .instanceOf
  | .arrayLength _ _ => .arrayLength
  | .newInstance _ _ => .newInstance
  | .newArray _ _ _ => .newArray
  | .filledNewArray form _ _ => .filledNewArray form
  | .fillArrayData _ _ => .fillArrayData
  | .throwException _ => .throwException
  | .goto _ => .goto
  | .switch kind _ _ => .switch kind
  | .compare c _ _ _ => .compare c
  | .ifPair test _ _ _ => .ifPair test
  | .ifZero test _ _ => .ifZero test
  | .array access form _ _ _ => .array access form
  | .field access form _ (some _) _ => .field .instanceField access form
  | .field access form _ none _ => .field .staticField access form
  | .invoke kind form _ _ => .invoke kind form
  | .unary op _ _ => .unary op
  | .binary op _ _ _ => .binary op
  | .binaryInPlace op _ _ => .binaryInPlace op
  | .literal width op _ _ _ => .literal width op
  | .shiftLiteral op _ _ _ => .shiftLiteral op

/-- The labels to which the operation may transfer control. -/
def targets : Operation → List Label
  | .goto l | .ifPair _ _ _ l | .ifZero _ _ l => [l]
  | .switch _ _ ls => ls
  | _ => []

/-- The operation is the first of a handler that takes its exception. -/
def isMoveException : Operation → Bool
  | .moveException _ => true
  | _ => false

/-- The operation of an instruction that has registers only. -/
def ofPlain? : Opcode → List Nat → Option Operation
  | .nop, [] => some .nop
  | .move form, [dst, src] => some (.move form dst src)
  | .moveResult form, [dst] => some (.moveResult form dst)
  | .moveException, [dst] => some (.moveException dst)
  | .returnVoid, [] => some .returnVoid
  | .returnValue form, [src] => some (.returnValue form src)
  | .monitorEnter, [object] => some (.monitorEnter object)
  | .monitorExit, [object] => some (.monitorExit object)
  | .arrayLength, [dst, src] => some (.arrayLength dst src)
  | .throwException, [src] => some (.throwException src)
  | .compare c, [dst, a, b] => some (.compare c dst a b)
  | .array access form, [value, base, index] => some (.array access form value base index)
  | .unary op, [dst, src] => some (.unary op dst src)
  | .binary op, [dst, a, b] => some (.binary op dst a b)
  | .binaryInPlace op, [dst, b] => some (.binaryInPlace op dst b)
  | _, _ => none

/-- The operation of an instruction that has registers and a constant. -/
def ofConstant? : Opcode → List Nat → Constant → Option Operation
  | .constInt, [dst], .int v => some (.constInt dst v)
  | .constWide, [dst], .wide _ => some (.constWide dst)
  | .constString, [dst], .string _ => some (.constString dst)
  | .constClass, [dst], .type t => some (.constClass dst t)
  | .checkCast, [object], .type t => some (.checkCast object t)
  | .instanceOf, [dst, src], .type t => some (.instanceOf dst src t)
  | .newInstance, [dst], .type t => some (.newInstance dst t)
  | .newArray, [dst, size], .type t => some (.newArray dst size t)
  | .filledNewArray form, args, .type t => some (.filledNewArray form args t)
  | .fillArrayData, [base], .arrayData width _ => some (.fillArrayData base width)
  | .field .instanceField access form, [value, object], .field f =>
    some (.field access form value (some object) f)
  | .field .staticField access form, [value], .field f => some (.field access form value none f)
  | .invoke kind form, args, .method m => some (.invoke kind form args m)
  | .literal width op, [dst, src], .int v => some (.literal width op dst src v)
  | .shiftLiteral op, [dst, src], .int v => some (.shiftLiteral op dst src v)
  | _, _, _ => none

/-- The operation of an instruction that has registers and a label. -/
def ofTarget? : Opcode → List Nat → Label → Option Operation
  | .goto, [], l => some (.goto l)
  | .ifPair test, [a, b], l => some (.ifPair test a b l)
  | .ifZero test, [a], l => some (.ifZero test a l)
  | _, _, _ => none

/-- The operation of an instruction that has registers and a table. -/
def ofTable? : Opcode → List Nat → List Label → Option Operation
  | .switch kind, [key], ls => some (.switch kind key ls)
  | _, _, _ => none

/-- The operation of an instruction, if its operands suit its opcode. A label mark has none. -/
def ofInstruction? (i : Instruction) : Option Operation :=
  let regs := i.regs.map UInt16.toNat
  match i with
  | .label _ => none
  | .plain op _ => ofPlain? op regs
  | .withConstant op _ c => ofConstant? op regs c
  | .withTarget op _ l => ofTarget? op regs l
  | .withTable op _ _ ls => ofTable? op regs ls

end Operation

end BytecodeVerifier
