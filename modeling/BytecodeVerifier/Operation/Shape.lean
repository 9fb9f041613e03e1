import BytecodeVerifier.Failure.Violation
import BytecodeVerifier.Operation

/-!
# Operand shapes

What each opcode asks of its operands, and the check of an instruction against it. An instruction
that passes has an operation, and all its registers lie in the frame.
-/

namespace BytecodeVerifier

/-- The kinds of constant operand. -/
inductive ConstantKind where
  | int | wide | string | type | field | method | arrayData
  deriving DecidableEq, Repr

/-- The kind of a constant. -/
def Constant.kind : Constant → ConstantKind
  | .int _ => .int
  | .wide _ => .wide
  | .string _ => .string
  | .type _ => .type
  | .field _ => .field
  | .method _ => .method
  | .arrayData _ _ => .arrayData

/-- What stands beside the registers of an instruction. -/
inductive OperandForm where
  | plain
  | constant (kind : ConstantKind)
  | target
  | table
  deriving DecidableEq, Repr

/-- The form of an instruction's operands; a label mark has none. -/
def Instruction.operandForm? : Instruction → Option OperandForm
  | .label _ => none
  | .plain _ _ => some .plain
  | .withConstant _ _ c => some (.constant c.kind)
  | .withTarget _ _ _ => some .target
  | .withTable _ _ _ _ => some .table

/-- What an opcode asks of its registers. -/
inductive RegisterForm where
  /-- One register for each entry, which says whether the register after it belongs to it. -/
  | exactly (wide : List Bool)
  /-- A few arbitrary registers. -/
  | list
  /-- Any number of registers, each following the one before. -/
  | range
  deriving DecidableEq, Repr

/-- What an opcode asks of its operands. -/
structure Shape where
  form : OperandForm
  regs : RegisterForm
  deriving DecidableEq, Repr

/-- A call that lists its arguments has at most this many registers. -/
def maxListedArguments : Nat := 5

/-- The value takes two registers. -/
def ValueForm.isWide (f : ValueForm) : Bool := f == .wide

/-- The element takes two registers. -/
def ElementForm.isWide (f : ElementForm) : Bool := f == .wide

/-- The registers of a call. -/
def ArgumentForm.registers : ArgumentForm → RegisterForm
  | .list => .list
  | .range => .range

namespace Opcode

/-- What an opcode asks of its operands. -/
def shape : Opcode → Shape
  | .nop | .returnVoid => ⟨.plain, .exactly []⟩
  | .move form => ⟨.plain, .exactly [form.isWide, form.isWide]⟩
  | .moveResult form | .returnValue form => ⟨.plain, .exactly [form.isWide]⟩
  | .moveException | .monitorEnter | .monitorExit | .throwException => ⟨.plain, .exactly [false]⟩
  | .arrayLength => ⟨.plain, .exactly [false, false]⟩
  | .constInt => ⟨.constant .int, .exactly [false]⟩
  | .constWide => ⟨.constant .wide, .exactly [true]⟩
  | .constString => ⟨.constant .string, .exactly [false]⟩
  | .constClass | .checkCast | .newInstance => ⟨.constant .type, .exactly [false]⟩
  | .instanceOf | .newArray => ⟨.constant .type, .exactly [false, false]⟩
  | .filledNewArray args => ⟨.constant .type, args.registers⟩
  | .fillArrayData => ⟨.constant .arrayData, .exactly [false]⟩
  | .goto => ⟨.target, .exactly []⟩
  | .switch _ => ⟨.table, .exactly [false]⟩
  | .ifPair _ => ⟨.target, .exactly [false, false]⟩
  | .ifZero _ => ⟨.target, .exactly [false]⟩
  | .array _ form => ⟨.plain, .exactly [form.isWide, false, false]⟩
  | .field .instanceField _ form => ⟨.constant .field, .exactly [form.isWide, false]⟩
  | .field .staticField _ form => ⟨.constant .field, .exactly [form.isWide]⟩
  | .invoke _ args => ⟨.constant .method, args.registers⟩
  | .compare c => ⟨.plain, .exactly [false, c.operand.isWide, c.operand.isWide]⟩
  | .unary op => ⟨.plain, .exactly [op.target.isWide, op.source.isWide]⟩
  | .binary op => ⟨.plain, .exactly [op.target.isWide, op.target.isWide, op.second.isWide]⟩
  | .binaryInPlace op => ⟨.plain, .exactly [op.target.isWide, op.second.isWide]⟩
  | .literal _ _ | .shiftLiteral _ => ⟨.constant .int, .exactly [false, false]⟩

/-- The bounds of an opcode's literal. -/
def literalBounds? : Opcode → Option (Int32 × Int32)
  | .literal .lit16 _ => some (-32768, 32767)
  | .literal .lit8 _ | .shiftLiteral _ => some (-128, 127)
  | _ => none

end Opcode

/-- Each number is one more than the number before it. -/
def isConsecutive : List Int → Bool
  | a :: b :: rest => a + 1 == b && isConsecutive (b :: rest)
  | _ => true

namespace Instruction

/-- There are as many registers as the opcode asks for. -/
def checkCount (op : Opcode) (i : Instruction) : Except OperandViolation Unit :=
  match op.shape.regs with
  | .exactly wide =>
    if i.regs.length = wide.length then .ok ()
    else .error (.count op wide.length i.regs.length)
  | .list =>
    if i.regs.length ≤ maxListedArguments then .ok ()
    else .error (.tooMany op maxListedArguments i.regs.length)
  | .range =>
    if isConsecutive (i.regs.map fun r => (r.toNat : Int)) then .ok ()
    else .error (.notConsecutive op)

/-- The registers that each register operand reaches: itself, or the one after it for a wide one. -/
def lastRegisters (op : Opcode) (i : Instruction) : List Nat :=
  match op.shape.regs with
  | .exactly wide => (i.regs.zip wide).map fun r => if r.2 then r.1.toNat + 1 else r.1.toNat
  | .list | .range => i.regs.map UInt16.toNat

/-- All registers lie in a frame of `size` registers. -/
def checkRegisters (op : Opcode) (i : Instruction) (size : Nat) : Except OperandViolation Unit :=
  match (lastRegisters op i).find? (size ≤ ·) with
  | some reg => .error (.register reg size)
  | none => .ok ()

/-- A literal is within the bounds of its size. -/
def checkLiteral (op : Opcode) (i : Instruction) : Except OperandViolation Unit :=
  match op.literalBounds?, i.constant? with
  | some (lo, hi), some (.int v) =>
    if lo ≤ v && v ≤ hi then .ok () else .error (.literal op v)
  | _, _ => .ok ()

/-- The two halves of a table go together, and packed keys follow one another. -/
def checkTable (op : Opcode) (i : Instruction) : Except OperandViolation Unit :=
  match i with
  | .withTable _ _ ks ls =>
    if ks.length ≠ ls.length then .error (.tableSizes op ks.length ls.length)
    else if op = .switch .packed && !isConsecutive (ks.map Int32.toInt) then .error .packedKeys
    else .ok ()
  | _ => .ok ()

/-- The operands of the instruction suit its opcode and a frame of `size` registers. -/
def checkOperands (op : Opcode) (i : Instruction) (size : Nat) : Except OperandViolation Unit := do
  if i.operandForm? ≠ some op.shape.form then
    throw (.form op)
  checkCount op i
  checkRegisters op i size
  checkLiteral op i
  checkTable op i

/-- The operation of an instruction in a frame of `size` registers; nothing for a label mark. -/
def toOperation? (i : Instruction) (size : Nat) : Except Violation (Option Operation) :=
  match i.opcode? with
  | none => .ok none
  | some op =>
    match checkOperands op i size with
    | .error v => .error (.operand v)
    | .ok () =>
      match Operation.ofInstruction? i with
      | some o => .ok (some o)
      | none => .error (.fault .operandCount)

end Instruction

end BytecodeVerifier
