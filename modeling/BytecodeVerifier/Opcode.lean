import BytecodeVerifier.Descriptor

/-!
# Opcodes

The operations of a register machine, in families: an opcode is a constructor for the family
together with what varies inside it, such as the type of the value moved or the operation that is
computed. Variants that differ only in how operands are encoded are one opcode, since operands are
held decoded.

`canContinue`, `canBranch`, `canSwitch` and `canThrow` say which edges may leave an instruction.
-/

namespace BytecodeVerifier

/-- How a value lies in registers: in one, in a pair, or in one as a reference. -/
inductive ValueForm where
  | single | wide | object
  deriving DecidableEq, Repr

/-- The element or field type that a memory access names. `single` covers `int` and `float`, `wide`
covers `long` and `double`. -/
inductive ElementForm where
  | single | wide | object | boolean | byte | char | short
  deriving DecidableEq, Repr

/-- The direction of a memory access. -/
inductive Access where
  | get | put
  deriving DecidableEq, Repr

/-- Where a field lives: in an object or in its class. -/
inductive FieldPlace where
  | instanceField | staticField
  deriving DecidableEq, Repr

/-- How argument registers are listed: one by one, or as a run of neighbours. -/
inductive ArgumentForm where
  | list | range
  deriving DecidableEq, Repr

/-- How a call finds its method. -/
inductive InvokeKind where
  | virtual | super | direct | static | interface
  deriving DecidableEq, Repr

/-- The two layouts of a switch table. -/
inductive SwitchKind where
  | packed | sparse
  deriving DecidableEq, Repr

/-- The test of a conditional branch. -/
inductive Condition where
  | eq | ne | lt | ge | gt | le
  deriving DecidableEq, Repr

/-- Three-way comparisons, with the answer for an unordered pair where there is one. -/
inductive Comparison where
  | lessFloat | greaterFloat | lessDouble | greaterDouble | long
  deriving DecidableEq, Repr

/-- The types on which arithmetic is defined. -/
inductive NumericType where
  | int | long | float | double
  deriving DecidableEq, Repr

/-- The types on which bit operations are defined. -/
inductive IntegralType where
  | int | long
  deriving DecidableEq, Repr

/-- Arithmetic on two numbers. -/
inductive ArithmeticOp where
  | add | sub | mul | div | rem
  deriving DecidableEq, Repr

/-- Operations bit by bit. -/
inductive BitwiseOp where
  | and | or | xor
  deriving DecidableEq, Repr

/-- Shifts; `ushr` fills with zeros. -/
inductive ShiftOp where
  | shl | shr | ushr
  deriving DecidableEq, Repr

/-- Operations on two registers. -/
inductive BinaryOp where
  | arithmetic (type : NumericType) (op : ArithmeticOp)
  | bitwise (type : IntegralType) (op : BitwiseOp)
  | shift (type : IntegralType) (op : ShiftOp)
  deriving DecidableEq, Repr

/-- Conversions between numeric types. -/
inductive Conversion where
  | intToLong | intToFloat | intToDouble
  | longToInt | longToFloat | longToDouble
  | floatToInt | floatToLong | floatToDouble
  | doubleToInt | doubleToLong | doubleToFloat
  | intToByte | intToChar | intToShort
  deriving DecidableEq, Repr

/-- Operations on one register. -/
inductive UnaryOp where
  | neg (type : NumericType)
  | not (type : IntegralType)
  | convert (conversion : Conversion)
  deriving DecidableEq, Repr

/-- The size of a literal operand. -/
inductive LiteralWidth where
  | lit16 | lit8
  deriving DecidableEq, Repr

/-- Operations on a register and a literal that exist in both literal sizes. `rsub` subtracts the
register from the literal. -/
inductive LiteralOp where
  | add | rsub | mul | div | rem | and | or | xor
  deriving DecidableEq, Repr

/-- The operation of an instruction. -/
inductive Opcode where
  | nop
  | move (form : ValueForm)
  | moveResult (form : ValueForm)
  | moveException
  | returnVoid
  | returnValue (form : ValueForm)
  | constInt
  | constWide
  | constString
  | constClass
  | monitorEnter
  | monitorExit
  | checkCast
  | instanceOf
  | arrayLength
  | newInstance
  | newArray
  | filledNewArray (args : ArgumentForm)
  | fillArrayData
  | throwException
  | goto
  | switch (kind : SwitchKind)
  | compare (comparison : Comparison)
  | ifPair (test : Condition)
  | ifZero (test : Condition)
  | array (access : Access) (form : ElementForm)
  | field (place : FieldPlace) (access : Access) (form : ElementForm)
  | invoke (kind : InvokeKind) (args : ArgumentForm)
  | unary (op : UnaryOp)
  | binary (op : BinaryOp)
  | binaryInPlace (op : BinaryOp)
  | literal (width : LiteralWidth) (op : LiteralOp)
  | shiftLiteral (op : ShiftOp)
  deriving DecidableEq, Repr

namespace NumericType

def primitive : NumericType → Primitive
  | .int => .int
  | .long => .long
  | .float => .float
  | .double => .double

end NumericType

namespace IntegralType

def primitive : IntegralType → Primitive
  | .int => .int
  | .long => .long

end IntegralType

namespace Comparison

/-- The type of both operands. -/
def operand : Comparison → Primitive
  | .lessFloat | .greaterFloat => .float
  | .lessDouble | .greaterDouble => .double
  | .long => .long

end Comparison

namespace Conversion

/-- The type that is converted. -/
def source : Conversion → Primitive
  | .intToLong | .intToFloat | .intToDouble | .intToByte | .intToChar | .intToShort => .int
  | .longToInt | .longToFloat | .longToDouble => .long
  | .floatToInt | .floatToLong | .floatToDouble => .float
  | .doubleToInt | .doubleToLong | .doubleToFloat => .double

/-- The type that results. -/
def target : Conversion → Primitive
  | .longToInt | .floatToInt | .doubleToInt => .int
  | .intToLong | .floatToLong | .doubleToLong => .long
  | .intToFloat | .longToFloat | .doubleToFloat => .float
  | .intToDouble | .longToDouble | .floatToDouble => .double
  | .intToByte => .byte
  | .intToChar => .char
  | .intToShort => .short

end Conversion

namespace UnaryOp

/-- The type of the operand. -/
def source : UnaryOp → Primitive
  | .neg t => t.primitive
  | .not t => t.primitive
  | .convert c => c.source

/-- The type of the result. -/
def target : UnaryOp → Primitive
  | .neg t => t.primitive
  | .not t => t.primitive
  | .convert c => c.target

end UnaryOp

namespace BinaryOp

/-- The type of the result, which is also that of the first operand. -/
def target : BinaryOp → Primitive
  | .arithmetic t _ => t.primitive
  | .bitwise t _ => t.primitive
  | .shift t _ => t.primitive

/-- The type of the second operand. A shift distance is an `int`. -/
def second : BinaryOp → Primitive
  | .arithmetic t _ => t.primitive
  | .bitwise t _ => t.primitive
  | .shift _ _ => .int

/-- The operation keeps two booleans boolean. -/
def keepsBooleans : BinaryOp → Bool
  | .bitwise .int _ => true
  | _ => false

/-- Integer division raises an exception when the divisor is zero. -/
def canThrow : BinaryOp → Bool
  | .arithmetic .int .div | .arithmetic .int .rem => true
  | .arithmetic .long .div | .arithmetic .long .rem => true
  | _ => false

end BinaryOp

namespace LiteralOp

/-- The operation keeps two booleans boolean. -/
def keepsBooleans : LiteralOp → Bool
  | .and | .or | .xor => true
  | _ => false

/-- Division raises an exception when the divisor is zero. -/
def canThrow : LiteralOp → Bool
  | .div | .rem => true
  | _ => false

end LiteralOp

namespace Opcode

/-- Execution may go on to the next instruction. -/
def canContinue : Opcode → Bool
  | .returnVoid | .returnValue _ | .throwException | .goto => false
  | _ => true

/-- Execution may go to the label that the instruction names. -/
def canBranch : Opcode → Bool
  | .goto | .ifPair _ | .ifZero _ => true
  | _ => false

/-- Execution may go to one of the labels of a table. -/
def canSwitch : Opcode → Bool
  | .switch _ => true
  | _ => false

/-- The instruction may raise an exception. -/
def canThrow : Opcode → Bool
  | .constString | .constClass | .monitorEnter | .monitorExit => true
  | .checkCast | .instanceOf | .arrayLength | .newInstance | .newArray => true
  | .filledNewArray _ | .fillArrayData | .throwException => true
  | .array _ _ | .field _ _ _ | .invoke _ _ => true
  | .binary op | .binaryInPlace op => op.canThrow
  | .literal _ op => op.canThrow
  | _ => false

/-- The instruction leaves a value for a following `move-result`. -/
def hasResult : Opcode → Bool
  | .filledNewArray _ | .invoke _ _ => true
  | _ => false

/-- The instruction takes the value that a call has left behind. -/
def isMoveResult : Opcode → Bool
  | .moveResult _ => true
  | _ => false

/-- The instruction is a call. -/
def isInvoke : Opcode → Bool
  | .invoke _ _ => true
  | _ => false

/-- The instruction leaves the method normally. -/
def isReturn : Opcode → Bool
  | .returnVoid | .returnValue _ => true
  | _ => false

end Opcode

end BytecodeVerifier
