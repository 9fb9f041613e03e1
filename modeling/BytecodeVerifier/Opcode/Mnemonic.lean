import BytecodeVerifier.Opcode

/-!
# Mnemonics

The written name of every opcode, built from the names of its parts, and the list of all opcodes in
their fixed order.
-/

namespace BytecodeVerifier

def Primitive.word : Primitive → String
  | .boolean => "boolean"
  | .byte => "byte"
  | .char => "char"
  | .short => "short"
  | .int => "int"
  | .long => "long"
  | .float => "float"
  | .double => "double"

namespace ValueForm

def all : List ValueForm := [.single, .wide, .object]

/-- What follows the name of the operation. -/
def suffix : ValueForm → String
  | .single => ""
  | .wide => "-wide"
  | .object => "-object"

end ValueForm

namespace ElementForm

def all : List ElementForm := [.single, .wide, .object, .boolean, .byte, .char, .short]

/-- What follows the name of the operation. -/
def suffix : ElementForm → String
  | .single => ""
  | .wide => "-wide"
  | .object => "-object"
  | .boolean => "-boolean"
  | .byte => "-byte"
  | .char => "-char"
  | .short => "-short"

end ElementForm

namespace Access

def word : Access → String
  | .get => "get"
  | .put => "put"

end Access

namespace FieldPlace

def letter : FieldPlace → String
  | .instanceField => "i"
  | .staticField => "s"

end FieldPlace

namespace ArgumentForm

/-- What follows the name of the operation. -/
def suffix : ArgumentForm → String
  | .list => ""
  | .range => "/range"

end ArgumentForm

namespace InvokeKind

def all : List InvokeKind := [.virtual, .super, .direct, .static, .interface]

def word : InvokeKind → String
  | .virtual => "virtual"
  | .super => "super"
  | .direct => "direct"
  | .static => "static"
  | .interface => "interface"

end InvokeKind

namespace SwitchKind

def word : SwitchKind → String
  | .packed => "packed"
  | .sparse => "sparse"

end SwitchKind

namespace Condition

def all : List Condition := [.eq, .ne, .lt, .ge, .gt, .le]

def word : Condition → String
  | .eq => "eq"
  | .ne => "ne"
  | .lt => "lt"
  | .ge => "ge"
  | .gt => "gt"
  | .le => "le"

end Condition

namespace Comparison

def all : List Comparison := [.lessFloat, .greaterFloat, .lessDouble, .greaterDouble, .long]

def mnemonic : Comparison → String
  | .lessFloat => "cmpl-float"
  | .greaterFloat => "cmpg-float"
  | .lessDouble => "cmpl-double"
  | .greaterDouble => "cmpg-double"
  | .long => "cmp-long"

end Comparison

namespace ArithmeticOp

def all : List ArithmeticOp := [.add, .sub, .mul, .div, .rem]

def word : ArithmeticOp → String
  | .add => "add"
  | .sub => "sub"
  | .mul => "mul"
  | .div => "div"
  | .rem => "rem"

end ArithmeticOp

namespace BitwiseOp

def all : List BitwiseOp := [.and, .or, .xor]

def word : BitwiseOp → String
  | .and => "and"
  | .or => "or"
  | .xor => "xor"

end BitwiseOp

namespace ShiftOp

def all : List ShiftOp := [.shl, .shr, .ushr]

def word : ShiftOp → String
  | .shl => "shl"
  | .shr => "shr"
  | .ushr => "ushr"

end ShiftOp

namespace BinaryOp

/-- The operations on an integral type. -/
def onIntegral (numeric : NumericType) (integral : IntegralType) : List BinaryOp :=
  ArithmeticOp.all.map (.arithmetic numeric) ++ BitwiseOp.all.map (.bitwise integral) ++
    ShiftOp.all.map (.shift integral)

def all : List BinaryOp :=
  onIntegral .int .int ++ onIntegral .long .long ++
    ArithmeticOp.all.map (.arithmetic .float) ++ ArithmeticOp.all.map (.arithmetic .double)

def mnemonic : BinaryOp → String
  | .arithmetic t op => op.word ++ "-" ++ t.primitive.word
  | .bitwise t op => op.word ++ "-" ++ t.primitive.word
  | .shift t op => op.word ++ "-" ++ t.primitive.word

end BinaryOp

namespace Conversion

def all : List Conversion :=
  [.intToLong, .intToFloat, .intToDouble, .longToInt, .longToFloat, .longToDouble,
    .floatToInt, .floatToLong, .floatToDouble, .doubleToInt, .doubleToLong, .doubleToFloat,
    .intToByte, .intToChar, .intToShort]

end Conversion

namespace UnaryOp

def all : List UnaryOp :=
  [.neg .int, .not .int, .neg .long, .not .long, .neg .float, .neg .double] ++
    Conversion.all.map .convert

def mnemonic : UnaryOp → String
  | .neg t => "neg-" ++ t.primitive.word
  | .not t => "not-" ++ t.primitive.word
  | .convert c => c.source.word ++ "-to-" ++ c.target.word

end UnaryOp

namespace LiteralOp

def all : List LiteralOp := [.add, .rsub, .mul, .div, .rem, .and, .or, .xor]

def word : LiteralOp → String
  | .add => "add"
  | .rsub => "rsub"
  | .mul => "mul"
  | .div => "div"
  | .rem => "rem"
  | .and => "and"
  | .or => "or"
  | .xor => "xor"

/-- The reverse subtraction of a 16-bit literal is the only one written without its size. -/
def mnemonic : LiteralOp → LiteralWidth → String
  | .rsub, .lit16 => "rsub-int"
  | op, .lit16 => op.word ++ "-int/lit16"
  | op, .lit8 => op.word ++ "-int/lit8"

end LiteralOp

namespace Opcode

/-- The written name of an opcode. -/
def mnemonic : Opcode → String
  | .nop => "nop"
  | .move form => "move" ++ form.suffix
  | .moveResult form => "move-result" ++ form.suffix
  | .moveException => "move-exception"
  | .returnVoid => "return-void"
  | .returnValue form => "return" ++ form.suffix
  | .constInt => "const"
  | .constWide => "const-wide"
  | .constString => "const-string"
  | .constClass => "const-class"
  | .monitorEnter => "monitor-enter"
  | .monitorExit => "monitor-exit"
  | .checkCast => "check-cast"
  | .instanceOf => "instance-of"
  | .arrayLength => "array-length"
  | .newInstance => "new-instance"
  | .newArray => "new-array"
  | .filledNewArray args => "filled-new-array" ++ args.suffix
  | .fillArrayData => "fill-array-data"
  | .throwException => "throw"
  | .goto => "goto"
  | .switch kind => kind.word ++ "-switch"
  | .compare c => c.mnemonic
  | .ifPair test => "if-" ++ test.word
  | .ifZero test => "if-" ++ test.word ++ "z"
  | .array access form => "a" ++ access.word ++ form.suffix
  | .field place access form => place.letter ++ access.word ++ form.suffix
  | .invoke kind args => "invoke-" ++ kind.word ++ args.suffix
  | .unary op => op.mnemonic
  | .binary op => op.mnemonic
  | .binaryInPlace op => op.mnemonic ++ "/2addr"
  | .literal width op => op.mnemonic width
  | .shiftLiteral op => op.word ++ "-int/lit8"

/-- The opcodes by family, in the fixed order. -/
def families : List (List Opcode) :=
  [[.nop],
    ValueForm.all.map .move,
    ValueForm.all.map .moveResult,
    [.moveException, .returnVoid],
    ValueForm.all.map .returnValue,
    [.constInt, .constWide, .constString, .constClass, .monitorEnter, .monitorExit],
    [.checkCast, .instanceOf, .arrayLength, .newInstance, .newArray],
    [.filledNewArray .list, .filledNewArray .range, .fillArrayData, .throwException, .goto],
    [.switch .packed, .switch .sparse],
    Comparison.all.map .compare,
    Condition.all.map .ifPair,
    Condition.all.map .ifZero,
    ElementForm.all.map (.array .get),
    ElementForm.all.map (.array .put),
    ElementForm.all.map (.field .instanceField .get),
    ElementForm.all.map (.field .instanceField .put),
    ElementForm.all.map (.field .staticField .get),
    ElementForm.all.map (.field .staticField .put),
    InvokeKind.all.map (.invoke · .list),
    InvokeKind.all.map (.invoke · .range),
    UnaryOp.all.map .unary,
    BinaryOp.all.map .binary,
    BinaryOp.all.map .binaryInPlace,
    LiteralOp.all.map (.literal .lit16),
    LiteralOp.all.map (.literal .lit8),
    ShiftOp.all.map .shiftLiteral]

/-- Every opcode, in the fixed order. -/
def all : List Opcode := families.flatten

/-- The position of an opcode in the fixed order. -/
def index (op : Opcode) : Nat := all.idxOf op

/-- Every mnemonic with its opcode. -/
def mnemonics : List (String × Opcode) := all.map fun op => (op.mnemonic, op)

/-- The opcode that is written so. -/
def ofMnemonic? (text : String) : Option Opcode := mnemonics.lookup text

end Opcode

end BytecodeVerifier
