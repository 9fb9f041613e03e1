import BytecodeVerifier.Transfer.Call
import BytecodeVerifier.Transfer.Field
import BytecodeVerifier.Transfer.Object
import BytecodeVerifier.Transfer.Value

/-!
# Transfer

What an operation does to a frame.
-/

namespace BytecodeVerifier

namespace Environment

open ReportT

/-- The frame after the operation at position `pc`, given the frame before it. -/
def transfer (env : Environment) (pc : Nat) (o : Operation) (f : Frame) : Report Frame :=
  match o with
  | .nop | .goto _ => pure f
  | .move form dst src => move form dst src f
  | .moveResult form dst => moveResult form dst f
  | .moveException dst => env.moveException pc dst f
  | .returnVoid => env.returnVoid f
  | .returnValue form src => env.returnValue form src f
  | .constInt dst v => writeSingle f dst (env.constantType v)
  | .constWide dst => ofFrame (f.writePair dst (.low .constant) (.high .constant))
  | .constString dst => writeSingle f dst .string
  | .constClass dst t => env.constClass dst t f
  | .monitorEnter object => monitorEnter object f
  | .monitorExit object => monitorExit object f
  | .checkCast object t => env.checkCast object t f
  | .instanceOf dst src t => env.instanceOf dst src t f
  | .arrayLength dst array => arrayLength dst array f
  | .newInstance dst t => env.newInstance pc dst t f
  | .newArray dst size t => env.newArray dst size t f
  | .filledNewArray _ args t => env.filledNewArray args t f
  | .fillArrayData array width => fillArrayData array width f
  | .throwException src => env.throwException src f
  | .switch _ key _ => do
    env.expectSingle f key .int
    return f
  | .compare c dst a b => env.compare c dst a b f
  | .ifPair test a b _ => env.ifPair test a b f
  | .ifZero test a _ => env.ifZero test a f
  | .array .get form dst array index => env.arrayGet form dst array index f
  | .array .put form value array index => env.arrayPut form value array index f
  | .field access form value object ref => env.accessField access form value object ref f
  | .invoke kind form args method => env.invoke kind form args method f
  | .unary op dst src => env.unary op dst src f
  | .binary op dst a b => env.binary op dst a b f
  | .binaryInPlace op dst b => env.binary op dst dst b f
  | .literal _ op dst src v => env.literal op dst src v f
  | .shiftLiteral _ dst src _ => env.shiftLiteral dst src f

end Environment

end BytecodeVerifier
