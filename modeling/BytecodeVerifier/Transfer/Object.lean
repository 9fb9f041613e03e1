import BytecodeVerifier.Operation
import BytecodeVerifier.Transfer.Expectation

/-!
# Objects and whole arrays

Casts, allocation, and the instructions that make or fill an array at once.
-/

namespace BytecodeVerifier

namespace Environment

open ReportT

variable (env : Environment)

/-- The register holds an initialized object that can be compared with the type `type`. -/
def checkCastOperand (op : Opcode) (src : Nat) (type : Descriptor) (f : Frame) : Report Unit := do
  if !type.isReference then
    reject (.object (.castType op type))
  env.checkClassAccess type
  let t ← read f src
  if !t.isReference then
    reject (.object (.castValue op src t))
  if t.isUninitialized then
    reject (.object (.uninitialized op src))

/-- The object is of the type afterwards. -/
def checkCast (object : Nat) (type : Descriptor) (f : Frame) : Report Frame := do
  env.checkCastOperand .checkCast object type f
  write f object (.ofReference env.pool type false)

/-- Whether the object is of the type. -/
def instanceOf (dst src : Nat) (type : Descriptor) (f : Frame) : Report Frame := do
  env.checkCastOperand .instanceOf src type f
  write f dst .boolean

/-- The length of an array, or of null, which fails at run time. -/
def arrayLength (dst array : Nat) (f : Frame) : Report Frame := do
  let t ← read f array
  if !(t.isZero || t.isArray) then
    reject (.object (.noArray .arrayLength t))
  write f dst .int

/-- Only a class that is neither abstract nor an interface has instances. -/
def checkInstantiable (type : Descriptor) : Report Unit := do
  if !type.isClass then
    reject (.object (.allocatedType type))
  env.checkClassAccess type
  match env.pool.find? type with
  | none => flag (.unknownClass type)
  | some c =>
    if c.isInterface || c.isAbstract then
      reject (.object (.allocatedAbstract type))

/-- The position of an allocation is below this. -/
def allocationLimit : Nat := 0x100000000

/-- Allocates an object, marked with the position of the allocation until a constructor has run on
it. A copy left over from an earlier pass through the same instruction becomes unusable, so that all
registers with one mark hold one object. -/
def newInstance (pc dst : Nat) (type : Descriptor) (f : Frame) : Report Frame := do
  env.checkInstantiable type
  if allocationLimit ≤ pc then
    reject (.fault .allocationIndex)
  let uninit := (RegType.ofReference env.pool type true).asUninitialized pc
  write (f.invalidate uninit) dst uninit

/-- Makes an array, which is exactly of its type. -/
def newArray (dst size : Nat) (type : Descriptor) (f : Frame) : Report Frame := do
  if !type.isArray then
    reject (.object (.arrayType .newArray type))
  env.checkClassAccess type
  env.expectSingle f size .int
  write f dst (.ofReference env.pool type true)

/-- Only arrays of `int` and of references can be made with their elements. -/
def isFillable (component : Descriptor) : Bool :=
  component.isReference || component.kind? == some (.primitive .int)

/-- Leaves behind an array of `int` or of references, made from registers. -/
def filledNewArray (args : List Nat) (type : Descriptor) (f : Frame) : Report Frame := do
  match type.component? with
  | none => reject (.object (.arrayType (.filledNewArray .list) type))
  | some component =>
    if !isFillable component then
      reject (.object (.filledComponent component))
    env.checkClassAccess type
    let expected := RegType.ofDescriptor env.pool component false
    args.forM fun reg => env.expectSingle f reg expected
    return f.setResult (.ofReference env.pool type true)

/-- Data of elements that are `width` bytes wide goes into an array of such elements. -/
def checkArrayData (width : UInt8) (component : Descriptor) : Report Unit :=
  match component.kind? with
  | some (.primitive p) =>
    if p.elementWidth = width then pure () else reject (.object (.dataWidth width component))
  | _ => reject (.object (.dataComponent component))

/-- Fills an array of primitives, or null, which fails at run time. -/
def fillArrayData (array : Nat) (width : UInt8) (f : Frame) : Report Frame := do
  let t ← read f array
  if t.isZero then
    return f
  if !t.isArray then
    reject (.object (.noArray .fillArrayData t))
  match t.descriptor?.bind Descriptor.component? with
  | none => reject (.fault .noComponent)
  | some component =>
    checkArrayData width component
    return f

end Environment

end BytecodeVerifier
