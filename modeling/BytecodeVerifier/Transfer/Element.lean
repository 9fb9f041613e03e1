import BytecodeVerifier.Transfer.Value

/-!
# Array elements

Reading and writing one element of an array.
-/

namespace BytecodeVerifier

namespace ElementForm

/-- The primitive type that an access names; an access to references names none. -/
def regType? : ElementForm → Option RegType
  | .single => some .int
  | .wide => some (.low .long)
  | .object => none
  | .boolean => some .boolean
  | .byte => some .byte
  | .char => some .char
  | .short => some .short

/-- The access may touch a primitive value of type `t`. An access does not tell `int` from `float`,
nor `long` from `double`. -/
def touches : ElementForm → RegType → Bool
  | .single, .int | .single, .float => true
  | .wide, .low .long | .wide, .low .double => true
  | .boolean, .boolean | .byte, .byte | .char, .char | .short, .short => true
  | _, _ => false

end ElementForm

namespace Environment

open ReportT

variable (env : Environment)

/-- The value in a register can be stored as a primitive of type `t`, which is not wide. Any
integral value can be stored as an integral type. -/
def canStore (t value : RegType) : Bool :=
  if t = .float then value.fitsFloat else value.fitsInt

/-- An index is integral. -/
def checkIndex (index : Nat) (f : Frame) : Report Unit := do
  let t ← read f index
  if !t.fitsInt then
    reject (.element (.index index t))

/-- The type read through a null reference. The access always fails at run time, so a type is taken
that merges well. -/
def elementOfNull (form : ElementForm) : RegType :=
  match form with
  | .object => .zero
  | .single => env.constantType 1
  | .wide => .low .constant
  | .boolean => .boolean
  | .byte => .byte
  | .char => .char
  | .short => .short

/-- The type read from an array whose elements have type `component`. -/
def elementRead (form : ElementForm) (array component : RegType) : Report RegType :=
  let op := Opcode.array .get form
  if form = .object then
    if component.isReference then pure component
    else reject (.element (.primitiveArray op array))
  else if component.isNonNullReference then reject (.element (.referenceArray op array))
  else if form.touches component then pure component
  else reject (.element (.incompatible op array))

/-- Reads an element. -/
def arrayGet (form : ElementForm) (dst array index : Nat) (f : Frame) : Report Frame := do
  let op := Opcode.array .get form
  checkIndex index f
  let t ← read f array
  if t.isZero then
    return ← write f dst (env.elementOfNull form)
  if t = .unresolvedMerged then
    if form ≠ .object then
      reject (.element (.unresolved op))
    flag (.unresolvedArray op)
    return ← write f dst .object
  if !t.isArray then
    reject (.object (.noArray op t))
  write f dst (← elementRead form t (t.component env.pool))

/-- The type expected of a value that is stored through a null reference. -/
def storedToNull (form : ElementForm) (value : RegType) : RegType :=
  match form with
  | .object => .object
  | .single => if value = .float then .float else .int
  | .wide => if value = .low .double then .low .double else .low .long
  | .boolean => .boolean
  | .byte => .byte
  | .char => .char
  | .short => .short

/-- A reference is stored. That it fits the array is checked again at run time. -/
def storeObject (value : Nat) (array component : RegType) (f : Frame) : Report Unit := do
  if !component.isReference then
    reject (.element (.primitiveArray (.array .put .object) array))
  env.expectSingle f value .object
  let stored ← read f value
  if !component.isAssignable env.pool stored then
    flag (.storedElement stored array)

/-- A primitive value is stored. -/
def storePrimitive (form : ElementForm) (value : Nat) (array component : RegType) (f : Frame) :
    Report Unit := do
  let op := Opcode.array .put form
  if !form.touches component then
    reject (.element (.incompatible op array))
  let stored ← read f value
  if component.isLowHalf then
    env.expectPair f value component
  else if !canStore component stored then
    reject (.element (.value op value stored array))

/-- Writes an element. The frame stays as it is. -/
def arrayPut (form : ElementForm) (value array index : Nat) (f : Frame) : Report Frame := do
  let op := Opcode.array .put form
  checkIndex index f
  let t ← read f array
  if t.isZero then
    env.expect f value (storedToNull form (← read f value))
    return f
  if t = .unresolvedMerged then
    if form ≠ .object then
      reject (.element (.unresolved op))
    flag (.unresolvedArray op)
    return f
  if !t.isArray then
    reject (.object (.noArray op t))
  if form = .object then
    env.storeObject value t (t.component env.pool) f
  else
    env.storePrimitive form value t (t.component env.pool) f
  return f

end Environment

end BytecodeVerifier
