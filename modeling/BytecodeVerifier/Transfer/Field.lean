import BytecodeVerifier.Transfer.Element

/-!
# Fields

Reading and writing instance fields and static fields.
-/

namespace BytecodeVerifier

namespace Environment

open ReportT

variable (env : Environment)

/-- The class that declares the field, if the field is where it is expected and may be used here. A
field that cannot be found is taken to be declared by the class that the reference names. -/
def fieldOwner (access : Access) (place : FieldPlace) (field : FieldRef) : Report Descriptor := do
  let here := env.method.owner
  match env.pool.resolveField field.owner field.name field.type with
  | none =>
    flag (.unknownField field)
    return field.owner
  | some d =>
    if d.flags.has .static != (place == .staticField) then
      reject (.field (.place field place))
    if !env.canAccessMember d.owner d.flags then
      reject (.field (.access field here))
    if access = .put && d.flags.has .final && d.owner != here then
      reject (.field (.modifyFinal field here))
    return d.owner

/-- The register holds an object that has the field. Before another constructor has run, only a
constructor can touch the object, and only fields that its own class declares. -/
def checkFieldObject (field : FieldRef) (owner : Descriptor) (object : Nat) (f : Frame) :
    Report Unit := do
  let t ← read f object
  if !t.isReference then
    reject (.field (.object object t))
  if t.isUninitialized then
    let own := t.isUninitializedThis && env.method.isConstructor && owner == env.method.owner
    if !own then
      reject (.field (.uninitializedObject field))
  else if !t.isZero then
    if !(RegType.ofReference env.pool owner false).isAssignable env.pool t then
      flag (.fieldObject field t)

/-- Reads a field of type `t`. -/
def readField (op : Opcode) (form : ElementForm) (dst : Nat) (field : FieldRef) (t : RegType)
    (f : Frame) : Report Frame := do
  match form.regType? with
  | none =>
    if !t.isReference then
      reject (.field (.primitive op field))
    write f dst t
  | some named =>
    if form.touches t then
      return ← write f dst t
    if !t.isReference then
      reject (.field (.form op field t))
    flag (.fieldForm op field t)
    write f dst named

/-- Writes a field of type `t`. -/
def writeField (op : Opcode) (form : ElementForm) (value : Nat) (field : FieldRef) (t : RegType)
    (f : Frame) : Report Unit := do
  if form = .object then
    if !t.isReference then
      reject (.field (.primitive op field))
    env.expectSingle f value t
  else
    if !form.touches t then
      reject (.field (.form op field t))
    let stored ← read f value
    if t.isLowHalf then
      env.expectPair f value t
    else if !canStore t stored then
      reject (.field (.value op stored field))

/-- Accesses a field of the object in a register, or a static field where there is none. -/
def accessField (access : Access) (form : ElementForm) (value : Nat) (object : Option Nat)
    (field : FieldRef) (f : Frame) : Report Frame := do
  let place : FieldPlace := if object.isSome then .instanceField else .staticField
  let op := Opcode.field place access form
  env.checkClassAccess field.owner
  let owner ← env.fieldOwner access place field
  let t := RegType.ofDescriptor env.pool field.type false
  if t = .conflict then
    reject (.field (.type field))
  if let some reg := object then
    env.checkFieldObject field owner reg f
  match access with
  | .get => readField op form value field t f
  | .put =>
    env.writeField op form value field t f
    return f

end Environment

end BytecodeVerifier
