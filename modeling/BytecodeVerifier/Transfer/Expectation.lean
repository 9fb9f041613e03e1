import BytecodeVerifier.Code.Layout
import BytecodeVerifier.Hierarchy.Resolution
import BytecodeVerifier.Method
import BytecodeVerifier.Transfer.Report

/-!
# Expectations

What instructions have in common: reading and writing registers, checking that a register holds what
is expected, and checking that a class or a member may be used from where the method is declared.
-/

namespace BytecodeVerifier

/-- What an instruction is looked at against. -/
structure Environment where
  pool : ClassPool
  method : Method
  layout : Layout
  /-- Constants are taken to be exact. -/
  preciseConstants : Bool

namespace ReportT

/-- The type in a register. -/
def read (f : Frame) (reg : Nat) : Report RegType := ofFrame (f.read reg)

/-- Writes a value, given by its low half if it is wide. -/
def write (f : Frame) (reg : Nat) (t : RegType) : Report Frame := ofFrame (f.write reg t)

/-- Writes a value that takes one register. -/
def writeSingle (f : Frame) (reg : Nat) (t : RegType) : Report Frame :=
  ofFrame (f.writeSingle reg t)

end ReportT

namespace Environment

open ReportT

variable (env : Environment)

/-- A mismatch between two initialized references is checked again at run time. Any other mismatch
is a violation. -/
def isRecheckable (actual expected : RegType) : Bool :=
  expected.isNonNullReference && actual.isNonNullReference &&
    !expected.isUninitialized && !actual.isUninitialized

/-- The register holds a value usable as `expected`, which takes one register. -/
def expectSingle (f : Frame) (reg : Nat) (expected : RegType) : Report Unit := do
  let actual ← read f reg
  if expected.isAssignable env.pool actual then
    return
  if isRecheckable actual expected then
    flag (.typeMismatch reg actual expected)
  else
    reject (.value (.mismatch reg actual expected))

/-- The register and the one after it hold a wide value whose low half is usable as `expected`. -/
def expectPair (f : Frame) (reg : Nat) (expected : RegType) : Report Unit := do
  if ← ofFrame (f.holdsPair env.pool reg expected) then
    return
  let lo ← read f reg
  let hi ← read f (reg + 1)
  reject (.value (.pairMismatch reg lo hi expected))

/-- The register holds a value usable as `expected`, wide or not. -/
def expect (f : Frame) (reg : Nat) (expected : RegType) : Report Unit :=
  if expected.isLowHalf then env.expectPair f reg expected else env.expectSingle f reg expected

/-- The register holds a value of a primitive type. -/
def expectPrimitive (f : Frame) (reg : Nat) (t : Primitive) : Report Unit :=
  env.expect f reg (.ofPrimitive t)

/-- A class may be named if it is public or of the method's own package. -/
def checkClassAccess (d : Descriptor) : Report Unit :=
  match env.pool.find? d.element with
  | none => pure ()
  | some c =>
    if c.flags.has .publicAccess || c.desc.package == env.method.owner.package then pure ()
    else reject (.classAccess d.element env.method.owner)

/-- A member of `owner` may be used if it is public or the method's own class declares it; unless it
is private, also from its package, and a protected one from subclasses. -/
def canAccessMember (owner : Descriptor) (flags : AccessFlags) : Bool :=
  let here := env.method.owner
  if owner == here || flags.has .publicAccess then true
  else if flags.has .privateAccess then false
  else if owner.package == here.package then true
  else flags.has .protectedAccess && env.pool.isSubclass here owner

end Environment

end BytecodeVerifier
