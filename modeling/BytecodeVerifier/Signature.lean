import BytecodeVerifier.Descriptor

/-!
# Signatures and member references

Prototypes of methods, and the symbolic references by which code names fields and methods.
-/

namespace BytecodeVerifier

/-- The parameter types of a method, without its receiver, and its return type. -/
structure Prototype where
  params : List Descriptor
  ret : Descriptor
  deriving DecidableEq, Repr

namespace Prototype

/-- The number of registers that the parameters take, without the receiver. -/
def argSlots (p : Prototype) : Nat := p.params.foldr (fun d n => d.slots + n) 0

def render (p : Prototype) : String :=
  "(" ++ String.join (p.params.map Descriptor.text) ++ ")" ++ p.ret.text

end Prototype

/-- The name of every instance initializer. -/
def constructorName : String := "<init>"

/-- The name of every class initializer. -/
def classInitializerName : String := "<clinit>"

/-- A field as code names it. -/
structure FieldRef where
  owner : Descriptor
  name : String
  type : Descriptor
  deriving DecidableEq, Repr

/-- The text of a field reference. -/
def FieldRef.render (f : FieldRef) : String :=
  f.owner.text ++ "->" ++ f.name ++ ":" ++ f.type.text

/-- A method as code names it. -/
structure MethodRef where
  owner : Descriptor
  name : String
  proto : Prototype
  deriving DecidableEq, Repr

namespace MethodRef

def isConstructor (m : MethodRef) : Bool := m.name == constructorName

def isClassInitializer (m : MethodRef) : Bool := m.name == classInitializerName

def render (m : MethodRef) : String := m.owner.text ++ "->" ++ m.name ++ m.proto.render

end MethodRef

end BytecodeVerifier
