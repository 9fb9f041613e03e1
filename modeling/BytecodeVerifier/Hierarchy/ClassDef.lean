import BytecodeVerifier.AccessFlags
import BytecodeVerifier.Signature

/-!
# Class definitions

What the verifier knows of a class: its superclass and interfaces, and the members it declares.
-/

namespace BytecodeVerifier

/-- A field that a class declares. -/
structure FieldDef where
  owner : Descriptor
  name : String
  type : Descriptor
  flags : AccessFlags
  deriving DecidableEq, Repr

/-- A method that a class declares. -/
structure MethodDef where
  owner : Descriptor
  name : String
  proto : Prototype
  flags : AccessFlags
  deriving DecidableEq, Repr

/-- The method is called without looking at the receiver's class: it is static, private or an
initializer. -/
def MethodDef.isDirect (m : MethodDef) : Bool :=
  m.flags.has .static || m.flags.has .privateAccess || m.name.toList.head? == some '<'

/-- A class or an interface. -/
structure ClassDef where
  desc : Descriptor
  /-- Only the root class has none. -/
  superclass : Option Descriptor
  /-- The interfaces that the class implements, or that the interface extends. -/
  interfaces : List Descriptor := []
  flags : AccessFlags := .ofModifiers [.publicAccess]
  fields : List FieldDef := []
  methods : List MethodDef := []
  deriving DecidableEq, Repr

namespace ClassDef

/-- A public interface without members. -/
def ofInterface (desc : Descriptor) : ClassDef :=
  { desc
    superclass := some .object
    flags := .ofModifiers [.publicAccess, .interface, .abstract] }

/-- The class with one more field. -/
def declareField (c : ClassDef) (name : String) (type : Descriptor) (flags : AccessFlags) :
    ClassDef :=
  { c with fields := c.fields ++ [{ owner := c.desc, name, type, flags }] }

/-- The class with one more method. -/
def declareMethod (c : ClassDef) (name : String) (proto : Prototype) (flags : AccessFlags) :
    ClassDef :=
  { c with methods := c.methods ++ [{ owner := c.desc, name, proto, flags }] }

/-- The class is an interface. -/
def isInterface (c : ClassDef) : Bool := c.flags.has .interface

/-- The class is declared abstract. -/
def isAbstract (c : ClassDef) : Bool := c.flags.has .abstract

/-- The superclass, if there is one, and the interfaces. -/
def parents (c : ClassDef) : List Descriptor := c.superclass.toList ++ c.interfaces

/-- The first field declared with this name and type. -/
def field? (c : ClassDef) (name : String) (type : Descriptor) : Option FieldDef :=
  c.fields.find? fun f => f.name == name && f.type == type

/-- The first method declared with this name and prototype. -/
def method? (c : ClassDef) (name : String) (proto : Prototype) : Option MethodDef :=
  c.methods.find? fun m => m.name == name && m.proto == proto

end ClassDef

end BytecodeVerifier
