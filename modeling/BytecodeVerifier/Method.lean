import BytecodeVerifier.AccessFlags
import BytecodeVerifier.Code.Body

/-!
# Methods

A method under verification: where it is declared, what it takes and returns, how many registers its
frame has, and its code.
-/

namespace BytecodeVerifier

/-- A method with code. The frame has `locals` registers and after them `ins` argument registers,
the receiver first. -/
structure Method where
  owner : Descriptor
  name : String
  proto : Prototype
  flags : AccessFlags
  locals : Nat
  ins : Nat
  body : Body
  deriving DecidableEq, Repr

namespace Method

/-- A method declares at most this many argument registers. -/
def maxIns : Nat := 0xffff

/-- The method has no receiver. -/
def isStatic (m : Method) : Bool := m.flags.has .static

/-- An instance initializer. -/
def isConstructor (m : Method) : Bool := !m.isStatic && m.name == constructorName

/-- A class initializer. -/
def isClassInitializer (m : Method) : Bool := m.isStatic && m.name == classInitializerName

/-- The number of argument registers that the prototype asks for, with the receiver. -/
def expectedIns (m : Method) : Nat := m.proto.argSlots + if m.isStatic then 0 else 1

/-- The method with as many argument registers as its prototype asks for. -/
def withExpectedIns (m : Method) : Method := { m with ins := min m.expectedIns maxIns }

/-- The size of the frame. -/
def registers (m : Method) : Nat := m.locals + m.ins

/-- The method as its references name it. -/
def render (m : Method) : String := m.owner.text ++ "->" ++ m.name ++ m.proto.render

end Method

end BytecodeVerifier
