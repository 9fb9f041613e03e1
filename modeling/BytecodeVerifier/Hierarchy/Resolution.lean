import BytecodeVerifier.Hierarchy.ClassPool

/-!
# Member resolution

How the name of a field or a method leads to its declaration.
-/

namespace BytecodeVerifier

/-- How a method is looked up. -/
inductive MethodSearch where
  /-- For direct and static calls. -/
  | direct
  /-- For virtual calls and calls of a superclass method. -/
  | virtual
  /-- For calls through an interface. -/
  | interface
  deriving DecidableEq, Repr

namespace ClassPool

/-- The field as the class declares it, or one of the interfaces that it names. -/
def fieldOf? (p : ClassPool) (name : String) (type : Descriptor) (c : ClassDef) :
    Option FieldDef :=
  (c.field? name type).or
    (c.interfaces.findSome? fun i => (p.find? i).bind (·.field? name type))

/-- Resolves a field: class by class up the superclasses of `owner`, each class before the
interfaces that it names. -/
def resolveField (p : ClassPool) (owner : Descriptor) (name : String) (type : Descriptor) :
    Option FieldDef :=
  (p.superclasses owner).findSome? (p.fieldOf? name type)

/-- Resolves a method in an interface and those that it extends. -/
def resolveInterfaceMethod (p : ClassPool) (i : Descriptor) (name : String) (proto : Prototype) :
    Option MethodDef :=
  (p.reach ClassDef.interfaces i).findSome? fun d => (p.find? d).bind (·.method? name proto)

/-- Resolves a method in `owner` and its superclasses, then in all their interfaces. -/
def resolveClassMethod (p : ClassPool) (owner : Descriptor) (name : String) (proto : Prototype) :
    Option MethodDef :=
  let chain := p.superclasses owner
  (chain.findSome? (·.method? name proto)).or
    ((chain.flatMap ClassDef.interfaces).findSome? (p.resolveInterfaceMethod · name proto))

/-- Resolves a method. Through an interface also the methods of the root class can be called. -/
def resolveMethod (p : ClassPool) (owner : Descriptor) (name : String) (proto : Prototype) :
    MethodSearch → Option MethodDef
  | .direct | .virtual => p.resolveClassMethod owner name proto
  | .interface =>
    (p.resolveInterfaceMethod owner name proto).or
      ((p.find? .object).bind (·.method? name proto))

end ClassPool

end BytecodeVerifier
