import BytecodeVerifier.Code.Fault
import BytecodeVerifier.Frame
import BytecodeVerifier.Instruction
import BytecodeVerifier.RegType.Render

/-!
# Violations

Why a method is rejected. Violations are grouped by what is looked at when they are found: the
operands of one instruction, the method as a whole, the way execution flows, and then the families
of instructions.
-/

namespace BytecodeVerifier

/-- The operands of an instruction do not suit its opcode or the frame. -/
inductive OperandViolation where
  | form (op : Opcode)
  | count (op : Opcode) (expected actual : Nat)
  | tooMany (op : Opcode) (most actual : Nat)
  | notConsecutive (op : Opcode)
  | register (reg size : Nat)
  | literal (op : Opcode) (value : Int32)
  | tableSizes (op : Opcode) (keys targets : Nat)
  | packedKeys
  deriving DecidableEq, Repr

/-- The wording of the violation. -/
def OperandViolation.message : OperandViolation → String
  | .form op => "malformed operands for " ++ op.mnemonic
  | .count op expected actual =>
    op.mnemonic ++ " takes " ++ toString expected ++ " registers, got " ++ toString actual
  | .tooMany op most actual =>
    op.mnemonic ++ " takes at most " ++ toString most ++ " registers, got " ++ toString actual
  | .notConsecutive op => op.mnemonic ++ " registers are not consecutive"
  | .register reg size => outOfRangeText reg size
  | .literal op value => "literal " ++ toString value.toInt ++ " out of range for " ++ op.mnemonic
  | .tableSizes op keys targets =>
    op.mnemonic ++ " has " ++ toString keys ++ " keys but " ++ toString targets ++ " targets"
  | .packedKeys => "packed-switch keys are not consecutive"

/-- The method contradicts its own declaration. -/
inductive DeclarationViolation where
  | argumentCount (declared expected : Nat)
  | signature (proto : Prototype)
  | declaringClass (desc : Descriptor)
  | reversedRange (start stop : Nat)
  | parameter (desc : Descriptor)
  deriving DecidableEq, Repr

/-- The wording of the violation. -/
def DeclarationViolation.message : DeclarationViolation → String
  | .argumentCount declared expected =>
    "method declares " ++ toString declared ++ " argument registers but its prototype needs " ++
      toString expected
  | .signature proto => "bad method signature " ++ proto.render
  | .declaringClass desc => "declaring class " ++ desc.text ++ " is not a class"
  | .reversedRange start stop =>
    "try range [" ++ toString start ++ ", " ++ toString stop ++ ") ends before it starts"
  | .parameter desc => "bad parameter type " ++ desc.text

/-- Execution goes where it must not. -/
inductive FlowViolation where
  | fallsOff
  | intoHandler
  deriving DecidableEq, Repr

/-- The wording of the violation. -/
def FlowViolation.message : FlowViolation → String
  | .fallsOff => "execution can fall off the end of the code"
  | .intoHandler => "non-exceptional edge into move-exception"

/-- A value is moved, returned, compared or thrown as what it is not. -/
inductive ValueViolation where
  | mismatch (reg : Nat) (actual expected : RegType)
  | pairMismatch (reg : Nat) (lo hi expected : RegType)
  | move (op : Opcode) (dst src : Nat) (type : RegType)
  | moveWide (src : Nat) (lo hi : RegType)
  | exceptionAtEntry
  | exceptionOutsideHandler
  | catchNoClass (desc : Descriptor)
  | catchNoThrowable (desc : Descriptor)
  | returnForm (op : Opcode) (declared : Descriptor)
  | returnBeforeSuper
  | returnUninitialized (reg : Nat)
  | returnType (actual : RegType) (declared : Descriptor)
  | classConstant (desc : Descriptor)
  | monitor (op : Opcode) (type : RegType)
  | throwUninitialized (reg : Nat)
  | throwValue (type : RegType)
  | comparedPair (op : Opcode) (a b : Nat)
  | compared (op : Opcode) (reg : Nat) (type : RegType)
  deriving DecidableEq, Repr

/-- The wording of the violation. -/
def ValueViolation.message : ValueViolation → String
  | .mismatch reg actual expected =>
    "register v" ++ toString reg ++ " has type " ++ actual.render ++ " but expected " ++
      expected.render
  | .pairMismatch reg lo hi expected =>
    "registers v" ++ toString reg ++ "/v" ++ toString (reg + 1) ++ " have types " ++ lo.render ++
      "/" ++ hi.render ++ " but expected " ++ expected.render
  | .move op dst src type =>
    op.mnemonic ++ " v" ++ toString dst ++ ", v" ++ toString src ++ " of type " ++ type.render
  | .moveWide src lo hi =>
    "move-wide from v" ++ toString src ++ " of " ++ lo.render ++ "/" ++ hi.render
  | .exceptionAtEntry => "move-exception at method entry"
  | .exceptionOutsideHandler => "move-exception not at the start of a handler"
  | .catchNoClass desc => "catch type " ++ desc.text ++ " is not a class"
  | .catchNoThrowable desc => "catch type " ++ desc.text ++ " is not a Throwable"
  | .returnForm op declared => op.mnemonic ++ " in a method returning " ++ declared.text
  | .returnBeforeSuper => "constructor returns without calling a superclass constructor"
  | .returnUninitialized reg => "returning uninitialized object in v" ++ toString reg
  | .returnType actual declared =>
    "returning " ++ actual.render ++ " from a method declared to return " ++ declared.text
  | .classConstant desc => "const-class of non-reference type " ++ desc.text
  | .monitor op type => op.mnemonic ++ " on non-object " ++ type.render
  | .throwUninitialized reg => "thrown exception in v" ++ toString reg ++ " is not initialized"
  | .throwValue type => "throw of non-reference " ++ type.render
  | .comparedPair op a b =>
    op.mnemonic ++ " operands v" ++ toString a ++ " and v" ++ toString b ++
      " must both be references or both be integral"
  | .compared op reg type =>
    op.mnemonic ++ " on v" ++ toString reg ++ " of type " ++ type.render

/-- An object is cast, allocated or filled as what it is not. -/
inductive ObjectViolation where
  | castType (op : Opcode) (desc : Descriptor)
  | castValue (op : Opcode) (reg : Nat) (type : RegType)
  | uninitialized (op : Opcode) (reg : Nat)
  | noArray (op : Opcode) (type : RegType)
  | allocatedType (desc : Descriptor)
  | allocatedAbstract (desc : Descriptor)
  | arrayType (op : Opcode) (desc : Descriptor)
  | filledComponent (component : Descriptor)
  | dataComponent (component : Descriptor)
  | dataWidth (width : UInt8) (component : Descriptor)
  deriving DecidableEq, Repr

/-- The wording of the violation. -/
def ObjectViolation.message : ObjectViolation → String
  | .castType op desc => op.mnemonic ++ " on non-reference type " ++ desc.text
  | .castValue op reg type =>
    op.mnemonic ++ " on non-reference v" ++ toString reg ++ " of " ++ type.render
  | .uninitialized op reg => op.mnemonic ++ " on uninitialized reference in v" ++ toString reg
  | .noArray op type => op.mnemonic ++ " on non-array " ++ type.render
  | .allocatedType desc => "new-instance on non-class type " ++ desc.text
  | .allocatedAbstract desc => "new-instance on interface or abstract class " ++ desc.text
  | .arrayType op desc => op.mnemonic ++ " on non-array type " ++ desc.text
  | .filledComponent component =>
    "filled-new-array of " ++ component.text ++ " is not supported, only int or references"
  | .dataComponent component => "fill-array-data on array of " ++ component.text
  | .dataWidth width component =>
    "fill-array-data element width " ++ toString width.toNat ++ " does not match array of " ++
      component.text

/-- An array element is read or written as what it is not. -/
inductive ElementViolation where
  | index (reg : Nat) (type : RegType)
  | unresolved (op : Opcode)
  | primitiveArray (op : Opcode) (array : RegType)
  | referenceArray (op : Opcode) (array : RegType)
  | incompatible (op : Opcode) (array : RegType)
  | value (op : Opcode) (reg : Nat) (type array : RegType)
  deriving DecidableEq, Repr

/-- The wording of the violation. -/
def ElementViolation.message : ElementViolation → String
  | .index reg type => "array index in v" ++ toString reg ++ " has type " ++ type.render
  | .unresolved op => op.mnemonic ++ " on unresolved array type"
  | .primitiveArray op array => op.mnemonic ++ " on primitive array " ++ array.render
  | .referenceArray op array => op.mnemonic ++ " on reference array " ++ array.render
  | .incompatible op array => op.mnemonic ++ " incompatible with array " ++ array.render
  | .value op reg type array =>
    op.mnemonic ++ " value v" ++ toString reg ++ " of " ++ type.render ++
      " does not fit array " ++ array.render

/-- A field is accessed as what it is not, or from where it must not be. -/
inductive FieldViolation where
  | place (field : FieldRef) (expected : FieldPlace)
  | access (field : FieldRef) (here : Descriptor)
  | modifyFinal (field : FieldRef) (here : Descriptor)
  | type (field : FieldRef)
  | object (reg : Nat) (type : RegType)
  | uninitializedObject (field : FieldRef)
  | form (op : Opcode) (field : FieldRef) (type : RegType)
  | primitive (op : Opcode) (field : FieldRef)
  | value (op : Opcode) (type : RegType) (field : FieldRef)
  deriving DecidableEq, Repr

/-- The word for where a field lives. -/
def FieldPlace.word : FieldPlace → String
  | .instanceField => "instance"
  | .staticField => "static"

/-- The wording of the violation. -/
def FieldViolation.message : FieldViolation → String
  | .place field expected =>
    "expected field " ++ field.render ++ " to be " ++ expected.word
  | .access field desc => "illegal access to field " ++ field.render ++ " from " ++ desc.text
  | .modifyFinal field desc =>
    "cannot modify final field " ++ field.render ++ " from " ++ desc.text
  | .type field => "bad type on field " ++ field.render
  | .object reg t =>
    "instance field access on non-reference v" ++ toString reg ++ " of " ++ t.render
  | .uninitializedObject field =>
    "cannot access field " ++ field.render ++ " of a not fully initialized object"
  | .form op field t =>
    op.mnemonic ++ " on field " ++ field.render ++ " of type " ++ t.render
  | .primitive op field => op.mnemonic ++ " on primitive field " ++ field.render
  | .value op t field => op.mnemonic ++ " of " ++ t.render ++ " into field " ++ field.render

/-- A method is called as what it is not, from where it must not be, or with other arguments. -/
inductive CallViolation where
  | classInitializer (method : MethodRef)
  | indirectConstructor (method : MethodRef)
  | owner (desc : Descriptor)
  | noInterface (op : Opcode) (owner : Descriptor)
  | interface (op : Opcode) (owner : Descriptor)
  | kind (op : Opcode) (method : MethodRef)
  | access (method : MethodRef) (here : Descriptor)
  | argumentCount (op : Opcode) (method : MethodRef) (expected actual : Nat)
  | receiver (op : Opcode) (reg : Nat) (type : RegType)
  | initializedReceiver (method : MethodRef) (type : RegType)
  | thisTarget (here owner : Descriptor)
  | constructorOwner (owner : Descriptor) (type : RegType)
  | parameter (param : Descriptor) (method : MethodRef)
  | splitArgument (param : Descriptor) (lo hi : Nat)
  | returnType (method : MethodRef)
  deriving DecidableEq, Repr

/-- The wording of the violation. -/
def CallViolation.message : CallViolation → String
  | .classInitializer method => "call to class initializer " ++ method.render
  | .indirectConstructor method => "non-direct call to constructor " ++ method.render
  | .owner desc => "method owner " ++ desc.text ++ " is not a reference type"
  | .noInterface op desc => op.mnemonic ++ " on non-interface class " ++ desc.text
  | .interface op desc => op.mnemonic ++ " on interface " ++ desc.text
  | .kind op method => op.mnemonic ++ " does not match the kind of method " ++ method.render
  | .access method desc => "illegal access to method " ++ method.render ++ " from " ++ desc.text
  | .argumentCount op method expected actual =>
    op.mnemonic ++ " " ++ method.render ++ " expects " ++ toString expected ++
      " argument registers, got " ++ toString actual
  | .receiver op reg type =>
    op.mnemonic ++ " receiver v" ++ toString reg ++ " of " ++ type.render ++ " is not a reference"
  | .initializedReceiver method type =>
    "constructor " ++ method.render ++ " called on initialized " ++ type.render
  | .thisTarget here desc =>
    "constructor call on this must target " ++ here.text ++ " or its superclass, not " ++ desc.text
  | .constructorOwner desc type => "constructor of " ++ desc.text ++ " called on " ++ type.render
  | .parameter param method => "bad parameter type " ++ param.text ++ " in " ++ method.render
  | .splitArgument param lo hi =>
    "wide argument " ++ param.text ++ " split across v" ++ toString lo ++ " and v" ++ toString hi
  | .returnType method => "bad return type in " ++ method.render

/-- Why a method is rejected. -/
inductive Violation where
  | operand (violation : OperandViolation)
  | declaration (violation : DeclarationViolation)
  | flow (violation : FlowViolation)
  | frame (error : FrameError)
  | value (violation : ValueViolation)
  | object (violation : ObjectViolation)
  | element (violation : ElementViolation)
  | field (violation : FieldViolation)
  | call (violation : CallViolation)
  | classAccess (desc here : Descriptor)
  | budget (visits : Nat)
  | fault (fault : Fault)
  deriving DecidableEq, Repr

/-- What is wrong, in words. -/
def Violation.message : Violation → String
  | .operand v => v.message
  | .declaration v => v.message
  | .flow v => v.message
  | .frame e => e.message
  | .value v => v.message
  | .object v => v.message
  | .element v => v.message
  | .field v => v.message
  | .call v => v.message
  | .classAccess desc here => "illegal access to class " ++ desc.text ++ " from " ++ here.text
  | .budget visits => "gave up after " ++ toString visits ++ " instruction visits"
  | .fault f => f.message

end BytecodeVerifier
