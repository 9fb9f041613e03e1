import BytecodeVerifier.Instruction
import BytecodeVerifier.RegType.Render
import BytecodeVerifier.Text.Hex

/-!
# Warnings

What the verifier cannot settle before the code runs. A method with warnings is accepted, but has to
be checked again while it runs.
-/

namespace BytecodeVerifier

/-- A check that is left to run time. -/
inductive Warning where
  | typeMismatch (reg : Nat) (actual expected : RegType)
  | receiverMismatch (actual : RegType) (owner : Descriptor)
  | storedElement (stored array : RegType)
  | fieldObject (field : FieldRef) (object : RegType)
  | fieldForm (op : Opcode) (field : FieldRef) (type : RegType)
  | unknownClass (desc : Descriptor)
  | unknownOwner (method : MethodRef)
  | unknownDeclaringClass (desc : Descriptor) (method : MethodRef)
  | unresolvedArray (op : Opcode)
  | unknownField (field : FieldRef)
  | unknownMethod (method : MethodRef)
  | superOutside (method : MethodRef) (desc : Descriptor)
  | monitorMismatch (incoming held target : Nat)
  | monitorsHeld (count : Nat)
  | noMonitor
  deriving DecidableEq, Repr

/-- What is left to be checked, in words. -/
def Warning.message : Warning → String
  | .typeMismatch reg actual expected =>
    "register v" ++ toString reg ++ " has type " ++ actual.render ++ " but expected " ++
      expected.render
  | .receiverMismatch actual owner =>
    "receiver " ++ actual.render ++ " is not an instance of " ++ owner.text
  | .storedElement stored array => "aput-object of " ++ stored.render ++ " into " ++ array.render
  | .fieldObject field object =>
    "cannot access field " ++ field.render ++ " through " ++ object.render
  | .fieldForm op field type =>
    op.mnemonic ++ " on field " ++ field.render ++ " of type " ++ type.render
  | .unknownClass desc => "unable to resolve class " ++ desc.text
  | .unknownOwner method =>
    "unable to resolve class " ++ method.owner.text ++ " for " ++ method.render
  | .unknownDeclaringClass desc method =>
    "unable to resolve declaring class " ++ desc.text ++ " for " ++ method.render
  | .unresolvedArray op => "cannot verify " ++ op.mnemonic ++ " on unresolved array type"
  | .unknownField field => "unable to resolve field " ++ field.render
  | .unknownMethod method => "unable to resolve method " ++ method.render
  | .superOutside method desc =>
    "invoke-super to " ++ method.render ++ " outside the superclasses of " ++ desc.text
  | .monitorMismatch incoming held target =>
    "monitor depth " ++ toString incoming ++ " does not match " ++ toString held ++
      " at join [0x" ++ Text.hex target ++ "]"
  | .monitorsHeld count => "returning with " ++ toString count ++ " monitors held"
  | .noMonitor => "monitor-exit with no monitor held"

end BytecodeVerifier
