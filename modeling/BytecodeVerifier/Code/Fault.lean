/-!
# Faults

A fault is a broken promise between parts of the verifier, such as a label that a body refers to and
never places. It says nothing about the types of the method that is verified, and a body accepted by
the assembler is not meant to raise any.
-/

namespace BytecodeVerifier

/-- A broken internal promise. -/
inductive Fault where
  | labelCountOverflow
  | labelPlacedTwice
  | referenceUnplaced
  | labelBeyondCount
  | labelUnplaced
  | indexOutOfRange
  | operandCount
  | missingState
  | visitOverflow
  | noCaughtType
  | allocationIndex
  | noComponent
  | noReceiver
  | noArgument
  | targetNotLabel
  deriving DecidableEq, Repr

/-- The promise that was broken. -/
def Fault.message : Fault → String
  | .labelCountOverflow => "label count must not wrap"
  | .labelPlacedTwice => "label placed more than once"
  | .referenceUnplaced => "referenced label must be placed"
  | .labelBeyondCount => "label must be below label_count"
  | .labelUnplaced => "label must be placed"
  | .indexOutOfRange => "instruction index must be in range"
  | .operandCount => "operand count must match the opcode"
  | .missingState => "queued branch target must have a state"
  | .visitOverflow => "visit count must not wrap"
  | .noCaughtType => "a handler catches at least one type"
  | .allocationIndex => "instruction index must fit in u32"
  | .noComponent => "array type must have a component"
  | .noReceiver => "receiver register must exist"
  | .noArgument => "argument register must exist"
  | .targetNotLabel => "branch targets must be labels"

end BytecodeVerifier
