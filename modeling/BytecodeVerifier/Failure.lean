import BytecodeVerifier.Failure.Violation
import BytecodeVerifier.Failure.Warning

/-!
# Failures

A failure is a violation or a warning together with the place where it was found. Its kind tells at
a glance what is wrong, and its severity whether the method can be accepted.
-/

namespace BytecodeVerifier

/-- The kinds of failure. -/
inductive FailureKind where
  | badClassHard
  | badClassSoft
  | noClass
  | noField
  | noMethod
  | accessClass
  | accessField
  | accessMethod
  | classChange
  | instantiation
  | locking
  | visitBudgetExhausted
  | bug
  deriving DecidableEq, Repr

/-- The words for a kind of failure. -/
def FailureKind.text : FailureKind → String
  | .badClassHard => "bad class (hard)"
  | .badClassSoft => "bad class (soft)"
  | .noClass => "no class"
  | .noField => "no field"
  | .noMethod => "no method"
  | .accessClass => "illegal class access"
  | .accessField => "illegal field access"
  | .accessMethod => "illegal method access"
  | .classChange => "class change"
  | .instantiation => "instantiation"
  | .locking => "locking"
  | .visitBudgetExhausted => "visit budget exhausted"
  | .bug => "bug"

/-- Whether a failure rejects the method or only marks it. -/
inductive Severity where
  | hard
  | soft
  deriving DecidableEq, Repr

/-- What can be settled when the code runs is soft. -/
def FailureKind.severity : FailureKind → Severity
  | .badClassSoft | .noClass | .noField | .noMethod | .locking => .soft
  | _ => .hard

/-- The kind under which a warning is reported. -/
def Warning.kind : Warning → FailureKind
  | .typeMismatch _ _ _ | .receiverMismatch _ _ | .storedElement _ _ => .badClassSoft
  | .fieldObject _ _ | .fieldForm _ _ _ => .badClassSoft
  | .unknownClass _ | .unknownOwner _ | .unknownDeclaringClass _ _ | .unresolvedArray _ => .noClass
  | .unknownField _ => .noField
  | .unknownMethod _ | .superOutside _ _ => .noMethod
  | .monitorMismatch _ _ _ | .monitorsHeld _ | .noMonitor => .locking

/-- The kind under which a violation is reported. -/
def Violation.kind : Violation → FailureKind
  | .object (.allocatedType _) | .object (.allocatedAbstract _) => .instantiation
  | .field (.place _ _) => .classChange
  | .field (.access _ _) | .field (.modifyFinal _ _) => .accessField
  | .call (.noInterface _ _) | .call (.interface _ _) | .call (.kind _ _) => .classChange
  | .call (.access _ _) => .accessMethod
  | .classAccess _ _ => .accessClass
  | .budget _ => .visitBudgetExhausted
  | .fault _ => .bug
  | _ => .badClassHard

/-- A warning and the position of the instruction that it is about. -/
structure Flag where
  warning : Warning
  pc : Nat
  deriving DecidableEq, Repr

/-- Why verification stops: a violation, found at some position or before any instruction was
looked at, or a warning where none is allowed. -/
inductive Failure where
  | hard (violation : Violation) (pc : Option Nat)
  | soft (flag : Flag)
  deriving DecidableEq, Repr

/-- What a check of an instruction stops at: a violation, or a warning where none is allowed. -/
inductive Objection where
  | violation (v : Violation)
  | warning (w : Warning)
  deriving DecidableEq, Repr

/-- The failure of a check of the instruction at `pc`. -/
def Objection.failure (pc : Nat) : Objection → Failure
  | .violation v => .hard v (some pc)
  | .warning w => .soft { warning := w, pc }

namespace Failure

/-- The kind of a failure. -/
def kind : Failure → FailureKind
  | .hard v _ => v.kind
  | .soft f => f.warning.kind

/-- The severity of a failure, which is that of its kind. -/
def severity (f : Failure) : Severity := f.kind.severity

/-- The position of the instruction that the failure is about. -/
def pc? : Failure → Option Nat
  | .hard _ pc => pc
  | .soft f => some f.pc

/-- What is wrong, without its kind and place. -/
def message : Failure → String
  | .hard v _ => v.message
  | .soft f => f.warning.message

/-- The whole text of a failure. -/
def render (f : Failure) : String :=
  let place := match f.pc? with
    | some pc => " at [0x" ++ Text.hex pc ++ "]"
    | none => ""
  f.kind.text ++ place ++ ": " ++ f.message

end Failure

end BytecodeVerifier
