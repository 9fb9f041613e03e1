import BytecodeVerifier.Opcode.Mnemonic
import BytecodeVerifier.Signature
import BytecodeVerifier.Text.Quoted

/-!
# Instructions

An instruction as it stands in a method body: an opcode with whatever operands came with it. Nothing
here promises that the operands suit the opcode; that is checked later, against the whole method.
-/

namespace BytecodeVerifier

/-- A program point's name: a number that some label mark in the body places. -/
structure Label where
  id : Nat
  deriving DecidableEq, Repr

namespace Label

/-- Label numbers, and the number of labels of a body, are at most this. -/
def limit : Nat := 0xffffffff

def render (l : Label) : String := ":L" ++ toString l.id

end Label

/-- A register number as instructions encode it. -/
abbrev Register := UInt16

/-- The constant operand of an instruction. -/
inductive Constant where
  | int (value : Int32)
  | wide (value : Int64)
  | string (value : String)
  | type (type : Descriptor)
  | field (field : FieldRef)
  | method (method : MethodRef)
  | arrayData (width : UInt8) (length : UInt32)
  deriving DecidableEq, Repr

/-- The text of a constant. -/
def Constant.render : Constant → String
  | .int v => "#" ++ toString v.toInt
  | .wide v => "#" ++ toString v.toInt ++ "L"
  | .string s => Text.quote s
  | .type t => t.text
  | .field f => f.render
  | .method m => m.render
  | .arrayData width length =>
    "array-data[" ++ toString length.toNat ++ " x " ++ toString width.toNat ++ "]"

/-- An instruction of a method body. Register operands are listed destination (or stored value)
first, then sources; calls list their argument registers in order. -/
inductive Instruction where
  /-- Places a label at this point. -/
  | label (label : Label)
  | plain (op : Opcode) (regs : List Register)
  | withConstant (op : Opcode) (regs : List Register) (constant : Constant)
  | withTarget (op : Opcode) (regs : List Register) (target : Label)
  /-- A table of case keys and, beside it, one of case labels. -/
  | withTable (op : Opcode) (regs : List Register) (keys : List Int32) (targets : List Label)
  deriving DecidableEq, Repr

namespace Instruction

/-- The opcode; a label mark has none. -/
def opcode? : Instruction → Option Opcode
  | .label _ => none
  | .plain op _ | .withConstant op _ _ | .withTarget op _ _ | .withTable op _ _ _ => some op

/-- The register operands. -/
def regs : Instruction → List Register
  | .label _ => []
  | .plain _ rs | .withConstant _ rs _ | .withTarget _ rs _ | .withTable _ rs _ _ => rs

/-- The label that a label mark places. -/
def placed? : Instruction → Option Label
  | .label l => some l
  | _ => none

/-- The instruction is a label mark. -/
def isLabel (i : Instruction) : Bool := i.placed?.isSome

/-- The constant operand. -/
def constant? : Instruction → Option Constant
  | .withConstant _ _ c => some c
  | _ => none

/-- The labels that the instruction refers to, in order. -/
def targets : Instruction → List Label
  | .withTarget _ _ l => [l]
  | .withTable _ _ _ ls => ls
  | _ => []

/-- The instruction with every label that it refers to replaced, if all can be. -/
def retarget {ε : Type} (f : Label → Except ε Label) : Instruction → Except ε Instruction
  | .withTarget op rs l => return .withTarget op rs (← f l)
  | .withTable op rs ks ls => return .withTable op rs ks (← ls.mapM f)
  | i => return i

/-- The registers as they follow a mnemonic. -/
def renderRegs (rs : List Register) : String :=
  ",".intercalate (rs.map fun r => " v" ++ toString r.toNat)

def render : Instruction → String
  | .label l => l.render
  | .plain op rs => op.mnemonic ++ renderRegs rs
  | .withConstant op rs c => op.mnemonic ++ renderRegs rs ++ ", " ++ c.render
  | .withTarget op rs l =>
    op.mnemonic ++ renderRegs rs ++ (if rs.isEmpty then "" else ",") ++ " " ++ l.render
  | .withTable op rs ks ls =>
    let case := fun (k : Int32 × Label) => " " ++ toString k.1.toInt ++ " -> " ++ k.2.render
    op.mnemonic ++ renderRegs rs ++ ", \x7b" ++ ",".intercalate ((ks.zip ls).map case) ++ " \x7d"

end Instruction

end BytecodeVerifier
