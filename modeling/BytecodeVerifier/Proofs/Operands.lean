import BytecodeVerifier.Operation.Shape
import BytecodeVerifier.Proofs.Yields
import Mathlib.Data.List.Basic

/-!
# Operands of an operation

Which registers an operation writes (`Operation.writes`), which it reads, and what for
(`Operation.uses`). A wide value counts with both its registers. A register that is written and not
read is a pure destination.

The two lists together are the register operands of the instruction, neither more nor less
(`Operation.mem_operandRegisters_iff`).

An instruction that passes the check of its operands has an operation
(`Operation.exists_ofInstruction?`).
-/

namespace BytecodeVerifier

/-- The registers of a value that begins in register `reg`. -/
def extent (wide : Bool) (reg : Nat) : List Nat := if wide then [reg, reg + 1] else [reg]

@[simp] theorem extent_false (reg : Nat) : extent false reg = [reg] := rfl

@[simp] theorem extent_true (reg : Nat) : extent true reg = [reg, reg + 1] := rfl

theorem le_of_mem_extent {wide : Bool} {reg r : Nat} (h : r ∈ extent wide reg) : reg ≤ r := by
  cases wide with
  | false => exact Nat.le_of_eq (List.mem_singleton.1 h).symm
  | true =>
    simp only [extent_true, List.mem_cons, List.not_mem_nil, or_false] at h
    omega

/-- What an operation reads a register for. -/
inductive Use where
  /-- To copy it. -/
  | moved
  | returned
  /-- To enter or leave its monitor. -/
  | locked
  /-- To compare its class with a type. -/
  | cast
  /-- To get at the elements or the length of the array in it. -/
  | array
  /-- To find an element of an array. -/
  | index
  /-- To make an array of this length. -/
  | length
  /-- To fill a new array. -/
  | element
  | thrown
  /-- To choose where to go on. -/
  | tested
  /-- To put it into an array or a field. -/
  | stored
  /-- To get at a field of the object in it. -/
  | object
  /-- To call a method on it. -/
  | receiver
  /-- To pass it to a method. -/
  | argument
  /-- To compute with it. -/
  | operand
  deriving DecidableEq, Repr

namespace Operation

/-- The registers that the operation writes. -/
def writes : Operation → List Nat
  | .move form dst _ | .moveResult form dst => extent form.isWide dst
  | .moveException dst | .constInt dst _ | .constString dst | .constClass dst _ => [dst]
  | .constWide dst => extent true dst
  | .checkCast object _ => [object]
  | .instanceOf dst _ _ | .arrayLength dst _ | .newInstance dst _ | .newArray dst _ _ => [dst]
  | .compare _ dst _ _ | .literal _ _ dst _ _ | .shiftLiteral _ dst _ _ => [dst]
  | .array .get form dst _ _ | .field .get form dst _ _ => extent form.isWide dst
  | .unary op dst _ => extent op.target.isWide dst
  | .binary op dst _ _ | .binaryInPlace op dst _ => extent op.target.isWide dst
  | _ => []

/-- The registers that the operation reads, each with what it is read for. -/
def uses : Operation → List (Use × Nat)
  | .move form _ src => (extent form.isWide src).map (.moved, ·)
  | .returnValue form src => (extent form.isWide src).map (.returned, ·)
  | .monitorEnter object | .monitorExit object => [(.locked, object)]
  | .checkCast src _ | .instanceOf _ src _ => [(.cast, src)]
  | .arrayLength _ base | .fillArrayData base _ => [(.array, base)]
  | .newArray _ size _ => [(.length, size)]
  | .filledNewArray _ args _ => args.map (.element, ·)
  | .throwException src => [(.thrown, src)]
  | .switch _ key _ => [(.tested, key)]
  | .ifPair _ a b _ => [(.tested, a), (.tested, b)]
  | .ifZero _ a _ => [(.tested, a)]
  | .array .get _ _ base index => [(.array, base), (.index, index)]
  | .array .put form value base index =>
    (extent form.isWide value).map (.stored, ·) ++ [(.array, base), (.index, index)]
  | .field .get _ _ object _ => object.toList.map (.object, ·)
  | .field .put form value object _ =>
    (extent form.isWide value).map (.stored, ·) ++ object.toList.map (.object, ·)
  | .invoke .static _ args _ => args.map (.argument, ·)
  | .invoke _ _ (receiver :: args) _ => (.receiver, receiver) :: args.map (.argument, ·)
  | .compare c _ a b =>
    (extent c.operand.isWide a ++ extent c.operand.isWide b).map (.operand, ·)
  | .unary op _ src => (extent op.source.isWide src).map (.operand, ·)
  | .binary op _ a b | .binaryInPlace op a b =>
    (extent op.target.isWide a ++ extent op.second.isWide b).map (.operand, ·)
  | .literal _ _ _ src _ | .shiftLiteral _ _ src _ => [(.operand, src)]
  | _ => []

end Operation

/-- The registers that the register operands of an opcode stand for. -/
def RegisterForm.registers (form : RegisterForm) (regs : List Nat) : List Nat :=
  match form with
  | .exactly wide => (regs.zip wide).flatMap fun r => extent r.2 r.1
  | .list | .range => regs

/-- The form asks for `n` registers, or for any number of them. -/
def RegisterForm.Fits (form : RegisterForm) (n : Nat) : Prop :=
  ∀ wide, form = .exactly wide → n = wide.length

/-- The registers that the register operands of an instruction stand for. -/
def Instruction.operandRegisters (i : Instruction) : List Nat :=
  i.opcode?.elim [] fun op => op.shape.regs.registers (i.regs.map UInt16.toNat)

namespace Operation

variable {op : Opcode} {regs : List Nat} {o : Operation} {reg : Nat}

/-- The registers that the operation reads. -/
def reads (o : Operation) : List Nat := o.uses.map Prod.snd

private theorem operands_ofPlain? (h : ofPlain? op regs = some o) :
    reg ∈ op.shape.regs.registers regs ↔ reg ∈ o.writes ∨ reg ∈ o.reads := by
  unfold ofPlain? at h
  split at h <;> cases h
  case h_12 access form value base index =>
    cases access <;> simp [Opcode.shape, RegisterForm.registers, reads, writes, uses,
      Function.comp_def]
  all_goals simp [Opcode.shape, RegisterForm.registers, reads, writes, uses, Function.comp_def]

private theorem operands_ofConstant? {c : Constant} (h : ofConstant? op regs c = some o) :
    reg ∈ op.shape.regs.registers regs ↔ reg ∈ o.writes ∨ reg ∈ o.reads := by
  unfold ofConstant? at h
  split at h <;> cases h
  -- a call that is not static takes its first register apart from the others
  case h_13 kind form m =>
    cases form <;> cases kind <;> cases regs <;>
      simp [Opcode.shape, ArgumentForm.registers, RegisterForm.registers, reads, writes, uses,
        Function.comp_def]
  case h_9 form t =>
    cases form <;> simp [Opcode.shape, ArgumentForm.registers, RegisterForm.registers, reads,
      writes, uses, Function.comp_def]
  case h_11 access form value object f =>
    cases access <;> simp [Opcode.shape, RegisterForm.registers, reads, writes, uses,
      Function.comp_def]
  case h_12 access form value f =>
    cases access <;> simp [Opcode.shape, RegisterForm.registers, reads, writes, uses,
      Function.comp_def]
  all_goals simp [Opcode.shape, RegisterForm.registers, reads, writes, uses]

private theorem operands_ofTarget? {l : Label} (h : ofTarget? op regs l = some o) :
    reg ∈ op.shape.regs.registers regs ↔ reg ∈ o.writes ∨ reg ∈ o.reads := by
  unfold ofTarget? at h
  split at h <;> cases h <;>
    simp [Opcode.shape, RegisterForm.registers, reads, writes, uses]

private theorem operands_ofTable? {ls : List Label} (h : ofTable? op regs ls = some o) :
    reg ∈ op.shape.regs.registers regs ↔ reg ∈ o.writes ∨ reg ∈ o.reads := by
  unfold ofTable? at h
  split at h <;> cases h
  simp [Opcode.shape, RegisterForm.registers, reads, writes, uses]

/-- An operation reads or writes exactly the registers that its instruction names. -/
theorem mem_operandRegisters_iff {ins : Instruction} (h : ofInstruction? ins = some o) :
    reg ∈ ins.operandRegisters ↔ reg ∈ o.writes ∨ reg ∈ o.reads := by
  cases ins with
  | label l => exact nomatch h
  | plain op rs => exact operands_ofPlain? h
  | withConstant op rs c => exact operands_ofConstant? h
  | withTarget op rs l => exact operands_ofTarget? h
  | withTable op rs ks ls => exact operands_ofTable? h

/-! ## Instructions that have an operation -/

private theorem exists_ofPlain? (hform : op.shape.form = .plain)
    (hregs : op.shape.regs.Fits regs.length) : ∃ o, ofPlain? op regs = some o := by
  cases op with
  | nop | returnVoid =>
    obtain rfl := List.length_eq_zero_iff.1 (hregs _ rfl)
    exact ⟨_, rfl⟩
  | moveResult | moveException | returnValue | monitorEnter | monitorExit | throwException =>
    obtain ⟨a, rfl⟩ := List.length_eq_one_iff.1 (hregs _ rfl)
    exact ⟨_, rfl⟩
  | move | arrayLength | unary | binaryInPlace =>
    obtain ⟨a, b, rfl⟩ := List.length_eq_two.1 (hregs _ rfl)
    exact ⟨_, rfl⟩
  | compare | array | binary =>
    obtain ⟨a, b, c, rfl⟩ := List.length_eq_three.1 (hregs _ rfl)
    exact ⟨_, rfl⟩
  | field place => cases place <;> cases hform
  | _ => cases hform

private theorem exists_ofConstant? {c : Constant} (hform : op.shape.form = .constant c.kind)
    (hregs : op.shape.regs.Fits regs.length) : ∃ o, ofConstant? op regs c = some o := by
  cases op with
  | constInt | constWide | constString | constClass | checkCast | newInstance | fillArrayData =>
    obtain ⟨a, rfl⟩ := List.length_eq_one_iff.1 (hregs _ rfl)
    cases c <;> cases hform
    exact ⟨_, rfl⟩
  | instanceOf | newArray | literal | shiftLiteral =>
    obtain ⟨a, b, rfl⟩ := List.length_eq_two.1 (hregs _ rfl)
    cases c <;> cases hform
    exact ⟨_, rfl⟩
  | field place =>
    cases place with
    | instanceField =>
      obtain ⟨a, b, rfl⟩ := List.length_eq_two.1 (hregs _ rfl)
      cases c <;> cases hform
      exact ⟨_, rfl⟩
    | staticField =>
      obtain ⟨a, rfl⟩ := List.length_eq_one_iff.1 (hregs _ rfl)
      cases c <;> cases hform
      exact ⟨_, rfl⟩
  | filledNewArray | invoke =>
    cases c <;> cases hform
    exact ⟨_, rfl⟩
  | _ => cases hform

private theorem exists_ofTarget? {l : Label} (hform : op.shape.form = .target)
    (hregs : op.shape.regs.Fits regs.length) : ∃ o, ofTarget? op regs l = some o := by
  cases op with
  | goto =>
    obtain rfl := List.length_eq_zero_iff.1 (hregs _ rfl)
    exact ⟨_, rfl⟩
  | ifPair =>
    obtain ⟨a, b, rfl⟩ := List.length_eq_two.1 (hregs _ rfl)
    exact ⟨_, rfl⟩
  | ifZero =>
    obtain ⟨a, rfl⟩ := List.length_eq_one_iff.1 (hregs _ rfl)
    exact ⟨_, rfl⟩
  | field place => cases place <;> cases hform
  | _ => cases hform

private theorem exists_ofTable? {ls : List Label} (hform : op.shape.form = .table)
    (hregs : op.shape.regs.Fits regs.length) : ∃ o, ofTable? op regs ls = some o := by
  cases op with
  | switch =>
    obtain ⟨a, rfl⟩ := List.length_eq_one_iff.1 (hregs _ rfl)
    exact ⟨_, rfl⟩
  | field place => cases place <;> cases hform
  | _ => cases hform

/-- An instruction whose operands suit its opcode has an operation. -/
theorem exists_ofInstruction? {ins : Instruction} {size : Nat} (hop : ins.opcode? = some op)
    (h : ins.checkOperands op size = .ok ()) : ∃ o, ofInstruction? ins = some o := by
  unfold Instruction.checkOperands at h
  split at h
  · cases h
  rename_i hform
  rw [not_not] at hform
  obtain ⟨_, hcount, -⟩ := bind_eq_ok.1 h
  have hregs : op.shape.regs.Fits (ins.regs.map UInt16.toNat).length := by
    intro wide hwide
    unfold Instruction.checkCount at hcount
    simpa [hwide] using hcount
  cases ins with
  | label l => cases hop
  | plain op rs =>
    cases hop
    exact exists_ofPlain? (Option.some.inj hform.symm) hregs
  | withConstant op rs c =>
    cases hop
    exact exists_ofConstant? (Option.some.inj hform.symm) hregs
  | withTarget op rs l =>
    cases hop
    exact exists_ofTarget? (Option.some.inj hform.symm) hregs
  | withTable op rs ks ls =>
    cases hop
    exact exists_ofTable? (Option.some.inj hform.symm) hregs

end Operation

/-- The check of an instruction raises no fault. -/
theorem Instruction.toOperation?_ne_fault (ins : Instruction) (size : Nat) (e : Fault) :
    ins.toOperation? size ≠ .error (.fault e) := by
  unfold toOperation?
  split
  · simp
  · rename_i op hop
    split
    · simp
    · rename_i hoperands
      obtain ⟨o, ho⟩ := Operation.exists_ofInstruction? hop hoperands
      simp [ho]

end BytecodeVerifier
