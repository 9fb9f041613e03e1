import BytecodeVerifier.Proofs.OperationObjections
import BytecodeVerifier.Verifier

/-!
# Register faults

No operation asks a frame for a register that it does not have, or tears a wide value apart, once
its operands have been checked (`register_faults_unreachable`). An operation does so only for a
register that it names, and the check of its operands sees to that these are there
(`Instruction.has_of_checkOperands`). What is left is to fetch a value that no call has left behind.

The frame in which a method is entered has the registers for its receiver and its parameters
(`Method.exists_entryFrame`).
-/

namespace BytecodeVerifier

/-! ## Operands that have been checked -/

/-- A register operand reaches no further than its last register. -/
private theorem le_of_mem_operands {form : RegisterForm} {ins : Instruction} {op : Opcode}
    {reg : Nat} (hform : op.shape.regs = form)
    (hreg : reg ∈ form.registers (ins.regs.map UInt16.toNat)) :
    ∃ last ∈ ins.lastRegisters op, reg ≤ last ∧ last ≤ 0x10000 := by
  unfold Instruction.lastRegisters
  rw [hform]
  cases form with
  | exactly wide =>
    simp only [RegisterForm.registers, List.zip_map_left, List.mem_flatMap, List.mem_map] at hreg
    obtain ⟨_, ⟨⟨r, w⟩, hmem, rfl⟩, hreg⟩ := hreg
    have hr := r.toNat_lt
    refine ⟨if w then r.toNat + 1 else r.toNat, List.mem_map.2 ⟨(r, w), hmem, rfl⟩, ?_⟩
    cases w with
    | false =>
      have : reg = r.toNat := by simpa using hreg
      rw [if_neg Bool.false_ne_true]
      omega
    | true =>
      have : reg = r.toNat ∨ reg = r.toNat + 1 := by simpa using hreg
      rw [if_pos rfl]
      omega
  | list | range =>
    obtain ⟨r, hmem, rfl⟩ := List.mem_map.1 hreg
    have hr := r.toNat_lt
    exact ⟨r.toNat, List.mem_map.2 ⟨r, hmem, rfl⟩, Nat.le_refl _, by omega⟩

/-- All registers of an instruction that has been checked are in the frame. -/
theorem Instruction.has_of_checkOperands {ins : Instruction} {op : Opcode} {f : Frame} {reg : Nat}
    (hop : ins.opcode? = some op) (hcheck : ins.checkOperands op f.size = .ok ())
    (hreg : reg ∈ ins.operandRegisters) : f.Has reg := by
  unfold operandRegisters at hreg
  rw [hop] at hreg
  obtain ⟨last, hlast, hle, hmax⟩ := le_of_mem_operands rfl hreg
  unfold checkOperands at hcheck
  split at hcheck
  · cases hcheck
  obtain ⟨_, -, hcheck⟩ := bind_eq_ok.1 hcheck
  obtain ⟨_, hregisters, -⟩ := bind_eq_ok.1 hcheck
  unfold checkRegisters at hregisters
  split at hregisters
  · cases hregisters
  · rename_i hnone
    have hlt := List.find?_eq_none.1 hnone last hlast
    have hsize : last < f.size := by simpa using hlt
    exact ⟨by omega, by unfold Frame.maxRegister; omega⟩

/-! ## The frame on entry -/

namespace Method

/-- As many registers as the parameters take are there for them. -/
private theorem exists_writeParams (p : ClassPool) (params : List Descriptor)
    (hparams : ∀ d ∈ params, d.isValue = true) {f : Frame} {reg : Nat}
    (hsize : reg + params.foldr (fun d n => d.slots + n) 0 ≤ f.size)
    (hmax : f.size ≤ Frame.maxRegister) : ∃ f', writeParams p f reg params = .ok f' := by
  induction params generalizing f reg with
  | nil => exact ⟨f, rfl⟩
  | cons param params ih =>
    rw [List.forall_mem_cons] at hparams
    rw [List.foldr_cons] at hsize
    have hvalue : RegType.ofDescriptor p param false ≠ .conflict := by
      rw [ne_eq, RegType.ofDescriptor_eq_conflict_iff, hparams.1]
      simp
    have hslots := RegType.slots_eq_of_ofDescriptor hvalue
    have hhas : f.Has reg ∧ ((RegType.ofDescriptor p param false).isLowHalf = true →
        f.Has (reg + 1)) := by
      unfold Frame.Has
      split at hslots <;> simp_all <;> omega
    obtain ⟨f', hf'⟩ := hhas.1.write hhas.2 (RegType.isHighHalf_ofDescriptor p param false)
    have hshape : f'.size = f.size := Frame.size_eq_of_shape
      (Frame.assigns_write (P := fun _ => True) (fun _ _ => trivial) trivial hf').shape
    unfold writeParams
    simp only [hvalue, if_false, hf']
    exact ih hparams.2 (by omega) (by omega)

/-- What the check of a declaration promises. -/
private theorem spec_checkDeclaration {m : Method} (h : m.checkDeclaration = .ok ()) :
    m.ins = m.expectedIns ∧ ∀ d ∈ m.proto.params, d.isValue = true := by
  unfold checkDeclaration at h
  split at h
  · cases h
  rename_i hins
  split at h
  · cases h
  rename_i hsignature
  refine ⟨not_not.1 hins, fun d hd => ?_⟩
  simp only [Bool.or_eq_true, List.any_eq_true, not_or, not_exists, not_and] at hsignature
  simpa [Descriptor.isValue] using hsignature.1 d hd

/-- A method whose declaration is in order can be entered, if its registers can be numbered. -/
private theorem exists_entryFrame {p : ClassPool} {m : Method} (h : m.checkDeclaration = .ok ())
    (hmax : m.registers ≤ Frame.maxRegister) :
    ∃ f, m.entryFrame p (m.classType p) = .ok f := by
  obtain ⟨hins, hparams⟩ := spec_checkDeclaration h
  have hblank : (Frame.blank m.locals m.ins).size = m.locals + m.ins := by
    simp [Frame.blank, Frame.size]
  unfold registers at hmax
  unfold expectedIns Prototype.argSlots at hins
  unfold entryFrame
  by_cases hstatic : m.isStatic = true
  · rw [if_pos hstatic] at hins ⊢
    exact exists_writeParams p _ hparams (by omega) (by omega)
  · rw [if_neg hstatic] at hins ⊢
    -- the receiver takes the first register, the parameters those after it
    have hreceiver : (if m.entersUninitialized then (m.classType p).asUninitializedThis
        else m.classType p).isHalf = false := by
      split
      · exact RegType.isHalf_asUninitializedThis _
      · exact RegType.isHalf_ofReference p m.owner false
    have hhas : (Frame.blank m.locals m.ins).Has m.locals := ⟨by omega, by omega⟩
    obtain ⟨f, hf⟩ := hhas.writeSingle hreceiver
    have hsize : f.size = m.locals + m.ins := by
      rw [← hblank, Frame.writeSingle_eq_ok hf]
      exact Frame.size_eq_of_shape (Frame.shape_put _ _ _)
    simp only [hf]
    refine exists_writeParams p _ hparams ?_ ?_
    · show m.locals + 1 + _ ≤ f.size
      omega
    · show f.size ≤ _
      omega

end Method

/-- In a frame for which the operands of an instruction have been checked, the instruction raises no
    register error but that of a value that has not been left behind, whether warnings are allowed
    or not. The frame in which a method is entered is there if the declaration of the method has been
    checked. -/
theorem register_faults_unreachable :
    (∀ (env : Environment) (pc : Nat) (ins : Instruction) (op : Opcode) (f : Frame),
      ins.opcode? = some op → ins.checkOperands op f.size = .ok () →
        ∃ o, Operation.ofInstruction? ins = some o ∧
          ∀ allowed ws e,
            ((env.transfer pc o f).runs allowed ws).1 = .error (.violation (.frame e)) →
              e = .noResult ∨ ∃ form, e = .resultMismatch form) ∧
    ∀ (p : ClassPool) (m : Method), m.checkDeclaration = .ok () →
      m.registers ≤ Frame.maxRegister → ∃ f, m.entryFrame p (m.classType p) = .ok f := by
  constructor
  · intro env pc ins op f hop hcheck
    obtain ⟨o, ho⟩ := Operation.exists_ofInstruction? hop hcheck
    refine ⟨o, ho, fun allowed ws e he => ?_⟩
    have hhas {reg : Nat} (hreg : reg ∈ o.writes ∨ reg ∈ o.reads) : f.Has reg :=
      ins.has_of_checkOperands hop hcheck ((Operation.mem_operandRegisters_iff ho).2 hreg)
    have hraised := (env.raises_transfer pc o f).of_runs_error (Prod.ext he rfl)
    cases hraised with
    | check hcheck => simp [Violation.isInternal] at hcheck
    | register e hreg hno => exact absurd (hhas hreg) hno
    | result _ hfault =>
      cases e with
      | noResult => exact .inl rfl
      | resultMismatch form => exact .inr ⟨form, rfl⟩
      | _ => simp [FrameError.isRegisterFault] at hfault
  · exact fun p m => Method.exists_entryFrame

/-- Fetches a wide value that no call has left behind, into the last two of its registers. -/
def fetchNothing : Method where
  owner := ⟨"LA;"⟩
  name := "fetchNothing"
  proto := { params := [⟨"J"⟩, ⟨"LA;"⟩], ret := ⟨"V"⟩ }
  flags := .ofModifiers [.publicAccess]
  locals := 1
  ins := 4
  body := { code := [.plain (.moveResult .wide) [3], .plain .returnVoid []] }

/-- The method can be entered, and what it fetches has registers to go to. There is only nothing to
    fetch. -/
theorem fetchNothing_register_faults_unreachable :
    (fetchNothing.checkDeclaration = .ok () ∧
      ∃ f, fetchNothing.entryFrame .core (fetchNothing.classType .core) = .ok f) ∧
    Instruction.checkOperands (.moveResult .wide) (.plain (.moveResult .wide) [3])
      (Frame.blank 1 4).size = .ok () ∧
    ∃ o, Operation.ofInstruction? (.plain (.moveResult .wide) [3]) = some o ∧
      ∃ e, (Environment.transfer ⟨.core, fetchNothing, ⟨⟨#[]⟩, [], #[]⟩, true⟩ 0 o
          (.blank 1 4)).outcome.1 = .error (.violation (.frame e)) ∧
        (e = .noResult ∨ ∃ form, e = .resultMismatch form) := by
  have hdeclaration : fetchNothing.checkDeclaration = .ok () := by decide +kernel
  have hcheck : Instruction.checkOperands (.moveResult .wide) (.plain (.moveResult .wide) [3])
      (Frame.blank 1 4).size = .ok () := by decide +kernel
  obtain ⟨o, ho, hraises⟩ := register_faults_unreachable.1
    ⟨.core, fetchNothing, ⟨⟨#[]⟩, [], #[]⟩, true⟩ 0 _ _ _ rfl hcheck
  refine ⟨⟨hdeclaration, register_faults_unreachable.2 .core fetchNothing hdeclaration (by decide)⟩,
    hcheck, o, ho, .noResult, ?_, hraises true [] _ ?_⟩
  all_goals
    cases ho
    rfl

end BytecodeVerifier
