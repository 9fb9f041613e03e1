import BytecodeVerifier.Proofs.Tracking

/-!
# Definite assignment

In a verified method no instruction reads a register before it has been written
(`Method.verify_assigns_before_use`): on every path, the register is one in which an argument
arrives, or an earlier instruction of the path has written it and has not been cut short by an
exception.

The argument goes backwards. A local that a path has not written is undefined or in conflict at its
end, whatever other paths have done, and an operation that reads it would have been rejected.
-/

namespace BytecodeVerifier

/-- An argument arrives in the register. -/
def Method.IsArgument (m : Method) (reg : Nat) : Prop := m.locals ≤ reg ∧ reg < m.registers

/-- The path has left an instruction that writes the register, and not by an exception. -/
def Body.WrittenAlong (b : Body) (steps : List (Nat × EdgeKind)) (reg : Nat) : Prop :=
  ∃ step ∈ steps, step.2 ≠ .exception ∧ ∃ o, b.operation? step.1 = some o ∧ reg ∈ o.writes

variable {p : ClassPool} {config : Config} {m : Method} {v : VerifiedMethod} {task : Task}
  {entry f g : Frame} {steps : List (Nat × EdgeKind)} {i reg : Nat} {k : EdgeKind} {t : RegType}

theorem Body.writtenAlong_append {b : Body} : b.WrittenAlong (steps ++ [(i, k)]) reg ↔
    b.WrittenAlong steps reg ∨
      k ≠ .exception ∧ ∃ o, b.operation? i = some o ∧ reg ∈ o.writes := by
  simp only [WrittenAlong, List.mem_append, List.mem_singleton, or_and_right, exists_or,
    exists_eq_left]

/-- A step leaves a register unassigned that it does not write, and an exception writes none. -/
private theorem Task.carries_unassigned (hm : task.Models v.body) (hg : task.after i f = .ok g)
    (hreg : k ≠ .exception → ∀ o, v.body.operation? i = some o → reg ∉ o.writes)
    (ht : f.get? reg = some t) (hno : t.isAssigned = false) :
    ∃ u, (k.carries f g).get? reg = some u ∧ u.isAssigned = false := by
  cases k with
  | exception => exact ⟨t, ht, hno⟩
  | next | branch =>
    refine after_unassigned hg (fun o ho => hreg nofun o ?_) ht hno
    rwa [hm.operation] at ho

/-- At the end of a path, a local that the path has not written is not assigned. -/
private theorem Method.Verified.unassigned (hv : m.Verified p config v task entry)
    (hpath : v.body.Path steps i) (hf : task.FrameAt v.body v.frame? i f) (hlocal : reg < m.locals)
    (hreg : ¬v.body.WrittenAlong steps reg) : ∃ t, f.get? reg = some t ∧ t.isAssigned = false := by
  refine hv.tracked.along_path (P := fun steps _ f => ¬v.body.WrittenAlong steps reg →
    ∃ t, f.get? reg = some t ∧ t.isAssigned = false) Frame.Forgets.refl ?_ ?_ hpath hf hreg
  · intro e hforgets _
    have hlt : reg < entry.size := by
      rw [Frame.size, (Prod.mk.inj (entryFrame_shape hv.entry_eq)).1]
      omega
    obtain ⟨t, ht⟩ := Frame.exists_get?_of_lt_size hlt
    obtain rfl := (entryFrame_get? hv.entry_eq ht).1 hlocal
    exact hforgets.unassigned ht rfl
  · intro steps i j k f g e _ _ ih hg _ hforgets hreg
    rw [Body.writtenAlong_append, not_or] at hreg
    obtain ⟨t, ht, hno⟩ := ih hreg.1
    obtain ⟨u, hu, hno⟩ := Task.carries_unassigned hv.models hg
      (fun hk o ho hwrites => hreg.2 ⟨hk, o, ho, hwrites⟩) ht hno
    exact hforgets.unassigned hu hno

/-- In a verified method, every register that an instruction reads and looks at holds an argument or
    has been written on the way, on every path to the instruction. -/
theorem Method.verify_assigns_before_use (h : m.verify p config = .ok v) :
    m.body.normalize = .ok v.body ∧ ∃ task, m.task p config v.body = .ok task ∧
      ∀ steps i ins, v.body.Path steps i → v.body.code[i]? = some ins →
        (∃ l, ins = .label l) ∨ ∃ o f, Operation.ofInstruction? ins = some o ∧
          task.FrameAt v.body v.frame? i f ∧
          (∀ reg, reg ∈ ins.operandRegisters ↔ reg ∈ o.writes ∨ ∃ use, (use, reg) ∈ o.uses) ∧
          ∀ use reg, (use, reg) ∈ o.uses → ¬o.Unchecked f use →
            m.IsArgument reg ∨ v.body.WrittenAlong steps reg := by
  obtain ⟨task, entry, hv⟩ := verified_of_verify h
  refine ⟨hv.normal, task, hv.task_eq, fun steps i ins hpath hins => ?_⟩
  cases hop : Operation.ofInstruction? ins with
  | none => exact .inl (hv.models.label hins hop)
  | some o =>
    have ho : task.operation? i = some o := by rw [hv.models.operation, hins, Option.bind_some, hop]
    obtain ⟨f, hf⟩ := hv.tracked.covered hpath.reachable
    obtain ⟨g, hg, -⟩ := hv.tracked.settled hf
    refine .inr ⟨o, f, rfl, hf, fun reg => ?_, fun use reg huse hchecked => ?_⟩
    · simpa [Operation.reads] using Operation.mem_operandRegisters_iff hop
    · obtain ⟨t, ht, hassigned⟩ := (Task.after_accepts hg ho _ huse).assigned hchecked
      by_cases hlocal : reg < m.locals
      · refine .inr (by_contra fun hreg => ?_)
        obtain ⟨u, hu, hno⟩ := hv.unassigned hpath hf hlocal hreg
        cases ht.symm.trans hu
        exact absurd (hno.symm.trans hassigned) Bool.false_ne_true
      · have hsize : f.size = m.registers := by
          obtain ⟨hlocals, hins⟩ := Prod.mk.inj (hv.tracked.valid hf).shape
          rw [Frame.size, hlocals, hins, registers]
        exact .inl ⟨Nat.not_lt.1 hlocal, hsize ▸ Frame.lt_size_of_get? ht⟩

/-- Divides its arguments, and returns `0` where the division throws. -/
def safeDivide : Method where
  owner := ⟨"LA;"⟩
  name := "divide"
  proto := { params := [⟨"I"⟩, ⟨"I"⟩], ret := ⟨"I"⟩ }
  flags := .ofModifiers [.publicAccess, .static]
  locals := 1
  ins := 2
  body :=
    { code := [.label ⟨0⟩, .plain (.binary (.arithmetic .int .div)) [0, 1, 2], .label ⟨1⟩,
        .plain (.returnValue .single) [0], .label ⟨2⟩, .plain .moveException [0],
        .withConstant .constInt [0] (.int 0), .withTarget .goto [] ⟨1⟩]
      tries := [{ start := ⟨0⟩, stop := ⟨1⟩, handlers := [], catchAll := some ⟨2⟩ }]
      labelCount := 3 }

/-- The quotient is written by the division, or else by the handler. -/
theorem safeDivide_assigns_before_use : ∃ v, safeDivide.verify .core {} = .ok v ∧
    safeDivide.body.normalize = .ok v.body ∧
      ∃ task, safeDivide.task .core {} v.body = .ok task ∧
      ∀ steps i ins, v.body.Path steps i → v.body.code[i]? = some ins →
        (∃ l, ins = .label l) ∨ ∃ o f, Operation.ofInstruction? ins = some o ∧
          task.FrameAt v.body v.frame? i f ∧
          (∀ reg, reg ∈ ins.operandRegisters ↔ reg ∈ o.writes ∨ ∃ use, (use, reg) ∈ o.uses) ∧
          ∀ use reg, (use, reg) ∈ o.uses → ¬o.Unchecked f use →
            safeDivide.IsArgument reg ∨ v.body.WrittenAlong steps reg := by
  obtain ⟨v, h⟩ := exists_eq_ok (x := safeDivide.verify .core {}) (by decide +kernel)
  exact ⟨v, h, Method.verify_assigns_before_use h⟩

end BytecodeVerifier
