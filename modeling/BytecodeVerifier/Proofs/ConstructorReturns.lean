import BytecodeVerifier.Proofs.Delegation

/-!
# Returns of constructors

A verified constructor that returns without a value does so in frames in which its receiver is
initialized (`Method.verify_returns_initialized`). Nothing ties a constructor to a return type
though, and a return with a value does not look at the receiver: `valueConstructor` is declared to
return a number, and is accepted although it returns before any other constructor has run.
-/

namespace BytecodeVerifier

open ReportT

variable {p : ClassPool} {config : Config} {m : Method} {v : VerifiedMethod}

/-- No value can be returned as nothing. -/
private theorem RegType.ofDescriptor_of_isVoid (p : ClassPool) {d : Descriptor}
    (h : d.isVoid = true) (precise : Bool) : ofDescriptor p d precise = .conflict := by
  unfold ofDescriptor
  rw [beq_iff_eq.1 h]

/-- Only a method that is declared to return a value returns one. -/
private theorem Environment.ensures_returnValue (env : Environment) (form : ValueForm) (src : Nat)
    (f : Frame) :
    (env.returnValue form src f).Ensures fun _ => env.method.proto.ret.isVoid = false := by
  unfold returnValue
  dsimp only
  refine ensures_guard.2 fun hfits _ _ => Bool.eq_false_iff.2 fun hvoid => hfits ?_
  rw [RegType.ofDescriptor_of_isVoid env.pool hvoid]
  cases form <;> rfl

private theorem Operation.eq_return {o : Operation} (h : o.opcode.isReturn = true) :
    o = .returnVoid ∨ ∃ form src, o = .returnValue form src := by
  cases o with
  | returnVoid => exact .inl rfl
  | returnValue form src => exact .inr ⟨form, src, rfl⟩
  | field access form value object ref => cases object <;> simp [opcode, Opcode.isReturn] at h
  | _ => simp [opcode, Opcode.isReturn] at h

/-- A return that is passed is of the kind that the method declares; if that is the kind without a
    value, a constructor has initialized its receiver. -/
private theorem Task.Models.return_cases {task : Task} {b : Body} {i : Nat} {ins : Instruction}
    {op : Opcode} {f g : Frame} (hm : task.Models b) (hins : b.code[i]? = some ins)
    (hop : ins.opcode? = some op) (hreturn : op.isReturn = true) (h : task.after i f = .ok g) :
    task.env.method.proto.ret.isVoid = true ∧ op = .returnVoid ∧
        (task.env.method.isConstructor = true → f.thisInitialized = true) ∨
      task.env.method.proto.ret.isVoid = false ∧ op ≠ .returnVoid := by
  obtain ⟨o, ho, rfl⟩ := hm.exists_operation hins hop
  simp only [after, ho] at h
  have hyields := yields_of_outcome h
  rcases Operation.eq_return hreturn with rfl | ⟨form, src, rfl⟩
  · obtain ⟨hdeclared, hthis⟩ := task.env.ensures_returnVoid f.clearResult g hyields
    exact .inl ⟨hdeclared, rfl, hthis⟩
  · have hdeclared := task.env.ensures_returnValue form src f.clearResult g hyields
    exact .inr ⟨hdeclared, by simp [Operation.opcode]⟩

/-- Every return that can be reached in a verified constructor has an initialized receiver, unless
    the constructor is declared to return a value, which it then does. -/
theorem Method.verify_returns_initialized (hstatic : m.isStatic = false)
    (hname : m.name = constructorName) (h : m.verify p config = .ok v) :
    m.body.normalize = .ok v.body ∧ ∃ task, m.task p config v.body = .ok task ∧
      ∀ i ins op, v.body.Reachable i → v.body.code[i]? = some ins → ins.opcode? = some op →
        op.isReturn = true → ∃ f, task.FrameAt v.body v.frame? i f ∧
          (m.proto.ret.isVoid = true ∧ op = .returnVoid ∧ f.thisInitialized = true ∨
            m.proto.ret.isVoid = false ∧ op ≠ .returnVoid) := by
  obtain ⟨task, entry, hv⟩ := verified_of_verify h
  have hclosed := hv.closed task.domain_true trivial
  have hconstructor : m.isConstructor = true := by simp [isConstructor, hstatic, hname]
  refine ⟨hv.normal, task, hv.task_eq, fun i ins op hreach hins hop hreturn => ?_⟩
  -- the return has been accepted in the frame before it
  obtain ⟨f, hf⟩ := hclosed.covered hreach
  obtain ⟨g, hg, -⟩ := hclosed.settled hf
  have hcases := hv.models.return_cases hins hop hreturn hg
  rw [hv.method] at hcases
  refine ⟨f, hf, hcases.imp_left ?_⟩
  rintro ⟨hvoid, hkind, hthis⟩
  exact ⟨hvoid, hkind, hthis hconstructor⟩

/-- After each of the two delegations the receiver is initialized where the constructor returns. -/
theorem branchingConstructor_returns_initialized : branchingConstructor.isStatic = false ∧
    branchingConstructor.name = constructorName ∧
    ∃ v, branchingConstructor.verify .core {} = .ok v ∧
      branchingConstructor.body.normalize = .ok v.body ∧
      ∃ task, branchingConstructor.task .core {} v.body = .ok task ∧
        ∀ i ins op, v.body.Reachable i → v.body.code[i]? = some ins → ins.opcode? = some op →
          op.isReturn = true → ∃ f, task.FrameAt v.body v.frame? i f ∧
            (branchingConstructor.proto.ret.isVoid = true ∧ op = .returnVoid ∧
                f.thisInitialized = true ∨
              branchingConstructor.proto.ret.isVoid = false ∧ op ≠ .returnVoid) := by
  have hstatic : branchingConstructor.isStatic = false := by decide +kernel
  obtain ⟨v, h⟩ := exists_eq_ok (x := branchingConstructor.verify .core {}) (by decide +kernel)
  exact ⟨hstatic, rfl, v, h, Method.verify_returns_initialized hstatic rfl h⟩

/-- A constructor that returns a number, and never runs another constructor. -/
def valueConstructor : Method where
  owner := ⟨"LA;"⟩
  name := constructorName
  proto := { params := [], ret := ⟨"I"⟩ }
  flags := .ofModifiers [.publicAccess]
  locals := 1
  ins := 1
  body :=
    { code := [.label ⟨0⟩, .withConstant .constInt [0] (.int 0),
        .plain (.returnValue .single) [0]]
      labelCount := 1 }

/-- The frame in which `valueConstructor` runs, with a local of type `t`. -/
def valueFrame (t : RegType) : Frame where
  locals := [t]
  params := [.uninitializedThis (.named ⟨"LA;"⟩)]
  result := Frame.noResult
  thisInitialized := false
  monitors := some 0

/-- The constructor is accepted, and returns in a frame in which its receiver is not initialized. -/
theorem valueConstructor_returns_uninitialized : valueConstructor.isStatic = false ∧
    valueConstructor.name = constructorName ∧ valueConstructor.owner ≠ .object ∧
    ∃ v, valueConstructor.verify .core {} = .ok v ∧
      ∃ task, valueConstructor.task .core {} v.body = .ok task ∧
        ∃ i ins f, v.body.Reachable i ∧ v.body.code[i]? = some ins ∧
          ins.opcode? = some (.returnValue .single) ∧ task.FrameAt v.body v.frame? i f ∧
          f.thisInitialized = false := by
  let b := valueConstructor.body
  refine ⟨by decide +kernel, rfl, by decide +kernel,
    { body := b, states := [(⟨0⟩, valueFrame .undefined)], flags := [], visits := 3 },
    by decide +kernel, ?_⟩
  obtain ⟨task, htask⟩ := exists_eq_ok (x := valueConstructor.task .core {} b) (by decide +kernel)
  have hafter : ∀ i f g, (valueConstructor.task .core {} b).map (·.after i f) = .ok (.ok g) →
      task.after i f = .ok g := by
    intro i f g h
    rw [htask] at h
    exact Except.ok.inj h
  have htarget : ∀ i, 0 < i → b.code[i]?.any Instruction.isLabel = false → ¬b.IsTarget i := by
    rintro i hi hlabel (rfl | ⟨l, hl, -⟩)
    · exact absurd hi (Nat.lt_irrefl 0)
    · rw [hl] at hlabel
      exact absurd hlabel (by simp [Instruction.isLabel, Instruction.placed?])
  have hfirst : b.Edge 0 .next 1 := .next rfl rfl
  have hsecond : b.Edge 1 .next 2 := .next rfl rfl
  have hentered : task.FrameAt b (VerifiedMethod.frame?
      { body := b, states := [(⟨0⟩, valueFrame .undefined)], flags := [], visits := 3 }) 1
      (valueFrame .undefined) :=
    .passed (.stored (.inl rfl) rfl) hfirst (htarget 1 (by decide) rfl)
      (hafter 0 (valueFrame .undefined) _ (by decide +kernel))
  refine ⟨task, htask, 2, _, valueFrame .zero, .step (.step .entry hfirst) hsecond, rfl, rfl, ?_,
    rfl⟩
  exact .passed hentered hsecond (htarget 2 (by decide) rfl) (hafter 1 _ _ (by decide +kernel))

end BytecodeVerifier
