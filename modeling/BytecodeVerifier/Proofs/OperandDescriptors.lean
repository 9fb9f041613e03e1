import BytecodeVerifier.Proofs.CallSignatures
import BytecodeVerifier.Proofs.Silence

/-!
# Descriptors in operands

Descriptors come with the code as any text at all, and each operation looks at its own. In a
verified method those of every instruction that can be reached are well formed
(`Method.verify_operands_valid`), whether they are the operand itself or stand in the name of a
field or a method.

There is one gap. The class of which a field is named is looked up without a look at its text. If
the pool does not know it, the field counts as one that cannot be found, which is no more than a
warning: `sizeReader` is accepted with any text for the class of the field that it reads.
-/

namespace BytecodeVerifier

/-- The descriptors that a constant carries, but for the class of which a field is named. -/
def Constant.descriptors : Constant → List Descriptor
  | .type d => [d]
  | .field ref => [ref.type]
  | .method ref => ref.owner :: ref.proto.ret :: ref.proto.params
  | _ => []

/-- The descriptors that an operation carries, but for the class of which a field is named. -/
def Operation.descriptors : Operation → List Descriptor
  | .constClass _ d | .checkCast _ d | .instanceOf _ _ d | .newInstance _ d | .newArray _ _ d
  | .filledNewArray _ _ d => [d]
  | .field _ _ _ _ ref => [ref.type]
  | .invoke _ _ _ ref => ref.owner :: ref.proto.ret :: ref.proto.params
  | _ => []

namespace Operation

variable {op : Opcode} {regs : List Nat} {o : Operation}

/-- An operation carries the descriptors of its constant. -/
private theorem descriptors_of_ofConstant? {c : Constant} (h : ofConstant? op regs c = some o) :
    o.descriptors = c.descriptors := by
  unfold ofConstant? at h
  split at h <;> cases h <;> rfl

/-- Only an access to a field names one. -/
private theorem eq_field_of_ofConstant? {ref : FieldRef}
    (h : ofConstant? op regs (.field ref) = some o) :
    ∃ access form value object, o = .field access form value object ref := by
  unfold ofConstant? at h
  split at h <;> simp_all only [Constant.field.injEq, reduceCtorEq, Option.some.injEq]
  · exact ⟨_, _, _, _, h.symm⟩
  · exact ⟨_, _, _, _, h.symm⟩

end Operation

/-! ## What operations check -/

namespace Descriptor

variable {d : Descriptor}

private theorem isValid_of_isReference (h : d.isReference = true) : d.isValid = true := by
  unfold isReference at h
  unfold isValid
  cases hkind : d.kind? with
  | none => simp [hkind] at h
  | some kind => rfl

private theorem isValid_of_isClass (h : d.isClass = true) : d.isValid = true := by
  rw [isValid, beq_iff_eq.1 h]
  rfl

private theorem isValid_of_isArray (h : d.isArray = true) : d.isValid = true := by
  rw [isValid, beq_iff_eq.1 h]
  rfl

private theorem isArray_of_component? {c : Descriptor} (h : d.component? = some c) :
    d.isArray = true := by
  unfold component? at h
  split at h
  · assumption
  · simp at h

private theorem isValid_of_ofDescriptor {p : ClassPool}
    (h : RegType.ofDescriptor p d false ≠ .conflict) : d.isValid = true := by
  rw [ne_eq, RegType.ofDescriptor_eq_conflict_iff, Bool.not_eq_false] at h
  exact (Bool.and_eq_true_iff.1 h).1

end Descriptor

namespace Environment

open ReportT Descriptor

variable (env : Environment) (f : Frame)

private theorem ensures_valid_checkCastOperand (op : Opcode) (src : Nat) (d : Descriptor) :
    (env.checkCastOperand op src d f).Ensures fun _ => d.isValid = true :=
  ensures_guard.2 fun href _ _ => isValid_of_isReference (by simpa using href)

private theorem ensures_valid_checkInstantiable (d : Descriptor) :
    (env.checkInstantiable d).Ensures fun _ => d.isValid = true :=
  ensures_guard.2 fun hclass _ _ => isValid_of_isClass (by simpa using hclass)

private theorem ensures_valid_filledNewArray (args : List Nat) (d : Descriptor) :
    (env.filledNewArray args d f).Ensures fun _ => d.isValid = true := by
  unfold filledNewArray
  cases hcomponent : d.component? with
  | none => exact ensures_reject _
  | some c => exact fun _ _ => isValid_of_isArray (isArray_of_component? hcomponent)

private theorem ensures_valid_accessField (access : Access) (form : ElementForm) (value : Nat)
    (object : Option Nat) (field : FieldRef) :
    (env.accessField access form value object field f).Ensures fun _ =>
      field.type.isValid = true :=
  .seq fun _ => .seq fun _ => ensures_guard.2 fun hconflict _ _ =>
    isValid_of_ofDescriptor hconflict

private theorem ensures_valid_checkCallee (kind : InvokeKind) (method : MethodRef) :
    (env.checkCallee kind method).Ensures fun _ => method.owner.isValid = true :=
  ensures_guard.2 fun _ => ensures_guard.2 fun _ => ensures_guard.2 fun href _ _ =>
    isValid_of_isReference (by simpa using href)

private theorem ensures_valid_leaveResult (method : MethodRef) :
    (env.leaveResult method f).Ensures fun _ => method.proto.ret.isValid = true := by
  unfold leaveResult
  dsimp only
  split
  · rename_i hvoid
    exact fun _ _ => by rw [isValid, beq_iff_eq.1 hvoid]; rfl
  · exact ensures_guard.2 fun hconflict _ _ => isValid_of_ofDescriptor hconflict

/-- Every descriptor that an operation carries is well formed, if the operation is accepted. -/
theorem ensures_valid_transfer (pc : Nat) (o : Operation) :
    (env.transfer pc o f).Ensures fun _ => ∀ d ∈ o.descriptors, d.isValid = true := by
  cases o with
  | constClass dst d =>
    exact ensures_guard.2 fun href _ _ =>
      List.forall_mem_singleton.2 (isValid_of_isReference (by simpa using href))
  | checkCast object d =>
    exact .bind fun _ h _ _ =>
      List.forall_mem_singleton.2 (env.ensures_valid_checkCastOperand f _ _ d _ h)
  | instanceOf dst src d =>
    exact .bind fun _ h _ _ =>
      List.forall_mem_singleton.2 (env.ensures_valid_checkCastOperand f _ _ d _ h)
  | newInstance dst d =>
    exact .bind fun _ h _ _ =>
      List.forall_mem_singleton.2 (env.ensures_valid_checkInstantiable d _ h)
  | newArray dst size d =>
    exact ensures_guard.2 fun harray _ _ =>
      List.forall_mem_singleton.2 (isValid_of_isArray (by simpa using harray))
  | filledNewArray form args d =>
    exact fun g h => List.forall_mem_singleton.2 (env.ensures_valid_filledNewArray f args d g h)
  | field access form value object field =>
    exact fun g h => List.forall_mem_singleton.2
      (env.ensures_valid_accessField f access form value object field g h)
  | invoke kind form args method =>
    intro g h
    have hparams := env.ensures_isValue_invoke f kind form args method g h
    obtain ⟨_, hcallee, h⟩ := h.bind
    obtain ⟨_, -, h⟩ := h.bind
    obtain ⟨_, -, hresult⟩ := h.bind
    have howner := env.ensures_valid_checkCallee kind method _ hcallee
    have hret := env.ensures_valid_leaveResult _ method g hresult
    refine List.forall_mem_cons.2 ⟨howner, List.forall_mem_cons.2 ⟨hret, fun d hd => ?_⟩⟩
    exact (Bool.and_eq_true_iff.1 (hparams d hd)).1
  | _ => exact fun _ _ _ hd => absurd hd List.not_mem_nil

/-! ## Fields of unknown classes -/

variable {env f}

/-- A field is not found in a class that is not known. -/
private theorem resolveField_of_unknown {p : ClassPool} {owner : Descriptor}
    (h : p.find? owner = none) (name : String) (type : Descriptor) :
    p.resolveField owner name type = none := by
  unfold ClassPool.resolveField ClassPool.superclasses ClassPool.walkLimit
  rw [ClassPool.chain, h]
  rfl

/-- An access to a field of a class that is not known raises a warning. -/
private theorem unknownField_mem_of_accessField {access : Access} {form : ElementForm}
    {value : Nat} {object : Option Nat} {field : FieldRef} {g : Frame} {ws : List Warning}
    (hunknown : env.pool.find? field.owner = none)
    (h : (env.accessField access form value object field f).outcome = (.ok g, ws)) :
    .unknownField field ∈ ws := by
  -- where no warning is allowed, the access stops at the first one, which is that of the look-up
  have hclass : env.checkClassAccess field.owner = pure () := by
    obtain ⟨_, _, hclass, -⟩ := runs_bind_eq_ok.1 h
    unfold checkClassAccess at hclass ⊢
    cases hfind : env.pool.find? field.owner.element with
    | none => rfl
    | some c =>
      rw [hfind] at hclass
      by_cases haccess : (c.flags.has .publicAccess || c.desc.package == env.method.owner.package)
      · exact if_pos haccess
      · simp only [haccess] at hclass
        cases hclass
  have hstops : (env.accessField access form value object field f).runs false [] =
      (.error (.warning (.unknownField field)), []) := by
    unfold accessField
    rw [hclass]
    refine (runs_bind_of_ok (a := ()) rfl).trans (runs_bind_of_error ?_)
    unfold fieldOwner
    rw [resolveField_of_unknown hunknown]
    rfl
  have houtcome : (env.transfer 0 (.field access form value object field) f).outcome =
      (.ok g, ws) := h
  have hmem := (env.raises_transfer 0 (.field access form value object field) f).mem_outcome hstops
  rwa [houtcome] at hmem

end Environment

/-! ## Verified methods -/

/-- In a verified method, the descriptors that an instruction carries are well formed, if it can be
    reached. That of a class of which a field is named is so too, unless the pool knows a class by
    that name, or there is a warning that the field cannot be found. -/
theorem Method.verify_operands_valid {p : ClassPool} {config : Config} {m : Method}
    {v : VerifiedMethod} (h : m.verify p config = .ok v) :
    m.body.normalize = .ok v.body ∧ ∀ i ins c, v.body.Reachable i → v.body.code[i]? = some ins →
      ins.constant? = some c → (∀ d ∈ c.descriptors, d.isValid = true) ∧
        ∀ field, c = .field field → field.owner.isValid = true ∨
          (p.find? field.owner).isSome = true ∨
          { warning := .unknownField field, pc := i } ∈ v.flags := by
  obtain ⟨task, entry, hv⟩ := verified_of_verify h
  have hclosed := hv.closed task.domain_true trivial
  refine ⟨hv.normal, fun i ins c hreach hins hconstant => ?_⟩
  obtain ⟨f, hf⟩ := hclosed.covered hreach
  obtain ⟨g, hg, -⟩ := hclosed.settled hf
  cases ins with
  | withConstant op regs c' =>
    cases hconstant
    obtain ⟨o, ho, -⟩ := hv.models.exists_operation hins rfl
    have hspec : Operation.ofConstant? op (regs.map UInt16.toNat) c = some o := by
      rw [hv.models.operation, hins] at ho
      exact ho
    have hok : (task.frameAfter i o f).outcome.1 = .ok g := by
      simpa [Task.after, ho] using hg
    constructor
    · have hvalid := task.env.ensures_valid_transfer _ i o g (ReportT.yields_of_outcome hok)
      rwa [Operation.descriptors_of_ofConstant? hspec] at hvalid
    · rintro field rfl
      obtain ⟨access, form, value, object, rfl⟩ := Operation.eq_field_of_ofConstant? hspec
      cases hfind : p.find? field.owner with
      | some c => exact .inr (.inl rfl)
      | none =>
        refine .inr (.inr (flagged_of_verify h hv.task_eq hf ho ?_))
        exact Environment.unknownField_mem_of_accessField (hv.pool.symm ▸ hfind)
          (Prod.ext hok rfl)
  | _ => simp [Instruction.constant?] at hconstant

/-- Reads the static field `size` of the class `owner`. -/
def sizeReader (owner : Descriptor) : Method where
  owner := ⟨"LA;"⟩
  name := "readSize"
  proto := { params := [], ret := ⟨"V"⟩ }
  flags := .ofModifiers [.publicAccess, .static]
  locals := 1
  ins := 0
  body :=
    { code := [.label ⟨0⟩, .withConstant (.field .staticField .get .single) [0]
        (.field { owner, name := "size", type := ⟨"I"⟩ }), .plain .returnVoid []]
      labelCount := 1 }

/-- All descriptors of a method that names an unknown class by a well-formed name. -/
theorem sizeReader_operands_valid : ∃ v, (sizeReader ⟨"LB;"⟩).verify .core {} = .ok v ∧
    (sizeReader ⟨"LB;"⟩).body.normalize = .ok v.body ∧
    ∀ i ins c, v.body.Reachable i → v.body.code[i]? = some ins → ins.constant? = some c →
      (∀ d ∈ c.descriptors, d.isValid = true) ∧
        ∀ field, c = .field field → field.owner.isValid = true ∨
          (ClassPool.core.find? field.owner).isSome = true ∨
          { warning := .unknownField field, pc := i } ∈ v.flags := by
  obtain ⟨v, h⟩ := exists_eq_ok (x := (sizeReader ⟨"LB;"⟩).verify .core {}) (by decide +kernel)
  exact ⟨v, h, Method.verify_operands_valid h⟩

/-- The method is also accepted if the name of the class is malformed. -/
theorem sizeReader_malformed_accepted : ∃ v field, (sizeReader ⟨"B;"⟩).verify .core {} = .ok v ∧
    v.body.Reachable 1 ∧ v.body.code[1]? =
      some (.withConstant (.field .staticField .get .single) [0] (.field field)) ∧
    field.owner.isValid = false := by
  obtain ⟨v, h⟩ := exists_eq_ok (x := (sizeReader ⟨"B;"⟩).verify .core {}) (by decide +kernel)
  obtain ⟨task, entry, hv⟩ := Method.verified_of_verify h
  have hnormal : (sizeReader ⟨"B;"⟩).body.normalize = .ok (sizeReader ⟨"B;"⟩).body := by
    decide +kernel
  have hbody : v.body = (sizeReader ⟨"B;"⟩).body := Except.ok.inj (hv.normal.symm.trans hnormal)
  refine ⟨v, { owner := ⟨"B;"⟩, name := "size", type := ⟨"I"⟩ }, h, ?_, ?_, by decide +kernel⟩
  · exact hbody ▸ .step .entry (.next rfl rfl)
  · exact hbody ▸ rfl

end BytecodeVerifier
