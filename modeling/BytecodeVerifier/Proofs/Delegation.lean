import BytecodeVerifier.Proofs.Verified

/-!
# Delegation of constructors

The receiver of a constructor is not initialized until another constructor has run on it. A verified
constructor delegates exactly once on every path that returns (`Method.verify_delegates_once`).

It delegates at least once because only a delegation sets the flag that a return asks for. It
delegates at most once because a delegation leaves no register behind that still holds the receiver
as uninitialized, and no operation and no merge brings such a register back.
-/

namespace BytecodeVerifier

/-- A step of a path runs a constructor on the receiver, which is not initialized before it, and
    does not end in an exception. -/
def VerifiedMethod.Delegates (v : VerifiedMethod) (task : Task) (step : Nat × EdgeKind) : Prop :=
  step.2 = .next ∧ ∃ form reg regs method f t,
    v.body.code[step.1]? = some (.withConstant (.invoke .direct form) (reg :: regs)
      (.method method)) ∧ method.isConstructor = true ∧
    task.FrameAt v.body v.frame? step.1 f ∧ f.get? reg.toNat = some t ∧
    t.isUninitializedThis = true

/-! ## The uninitialized receiver -/

namespace RegType

variable {p : ClassPool} {a b marker : RegType}

theorem isUninitialized_of_isUninitializedThis (h : a.isUninitializedThis = true) :
    a.isUninitialized = true := by
  cases a <;> simp_all [isUninitializedThis, isUninitialized]

/-- A merge is the uninitialized receiver only if both types are. -/
theorem eq_of_isUninitializedThis_merge (h : (a.merge p b).isUninitializedThis = true) : a = b :=
  eq_of_isUninitialized_merge (isUninitialized_of_isUninitializedThis h)

private theorem notThis_merge (h : a.isUninitializedThis = false ∨ b.isUninitializedThis = false) :
    (a.merge p b).isUninitializedThis = false := by
  refine Bool.eq_false_iff.2 fun hthis => ?_
  obtain rfl := eq_of_isUninitializedThis_merge hthis
  rw [merge, if_pos rfl] at hthis
  simp [hthis] at h

/-- The uninitialized receiver does not arise from anything else. -/
private theorem stable_notThis (p : ClassPool) : Stable p (·.isUninitializedThis = false) :=
  ⟨IsFresh.notThis, fun ha _ => notThis_merge (.inl ha)⟩

/-- There is only one type of uninitialized receiver. -/
private theorem stable_marker (p : ClassPool) (marker : RegType) :
    Stable p fun t => t.isUninitializedThis = true → t = marker where
  fresh h hthis := by simp [h.notThis] at hthis
  merge {a b} ha _ hthis := by
    obtain rfl := eq_of_isUninitializedThis_merge hthis
    rw [merge, if_pos rfl] at hthis ⊢
    exact ha hthis

end RegType

/-- No register holds the receiver as uninitialized. -/
def Frame.NoThis (f : Frame) : Prop := f.All (·.isUninitializedThis = false)

namespace Task

/-- Any register that holds the receiver as uninitialized holds `marker`. -/
private def Marked (marker : RegType) (shape : Nat × Nat) (f : Frame) : Prop :=
  f.All (fun t => t.isUninitializedThis = true → t = marker) ∧ f.shape = shape

/-- The frame `e` promises no more of the receiver than `x` does. -/
private def Weakens (e x : Frame) : Prop :=
  (e.thisInitialized = true → x.thisInitialized = true) ∧ (x.NoThis → e.NoThis)

variable {task : Task} {marker : RegType} {shape : Nat × Nat} {i j : Nat} {f g : Frame}

private theorem domain_marked (task : Task) (marker : RegType) (shape : Nat × Nat) :
    task.Domain (Marked marker shape) Weakens where
  clearResult hf := ⟨hf.1.clearResult (fun h => nomatch h), hf.2⟩
  after hf h := ⟨after_all (RegType.stable_marker _ marker) h hf.1, (after_shape h).trans hf.2⟩
  merge hf hg := ⟨hf.1.merge (fun ha hb => (RegType.stable_marker _ marker).merge ha hb) hg.1,
    (Frame.shape_merge _ _ _).trans hf.2⟩
  refl f := ⟨id, id⟩
  right hf hg := ⟨fun h => (Bool.and_eq_true_iff.1 h).2, fun hno =>
    hno.merge_right (fun hb => RegType.notThis_merge (.inr hb)) (hf.2.trans hg.2.symm)⟩
  left {f g x} _ _ _ h := by
    refine ⟨fun hthis => h.1 (Bool.and_eq_true_iff.1 hthis).1, fun hno => ?_⟩
    have hg : g.All fun _ => True := fun _ _ => trivial
    exact (h.2 hno).merge (fun ha _ => RegType.notThis_merge (.inl ha)) hg

/-- The operation at position `i` runs a constructor on the receiver, which is not initialized
    before it. -/
private def Initializes (task : Task) (i : Nat) (f : Frame) : Prop :=
  ∃ o t, task.operation? i = some o ∧ o.Constructs f t ∧ t.isUninitializedThis = true

/-- When all copies of the uninitialized receiver are marked, none is left. -/
private theorem noThis_mark {p : ClassPool} {t : RegType} (hf : Marked marker shape f)
    (ht : t ∈ f.types) (hthis : t.isUninitializedThis = true) :
    (f.clearResult.markInitialized p t).NoThis := by
  have hmark : ∀ u ∈ f.types,
      (if u = t then t.initialized p else u).isUninitializedThis = false := by
    intro u hu
    split
    · exact (RegType.isComputed_initialized p t).notThis
    -- another copy of the receiver would have the same type
    · rename_i hne
      refine Bool.eq_false_iff.2 fun hu' => hne ?_
      rw [hf.1 u hu hu', hf.1 t ht hthis]
  have hrows := Frame.all_iff.1 (show f.All _ from hmark)
  exact Frame.all_iff.2 ⟨List.forall_mem_map.2 hrows.1, List.forall_mem_map.2 hrows.2.1, rfl, rfl⟩

/-- What an operation does to the receiver. -/
private theorem after_receiver (hf : Marked marker shape f) (h : task.after i f = .ok g) :
    task.Initializes i f ∧ g.NoThis ∨ ¬task.Initializes i f ∧
      g.thisInitialized = f.thisInitialized ∧ (f.NoThis → g.NoThis) := by
  have hstable := RegType.stable_notThis task.env.pool
  have hkeeps : f.NoThis → g.NoThis := after_all hstable h
  rcases after_cases h with ⟨hnone, rfl⟩ | ⟨o, ho, heffect⟩
  · refine .inr ⟨?_, rfl, hkeeps⟩
    rintro ⟨o, t, ho, -⟩
    exact nomatch hnone.symm.trans ho
  -- the value left behind does not matter for the receiver
  have hconstructs : ∀ t, o.Constructs (o.meets f) t ↔ o.Constructs f t := by
    intro t
    unfold Operation.Constructs
    rw [o.get?_meets]
  rcases heffect with ⟨t, hc, hevolves⟩ | ⟨hno, hevolves⟩
  · obtain ⟨form, reg, args, method, rfl, hconstructor, hreg, huninit⟩ := hc
    change f.get? reg = some t at hreg
    change (f.clearResult.markInitialized task.env.pool t).Evolves task.env.pool g at hevolves
    -- the constructor runs on the receiver, or on a new object
    by_cases hthis : t.isUninitializedThis = true
    · refine .inl
        ⟨⟨_, t, ho, ⟨form, reg, args, method, rfl, hconstructor, hreg, huninit⟩, hthis⟩, ?_⟩
      exact hevolves.all hstable (noThis_mark hf (Frame.mem_types_of_get? hreg) hthis)
    · refine .inr ⟨?_, ?_, hkeeps⟩
      · rintro ⟨o', t', ho', ⟨_, _, _, _, rfl, -, hreg', -⟩, hthis'⟩
        cases ho.symm.trans ho'
        cases hreg.symm.trans hreg'
        exact hthis hthis'
      · rw [hevolves.this]
        simp [Frame.markInitialized, Frame.mapRegisters, hthis, Frame.clearResult]
  · refine .inr ⟨?_, ?_, hkeeps⟩
    · rintro ⟨o', t, ho', hc, -⟩
      cases ho.symm.trans ho'
      exact hno t ((hconstructs t).2 hc)
    · rw [hevolves.this, o.thisInitialized_meets]

end Task

/-- Only a call instruction is a call. -/
private theorem Operation.ofInstruction?_eq_invoke {ins : Instruction} {kind : InvokeKind}
    {form : ArgumentForm} {args : List Nat} {method : MethodRef}
    (h : ofInstruction? ins = some (.invoke kind form args method)) :
    ∃ regs, ins = .withConstant (.invoke kind form) regs (.method method) ∧
      args = regs.map UInt16.toNat := by
  have hopcode := (ofInstruction?_spec h).1
  cases ins with
  | label l => exact nomatch hopcode
  | withConstant op regs c =>
    cases hopcode
    cases c with
    | method m =>
      obtain ⟨-, -, hargs, rfl⟩ := invoke.inj (Option.some.inj h)
      exact ⟨regs, rfl, hargs.symm⟩
    | _ => simp [ofInstruction?, ofConstant?, opcode] at h
  | plain op regs => cases hopcode; simp [ofInstruction?, ofPlain?, opcode] at h
  | withTarget op regs l => cases hopcode; simp [ofInstruction?, ofTarget?, opcode] at h
  | withTable op regs ks ls => cases hopcode; simp [ofInstruction?, ofTable?, opcode] at h

/-! ## Along a path -/

namespace VerifiedMethod

variable {v : VerifiedMethod} {task : Task} {marker : RegType} {shape : Nat × Nat}
  {entry f g : Frame} {i j n : Nat} {k : EdgeKind} {steps : List (Nat × EdgeKind)}
  {step : Nat × EdgeKind}

private theorem delegates_iff (hm : task.Models v.body) (hf : task.FrameAt v.body v.frame? i f) :
    v.Delegates task (i, k) ↔ k = .next ∧ task.Initializes i f := by
  refine and_congr_right fun _ => ⟨?_, ?_⟩
  · rintro ⟨form, reg, regs, method, f', t, hins, hconstructor, hf', hreg, hthis⟩
    cases hf.unique hf'
    refine ⟨.invoke .direct form ((reg :: regs).map UInt16.toNat) method, t, ?_, ?_, hthis⟩
    · rw [hm.operation]
      exact congrArg (·.bind Operation.ofInstruction?) hins
    · exact ⟨form, _, _, method, rfl, hconstructor, hreg,
        RegType.isUninitialized_of_isUninitializedThis hthis⟩
  · rintro ⟨o, t, ho, ⟨form, reg, args, method, rfl, hconstructor, hreg, -⟩, hthis⟩
    obtain ⟨ins, hins, hop⟩ := hm.instruction ho
    obtain ⟨regs, rfl, hregs⟩ := Operation.ofInstruction?_eq_invoke hop
    obtain ⟨r, regs, rfl, rfl, -⟩ := List.map_eq_cons_iff.1 hregs.symm
    exact ⟨form, r, regs, method, f, t, hins, hconstructor, hf, hreg, hthis⟩

/-- The path delegates at its `n`-th step. -/
private def DelegatesAt (v : VerifiedMethod) (task : Task) (steps : List (Nat × EdgeKind))
    (n : Nat) : Prop :=
  ∃ step, steps[n]? = some step ∧ v.Delegates task step

private theorem delegatesAt_append_iff : v.DelegatesAt task (steps ++ [step]) n ↔
    v.DelegatesAt task steps n ∨ n = steps.length ∧ v.Delegates task step := by
  rcases Nat.lt_trichotomy n steps.length with hlt | rfl | hgt
  · simp [DelegatesAt, List.getElem?_append_left hlt, Nat.ne_of_lt hlt]
  · simp [DelegatesAt]
  · have hout : (steps ++ [step])[n]? = none ∧ steps[n]? = none := by
      simp only [List.getElem?_eq_none_iff, List.length_append, List.length_singleton]
      omega
    simp [DelegatesAt, hout, Nat.ne_of_gt hgt]

/-- A call does not branch. -/
private theorem not_initializes_of_branch (hm : task.Models v.body) (h : v.body.Edge i .branch j) :
    ¬task.Initializes i f := by
  rintro ⟨o, t, ho, ⟨form, reg, args, method, rfl, -⟩, -⟩
  obtain ⟨ins, hins, hop⟩ := hm.instruction ho
  cases h with
  | branch hins' hl =>
    cases hins.symm.trans hins'
    rw [(Operation.ofInstruction?_spec hop).2] at hl
    exact nomatch hl

/-- A step of a path delegates, and then no register holds the receiver as uninitialized any more,
    or it leaves the receiver as it was. -/
private theorem step_receiver (hm : task.Models v.body) (hf : task.FrameAt v.body v.frame? i f)
    (hmarked : Task.Marked marker shape f) (hg : task.after i f = .ok g)
    (hedge : v.body.Edge i k j) :
    v.Delegates task (i, k) ∧ ¬f.NoThis ∧ (k.carries f g).NoThis ∨ ¬v.Delegates task (i, k) ∧
      (k.carries f g).thisInitialized = f.thisInitialized ∧
      (f.NoThis → (k.carries f g).NoThis) := by
  have hholds : task.Initializes i f → ¬f.NoThis := by
    rintro ⟨o, t, -, ⟨_, _, _, _, -, -, hreg, -⟩, hthis⟩ hno
    exact absurd (hno t (Frame.mem_types_of_get? hreg)) (by simp [hthis])
  rw [delegates_iff hm hf]
  have hafter := Task.after_receiver hmarked hg
  cases k with
  | exception => exact .inr ⟨(nomatch ·.1), rfl, fun hno => hno.clearResult rfl⟩
  | next =>
    exact hafter.imp (fun ⟨hinit, hno⟩ => ⟨⟨rfl, hinit⟩, hholds hinit, hno⟩)
      (fun ⟨hnot, hkeeps⟩ => ⟨fun h => hnot h.2, hkeeps⟩)
  | branch =>
    have hnot := not_initializes_of_branch (f := f) hm hedge
    exact .inr ⟨(nomatch ·.1), (hafter.resolve_left fun h => hnot h.1).2⟩

/-- What the delegations on the way to a position say about the frame there. -/
private theorem path_receiver (hm : task.Models v.body)
    (hc : task.Closed v.body (Task.Marked marker shape) Task.Weakens entry v.frame?)
    (hentry : entry.thisInitialized = false) (hpath : v.body.Path steps i)
    (hf : task.FrameAt v.body v.frame? i f) :
    (f.thisInitialized = true → ∃ n, v.DelegatesAt task steps n) ∧
      (∀ n, v.DelegatesAt task steps n → f.NoThis) ∧
      ∀ n n', v.DelegatesAt task steps n → v.DelegatesAt task steps n' → n = n' := by
  -- what the path has done to the receiver is kept by the frame where it arrives
  refine hc.along_path (P := fun steps _ f =>
    (f.thisInitialized = true → ∃ n, v.DelegatesAt task steps n) ∧
      (∀ n, v.DelegatesAt task steps n → f.NoThis) ∧
      ∀ n n', v.DelegatesAt task steps n → v.DelegatesAt task steps n' → n = n')
    (fun _ => ⟨id, id⟩) (fun e hweakens => ?_) ?_ hpath hf
  · have hnone : ∀ n, ¬v.DelegatesAt task [] n := by simp [DelegatesAt]
    refine ⟨fun h => ?_, fun n hn => absurd hn (hnone n), fun n _ hn => absurd hn (hnone n)⟩
    rw [hweakens.1 h] at hentry
    exact nomatch hentry
  · intro steps i j k f₀ g f _ hf₀ ⟨hthis, hno, hunique⟩ hg hedge hweakens
    rcases step_receiver hm hf₀ (hc.valid hf₀) hg hedge with
      ⟨hdel, hheld, hnow⟩ | ⟨hnot, hsame, hkeeps⟩
    · -- no step before this one has delegated
      have hnone : ∀ n, ¬v.DelegatesAt task steps n := fun n hn => hheld (hno n hn)
      refine ⟨fun _ => ⟨steps.length, delegatesAt_append_iff.2 (.inr ⟨rfl, hdel⟩)⟩,
        fun _ _ => hweakens.2 hnow, fun n n' hn hn' => ?_⟩
      rw [((delegatesAt_append_iff.1 hn).resolve_left (hnone n)).1,
        ((delegatesAt_append_iff.1 hn').resolve_left (hnone n')).1]
    · have hiff : ∀ n, v.DelegatesAt task (steps ++ [(i, k)]) n ↔ v.DelegatesAt task steps n :=
        fun n => delegatesAt_append_iff.trans (or_iff_left fun h => hnot h.2)
      simp only [hiff]
      exact ⟨fun h => hthis (hsame ▸ hweakens.1 h),
        fun n hn => hweakens.2 (hkeeps (hno n hn)), hunique⟩

end VerifiedMethod

/-! ## Constructors -/

/-- Only a method that is declared to do so returns without a value, and a constructor does so only
    after it has delegated. -/
theorem Environment.ensures_returnVoid (env : Environment) (f : Frame) :
    (env.returnVoid f).Ensures fun _ => env.method.proto.ret.isVoid = true ∧
      (env.method.isConstructor = true → f.thisInitialized = true) := by
  refine ReportT.ensures_guard.2 fun hdeclared => ReportT.ensures_guard.2 fun hguard => ?_
  refine .seq fun _ => ReportT.ensures_pure.2 ⟨by simpa using hdeclared, fun henv => ?_⟩
  simpa [henv] using hguard

theorem Operation.eq_returnVoid {o : Operation} (h : o.opcode = .returnVoid) :
    o = .returnVoid := by
  unfold opcode at h
  split at h <;> cases h
  rfl

/-- A constructor returns in frames in which the receiver is initialized. -/
private theorem Task.Models.thisInitialized_of_return {task : Task} {b : Body} {i : Nat}
    {ins : Instruction} {f g : Frame} (hm : task.Models b)
    (henv : task.env.method.isConstructor = true) (hins : b.code[i]? = some ins)
    (hop : ins.opcode? = some .returnVoid) (h : task.after i f = .ok g) :
    f.thisInitialized = true := by
  obtain ⟨o, hoperation, hopcode⟩ := hm.exists_operation hins hop
  obtain rfl := Operation.eq_returnVoid hopcode
  simp only [after, hoperation] at h
  exact (task.env.ensures_returnVoid f.clearResult g (ReportT.yields_of_outcome h)).2 henv

/-- A verified constructor runs exactly one other constructor on its receiver on every path on which
    it returns. -/
theorem Method.verify_delegates_once {p : ClassPool} {config : Config} {m : Method}
    {v : VerifiedMethod} (hstatic : m.isStatic = false) (hname : m.name = constructorName)
    (howner : m.owner ≠ .object) (h : m.verify p config = .ok v) :
    m.body.normalize = .ok v.body ∧ ∃ task, m.task p config v.body = .ok task ∧
      ∀ steps i ins, v.body.Path steps i → v.body.code[i]? = some ins →
        ins.opcode? = some .returnVoid →
        ∃! n : Nat, ∃ step, steps[n]? = some step ∧ v.Delegates task step := by
  obtain ⟨task, entry, hv⟩ := verified_of_verify h
  have hconstructor : m.isConstructor = true := by simp [isConstructor, hstatic, hname]
  have henters : m.entersUninitialized = true := by simp [entersUninitialized, hconstructor, howner]
  have hentry : entry.thisInitialized = false := by
    rw [entryFrame_thisInitialized hv.entry_eq, henters]
    rfl
  have hmarked : Task.Marked (m.classType p).asUninitializedThis entry.shape entry :=
    ⟨entryFrame_all (RegType.stable_marker p _) (fun _ _ => rfl) hv.entry_eq, rfl⟩
  have hclosed := hv.closed (task.domain_marked _ _) hmarked
  refine ⟨hv.normal, task, hv.task_eq, fun steps i ins hpath hins hop => ?_⟩
  obtain ⟨f, hf⟩ := hclosed.covered hpath.reachable
  obtain ⟨hreturned, -, hunique⟩ := v.path_receiver hv.models hclosed hentry hpath hf
  -- the return is accepted in the frame before it
  obtain ⟨g, hg, -⟩ := hclosed.settled hf
  have hthis : f.thisInitialized = true :=
    hv.models.thisInitialized_of_return (hv.method ▸ hconstructor) hins hop hg
  obtain ⟨n, hn⟩ := hreturned hthis
  exact ⟨n, hn, fun n' hn' => hunique n' n hn' hn⟩

/-- A constructor that runs that of the root class on each of two paths, and throws on what that
    throws. -/
def branchingConstructor : Method where
  owner := ⟨"LA;"⟩
  name := constructorName
  proto := { params := [⟨"I"⟩], ret := ⟨"V"⟩ }
  flags := .ofModifiers [.publicAccess]
  locals := 1
  ins := 2
  body :=
    { code := [.label ⟨0⟩, .withTarget (.ifZero .eq) [2] ⟨1⟩, delegation, .withTarget .goto [] ⟨2⟩,
        .label ⟨1⟩, delegation, .label ⟨2⟩, .plain .returnVoid [], .label ⟨3⟩,
        .plain .moveException [0], .plain .throwException [0]]
      tries := [{ start := ⟨0⟩, stop := ⟨2⟩, handlers := [], catchAll := some ⟨3⟩ }]
      labelCount := 4 }
where
  delegation : Instruction :=
    .withConstant (.invoke .direct .list) [1] (.method
      { owner := .object, name := constructorName, proto := { params := [], ret := ⟨"V"⟩ } })

/-- Each path runs the other constructor once, and an exception on the way leads to no return. -/
theorem branchingConstructor_delegates_once : branchingConstructor.isStatic = false ∧
    branchingConstructor.name = constructorName ∧ branchingConstructor.owner ≠ .object ∧
    ∃ v, branchingConstructor.verify .core {} = .ok v ∧
      branchingConstructor.body.normalize = .ok v.body ∧
      ∃ task, branchingConstructor.task .core {} v.body = .ok task ∧
        ∀ steps i ins, v.body.Path steps i → v.body.code[i]? = some ins →
          ins.opcode? = some .returnVoid →
          ∃! n : Nat, ∃ step, steps[n]? = some step ∧ v.Delegates task step := by
  have hok : (branchingConstructor.verify .core {}).isOk = true := by decide +kernel
  refine ⟨by decide +kernel, rfl, by decide +kernel, ?_⟩
  cases h : branchingConstructor.verify .core {} with
  | error e => simp [h, Except.isOk, Except.toBool] at hok
  | ok v =>
    exact ⟨v, rfl, Method.verify_delegates_once (by decide +kernel) rfl (by decide +kernel) h⟩

end BytecodeVerifier
