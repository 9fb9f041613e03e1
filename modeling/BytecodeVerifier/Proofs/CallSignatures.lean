import BytecodeVerifier.Proofs.FaultFreedom

/-!
# Calls with malformed parameters

A call names its method with any list of parameters, and no part of the verifier has looked at them
before the call is visited. A visit to a call with a parameter that is malformed or `V` fails, and
so does the verification (`Method.call_rejected`): the arguments are only accepted if every
parameter has a value.

The failure is an error of the method, unless the parameters that have a value are followed by
nothing but `V` (`trailsOff`). These take no registers, so that there is none left to look at, and
the verifier takes that for a fault of its own (`callWithout_void_bug`). A `V` with a value behind
it finds the register of that one and is rejected like any other malformed parameter.
-/

namespace BytecodeVerifier

namespace Environment

open ReportT

variable (env : Environment) (f : Frame)

private theorem ensures_isValue_checkRegisters (kind : InvokeKind) (op : Opcode) (args : List Nat)
    (method : MethodRef) : (env.checkRegisters kind op args method f).Ensures fun _ =>
      ∀ d ∈ method.proto.params, d.isValue = true := by
  refine ensures_guard.2 fun _ => ?_
  split
  · refine .bind fun _ hargs => fun _ _ => ?_
    exact env.ensures_isValue_checkArguments f method _ args _ hargs
  · cases args with
    | nil => exact ensures_reject _
    | cons receiver args =>
      refine .seq fun _ => .bind fun _ hargs => fun _ _ => ?_
      exact env.ensures_isValue_checkArguments f method _ args _ hargs

/-- A call is accepted only if every parameter of the method has a value. -/
theorem ensures_isValue_invoke (kind : InvokeKind) (form : ArgumentForm) (args : List Nat)
    (method : MethodRef) : (env.invoke kind form args method f).Ensures fun _ =>
      ∀ d ∈ method.proto.params, d.isValue = true := by
  refine .seq fun _ => .seq fun _ => .bind fun _ hregisters => fun _ _ => ?_
  exact env.ensures_isValue_checkRegisters f kind _ args method _ hregisters

end Environment

/-! ## Turns of the loop -/

namespace Task

variable {task : Task} {config : Config} {b : Body} {entry : Frame} {s s' final : Progress}
  {pc c : Nat}

/-- The progress that the loop has made after some turns. -/
inductive Attains (task : Task) (config : Config) (s₀ : Progress) : Progress → Prop
  | start : Attains task config s₀ s₀
  | turn {s s' : Progress} {pc c : Nat} : Attains task config s₀ s → s.next? = some (pc, c) →
      task.advance config { s with cursor := c } pc = .ok s' → Attains task config s₀ s'

theorem Attains.backed (hm : task.Models b)
    (h : task.Attains config (.start task.env.layout.size entry) s) : Backed b s := by
  induction h with
  | start => exact backed_start hm entry
  | turn _ _ hadvance ih => exact ih.advance hm hadvance

/-- A loop that comes to an end goes through a turn wherever there is a next position. -/
theorem exists_advance_of_solve {n : Nat} (hnext : s.next? = some (pc, c))
    (h : task.solve config n s = .ok final) : ∃ s' n',
      task.advance config { s with cursor := c } pc = .ok s' ∧
      task.solve config n' s' = .ok final := by
  cases n with
  | zero =>
    rw [solve_zero hnext] at h
    cases h
  | succ n =>
    cases hbudget : config.exhausted? s.visits with
    | some max =>
      rw [solve_of_exhausted hbudget hnext] at h
      cases h
    | none =>
      rw [solve_of_budget hbudget hnext] at h
      obtain ⟨s', hadvance, hrest⟩ := bind_eq_ok.1 h
      exact ⟨s', n, hadvance, hrest⟩

/-- A loop that comes to an end does so from all the progress that it makes. -/
theorem Attains.exists_solve {s₀ : Progress} {n : Nat} (hs : task.Attains config s₀ s)
    (h : task.solve config n s₀ = .ok final) : ∃ n', task.solve config n' s = .ok final := by
  induction hs with
  | start => exact ⟨n, h⟩
  | turn _ hnext hadvance ih =>
    obtain ⟨n', hrest⟩ := ih
    obtain ⟨s', n'', hadvance', hrest'⟩ := exists_advance_of_solve hnext hrest
    cases hadvance.symm.trans hadvance'
    exact ⟨n'', hrest'⟩

/-! ## Visits to calls -/

variable {kind : InvokeKind} {form : ArgumentForm} {args : List Nat} {method : MethodRef}

/-- A turn of the loop that visits a call does not end in a bug, if the parameters do not trail
    off. -/
private theorem advance_call_ne_bug (hm : task.Models b) (hb : b.Resolved) (h : Backed b s)
    (hnext : s.next? = some (pc, c))
    (ho : task.operation? pc = some (.invoke kind form args method))
    (hparams : trailsOff method.proto.params = false) {e : Failure} (he : e.kind = .bug) :
    task.advance config { s with cursor := c } pc ≠ .error e := by
  refine h.advance_ne_bug hm (next?_eq_some hnext).1 (fun before objection hraised => ?_) he
  refine hraised.isFault_eq_false (guided_of_models hm hb h.size) fun o ho' e he => ?_
  cases ho.symm.trans ho'
  refine he.isFault_eq_false (by simp) (by simp) ?_
  rintro _ _ _ _ ⟨⟩
  exact hparams

/-- A turn of the loop that visits a call succeeds only if every parameter has a value. -/
private theorem isValue_of_advance (hm : task.Models b)
    (ho : task.operation? pc = some (.invoke kind form args method))
    (h : task.advance config { s with cursor := c } pc = .ok s') :
    ∀ d ∈ method.proto.params, d.isValue = true := by
  obtain ⟨before, after, -, -, hv⟩ := advance_eq_ok hm h
  rcases after_yields hv.after_eq with ⟨hnone, -⟩ | ⟨o, ho', hyields⟩
  · cases ho.symm.trans hnone
  · cases ho.symm.trans ho'
    exact task.env.ensures_isValue_invoke _ kind form args method after hyields

end Task

namespace Method

variable {p : ClassPool} {config : Config} {m : Method} {prep : Preparation}

/-- A method is rejected if a turn that the loop comes to fails. -/
theorem rejected_of_advance (hprep : m.prepare p config = .ok prep) {s : Progress}
    (hs : prep.task.Attains config prep.start s) {pc c : Nat} (hnext : s.next? = some (pc, c))
    (hfails : ∀ s', prep.task.advance config { s with cursor := c } pc ≠ .ok s') :
    ∃ e, m.verify p config = .error e := by
  cases hverify : m.verify p config with
  | error e => exact ⟨e, rfl⟩
  | ok v =>
    -- the loop would come to an end, and go through the turn that fails
    rw [verify, verifyWithin_eq] at hverify
    obtain ⟨prep', hprep', hverify⟩ := bind_eq_ok.1 hverify
    cases hprep.symm.trans hprep'
    obtain ⟨final, hfinal, -⟩ := bind_eq_ok.1 hverify
    obtain ⟨n, hrest⟩ := hs.exists_solve hfinal
    obtain ⟨s', -, hadvance, -⟩ := Task.exists_advance_of_solve hnext hrest
    exact absurd hadvance (hfails s')

/-- A visit to a call ends in a bug only if the parameters with a value are followed by nothing but
    `V`. If there is a parameter without a value, the visit fails, and the method is rejected. -/
theorem call_rejected (hprep : m.prepare p config = .ok prep) {s : Progress}
    (hs : prep.task.Attains config prep.start s) {pc c : Nat} (hnext : s.next? = some (pc, c))
    {kind : InvokeKind} {form : ArgumentForm} {regs : List UInt16} {method : MethodRef}
    (hcall : prep.body.code[pc]? =
      some (.withConstant (.invoke kind form) regs (.method method))) :
    (trailsOff method.proto.params = false →
      ∀ e, prep.task.advance config { s with cursor := c } pc = .error e → e.kind ≠ .bug) ∧
    ((∃ d ∈ method.proto.params, d.isValue = false) →
      (∃ e, prep.task.advance config { s with cursor := c } pc = .error e) ∧
      ∃ e, m.verify p config = .error e) := by
  obtain ⟨hbody, htask, -⟩ := prepare_eq_ok hprep
  obtain ⟨hm, -, -⟩ := models_of_task (Body.labeled_of_normalize hbody) htask
  have ho : prep.task.operation? pc =
      some (.invoke kind form (regs.map UInt16.toNat) method) := by
    rw [hm.operation, hcall]
    rfl
  have hbacked := hs.backed hm
  constructor
  · intro hparams e herror hbug
    exact Task.advance_call_ne_bug hm (Body.resolved_of_normalize hbody) hbacked hnext ho hparams
      hbug herror
  · rintro ⟨d, hd, hvalue⟩
    have hfails (s' : Progress) :
        prep.task.advance config { s with cursor := c } pc ≠ .ok s' := by
      intro hadvance
      exact absurd (Task.isValue_of_advance hm ho hadvance d hd) (by simp [hvalue])
    refine ⟨?_, rejected_of_advance hprep hs hnext hfails⟩
    cases hadvance : prep.task.advance config { s with cursor := c } pc with
    | ok s' => exact absurd hadvance (hfails s')
    | error e => exact ⟨e, rfl⟩

end Method

/-- Passes its argument on to a static method with these parameters. -/
def passOn (params : List Descriptor) : Method where
  owner := ⟨"LA;"⟩
  name := "passOn"
  proto := { params := [⟨"I"⟩], ret := ⟨"V"⟩ }
  flags := .ofModifiers [.publicAccess, .static]
  locals := 0
  ins := 1
  body :=
    { code := [.withConstant (.invoke .static .list) [0]
          (.method { owner := ⟨"LB;"⟩, name := "run", proto := { params, ret := ⟨"V"⟩ } }),
        .plain .returnVoid []] }

/-- A `V` in front of a value is found out, like any other malformed parameter. -/
theorem passOn_void_rejected : ∃ prep s,
    (passOn [⟨"V"⟩, ⟨"I"⟩]).prepare .core {} = .ok prep ∧
      prep.task.Attains {} prep.start s ∧ s.next? = some (1, 1) ∧
      (∃ e, prep.task.advance {} { s with cursor := 1 } 1 = .error e ∧ e.kind ≠ .bug) ∧
      ∃ e, (passOn [⟨"V"⟩, ⟨"I"⟩]).verify .core {} = .error e := by
  -- the label at the entry comes first
  have hfirst : ((passOn [⟨"V"⟩, ⟨"I"⟩]).prepare .core {} >>= fun prep => do
      let s ← prep.task.advance {} { prep.start with cursor := 0 } 0
      return (prep.start.next?, prep.body.code[1]?, s.next?)) =
      .ok (some (0, 0), (passOn [⟨"V"⟩, ⟨"I"⟩]).body.code[0]?, some (1, 1)) := by
    decide +kernel
  obtain ⟨prep, hprep, hfirst⟩ := bind_eq_ok.1 hfirst
  obtain ⟨s, hadvance, hfirst⟩ := bind_eq_ok.1 hfirst
  simp only [pure, Except.pure, Except.ok.injEq, Prod.mk.injEq] at hfirst
  obtain ⟨hstart, hcall, hnext⟩ := hfirst
  have hs : prep.task.Attains {} prep.start s := .turn .start hstart hadvance
  obtain ⟨hbug, hrejected⟩ := Method.call_rejected hprep hs hnext hcall
  obtain ⟨⟨e, he⟩, hverify⟩ := hrejected ⟨⟨"V"⟩, by simp, by decide⟩
  exact ⟨prep, s, hprep, hs, hnext, ⟨e, he, hbug (by decide) e he⟩, hverify⟩

/-- A `V` with no value behind it makes the verifier fail, although there are as many registers as
    the parameters take. -/
theorem callWithout_void_bug : ∃ e,
    (⟨(callWithout [⟨"V"⟩]).body⟩ : Assembler).finish = .ok (callWithout [⟨"V"⟩]).body ∧
      ((callWithout [⟨"V"⟩]).prepare .core {}).isOk = true ∧
      ({ params := [⟨"V"⟩], ret := ⟨"V"⟩ } : Prototype).argSlots = 0 ∧
      (callWithout [⟨"V"⟩]).verify .core {} = .error e ∧ e.kind = .bug :=
  ⟨.hard (.fault .noArgument) (some 1), rfl, by decide +kernel, by decide, by decide +kernel, rfl⟩

end BytecodeVerifier
