import BytecodeVerifier.Proofs.LabelResolution
import BytecodeVerifier.Proofs.Verified

/-!
# Verification without faults

A method whose body the assembler accepts is verified without a fault, however malformed it is
otherwise (`Method.verify_ne_bug`): its operands, registers, descriptors and flags can be anything.
Its labels can be resolved, each position is visited with a frame at hand (`Task.Backed`), and the
budget of visits is used up before they can no longer be counted.

Nothing that such a method can hold raises a fault but a call of a method with a parameter of type
`V`. Such a parameter takes no register, and the check of the arguments looks for one.
-/

namespace BytecodeVerifier

/-- The violation is the fault of the verifier. -/
def Violation.isFault : Violation → Bool
  | .fault _ => true
  | _ => false

theorem Violation.isFault_eq_false {v : Violation} (h : ∀ e, v ≠ .fault e) : v.isFault = false := by
  cases v with
  | fault e => exact absurd rfl (h e)
  | _ => rfl

theorem Violation.kind_ne_bug {v : Violation} (h : v.isFault = false) : v.kind ≠ .bug := by
  unfold kind
  split
  all_goals first | decide | exact absurd h.symm Bool.false_ne_true

theorem Warning.kind_ne_bug (w : Warning) : w.kind ≠ .bug := by
  cases w <;> simp [kind]

/-- The objection is to the verifier, not to the method. -/
def Objection.isFault : Objection → Bool
  | .violation v => v.isFault
  | .warning _ => false

theorem Objection.kind_ne_bug {e : Objection} (h : e.isFault = false) (pc : Nat) :
    (e.failure pc).kind ≠ .bug := by
  cases e with
  | violation v => exact v.kind_ne_bug h
  | warning w => exact w.kind_ne_bug

/-! ## Visits -/

/-- An operation raises no fault if the code has a site for it, positions can be told apart, and a
    call finds its arguments. -/
theorem Environment.MayRaise.isFault_eq_false {env : Environment} {pc : Nat} {o : Operation}
    {f : Frame} {e : Objection} (h : env.MayRaise pc o f e)
    (hnew : ∀ dst d, o = .newInstance dst d → pc < allocationLimit)
    (hcatch : ∀ dst, o = .moveException dst → pc < env.layout.size) (ho : o.FindsArguments) :
    e.isFault = false := by
  cases h with
  | @check v hcheck =>
    refine Violation.isFault_eq_false fun e he => ?_
    subst he
    cases hcheck
  | register | result | warning => rfl
  | allocation heq hpc => exact absurd (hnew _ _ heq) (Nat.not_lt.2 hpc)
  | site _ heq hpc => exact absurd (hcatch _ heq) (Nat.not_lt.2 hpc)
  | argument hno => exact absurd ho hno

namespace Task

variable {task : Task} {b : Body} {s s' : Progress} {pc : Nat} {before : Frame}

/-- What the visits of a task rely on. -/
structure Sturdy (task : Task) (b : Body) : Prop where
  models : task.Models b
  resolved : b.Resolved
  size : b.code.length ≤ Environment.allocationLimit
  callable {i : Nat} {o : Operation} : task.operation? i = some o → o.FindsArguments

/-- The labels to which an operation refers are placed. -/
private theorem exists_jumps (hm : task.Models b) (hb : b.Resolved) {o : Operation}
    (ho : task.operation? pc = some o) : ∃ js, task.jumps o = .ok js := by
  obtain ⟨ins, hins, hspec⟩ := hm.instruction ho
  refine exists_mapM_eq_ok fun l hl => ?_
  rw [← (Operation.ofInstruction?_spec hspec).2] at hl
  have hplaced := hb.placed l (Body.mem_references.2 (.inl ⟨ins, List.mem_of_getElem? hins, hl⟩))
  obtain ⟨i, hi⟩ := List.mem_iff_getElem?.1 (Body.mem_placed.1 hplaced)
  exact ⟨i, hm.layout.position.2 hi⟩

/-- Branches and exceptions lead to labels, and so to positions of the code. -/
theorem guided_of_models (hm : task.Models b) (hb : b.Resolved)
    (hsize : s.points.size = b.code.length) : task.Guided s pc := by
  have hlayout := hm.layout.size
  have hlt {k : EdgeKind} {j : Nat} (hk : k ≠ .next) (hedge : b.Edge pc k j) :
      j < task.env.layout.size :=
    hlayout ▸ (hedge.eq_next_or_isTarget.resolve_left fun h => hk h.1).lt hm.labeled
  refine ⟨hsize.trans hlayout.symm, fun ho hj => hlt (by simp) ((hm.mem_handlers ho).1 hj),
    fun ho => ?_⟩
  obtain ⟨js, hjs⟩ := exists_jumps hm hb ho
  exact ⟨js, hjs, fun j hj => hlt (by simp) ((hm.mem_jumps ho hjs).1 hj)⟩

/-- A visit that finds its way raises no fault that the operation does not raise. -/
theorem MayRaise.isFault_eq_false {e : Objection} (h : task.MayRaise s pc before e)
    (hguided : task.Guided s pc)
    (hop : ∀ o, task.operation? pc = some o → ∀ e, task.env.MayRaise pc o (o.meets before) e →
      e.isFault = false) : e.isFault = false := by
  cases h with
  | operation ho h => exact hop _ ho _ h
  | edge | monitors => rfl
  | astray _ hno => exact absurd hguided hno

/-- A visit raises no fault. -/
theorem Sturdy.isFault_eq_false (hs : task.Sturdy b) (hpc : pc < b.code.length)
    (hsize : s.points.size = b.code.length) {e : Objection} (h : task.MayRaise s pc before e) :
    e.isFault = false := by
  have hlayout := hs.models.layout.size
  refine h.isFault_eq_false (guided_of_models hs.models hs.resolved hsize) fun o ho e he => ?_
  exact he.isFault_eq_false (fun _ _ _ => Nat.lt_of_lt_of_le hpc hs.size)
    (fun _ _ => hlayout ▸ hpc) (hs.callable ho)

/-! ## The worklist -/

/-- Every branch target that is to be looked at has a frame. -/
structure Backed (b : Body) (s : Progress) : Prop where
  size : s.points.size = b.code.length
  stored {i : Nat} : s.isQueued i = true → b.IsTarget i → ∃ f, s.stored? i = some f

theorem backed_start (hm : task.Models b) (entry : Frame) :
    Backed b (.start task.env.layout.size entry) := by
  have hlt := (show b.IsTarget 0 from .inl rfl).lt hm.labeled
  rw [← hm.layout.size] at hlt
  obtain ⟨hstored, hqueued⟩ := start_spec _ hlt entry
  refine ⟨by simp [Progress.start, hm.layout.size], fun {i} hi _ => ⟨entry, ?_⟩⟩
  obtain rfl : i = 0 := by simpa [hqueued] using hi
  exact hstored 0

variable {config : Config} {c : Nat} {e : Failure}

theorem Backed.advance (hm : task.Models b) (h : Backed b s)
    (hadvance : task.advance config { s with cursor := c } pc = .ok s') : Backed b s' := by
  obtain ⟨before, after, -, -, hv⟩ := advance_eq_ok hm hadvance
  have hstep := stepAt_of_visited hm task.domain_true h.size (fun _ _ _ => trivial) trivial hv
  refine ⟨hv.size.trans h.size, fun {i} hi htarget => ?_⟩
  -- it has been queued before, or execution has just arrived there
  obtain ⟨-, hold | ⟨k, hedge⟩⟩ := (hstep i).queued hi
  · obtain ⟨f, hf⟩ := h.stored hold htarget
    obtain ⟨f', hf', -⟩ := (hstep i).absorbed (x := f) trivial hf trivial
    exact ⟨f', hf'⟩
  · obtain ⟨f, hf, -⟩ := (hstep i).arrived hedge htarget
    exact ⟨f, hf⟩

theorem Backed.exists_frameBefore (hm : task.Models b) (h : Backed b s)
    (hpc : s.isQueued pc = true) : ∃ f, task.frameBefore s pc = .ok f := by
  have hlt : pc < task.env.layout.size := by
    rw [hm.layout.size, ← h.size]
    exact lt_of_isQueued hpc
  obtain ⟨site, hsite⟩ := Layout.exists_site hlt
  by_cases htarget : site.isTarget = true
  · obtain ⟨f, hf⟩ := h.stored hpc ((hm.layout.site hsite).2.1.1 htarget)
    refine ⟨f, bind_eq_ok.2 ⟨site, hsite, ?_⟩⟩
    rw [if_pos htarget]
    unfold Progress.stored? at hf
    rw [hf]
    rfl
  · refine ⟨s.work, bind_eq_ok.2 ⟨site, hsite, ?_⟩⟩
    rw [if_neg htarget]
    rfl

/-- A turn of the loop does not end in a bug, if the visit raises no fault. -/
theorem Backed.advance_ne_bug (hm : task.Models b) (h : Backed b s) (hpc : s.isQueued pc = true)
    (hvisit : ∀ before objection, task.MayRaise { s with cursor := c } pc before objection →
      objection.isFault = false)
    (he : e.kind = .bug) : task.advance config { s with cursor := c } pc ≠ .error e := by
  obtain ⟨before, hbefore⟩ := h.exists_frameBefore hm hpc
  have hbefore : task.frameBefore { s with cursor := c } pc = .ok before := hbefore
  rw [advance_eq, hbefore]
  dsimp only
  split
  · rename_i objection _ hruns
    refine error_ne_error ?_
    rintro rfl
    exact objection.kind_ne_bug
      (hvisit before objection ((task.raises_visit _ pc before).of_runs_error hruns)) pc he
  · simp

/-- The budget is used up before the visits can no longer be counted. -/
theorem Sturdy.solve_ne_bug (hs : task.Sturdy b) {max n : Nat}
    (hconfig : config.maxVisits = some max) (h : Backed b s) (hvisits : s.visits ≤ max)
    (hn : max < s.visits + n) (he : e.kind = .bug) : task.solve config n s ≠ .error e := by
  -- on the number of visits that can still be counted, which stays above what the budget has left
  induction n generalizing s with
  | zero => omega
  | succ n ih =>
    cases hnext : s.next? with
    | none => simp [solve_of_next?_eq_none hnext]
    | some next =>
      cases hbudget : config.exhausted? s.visits with
      | some max =>
        rw [solve_of_exhausted hbudget hnext]
        refine error_ne_error ?_
        rintro rfl
        cases he
      | none =>
        rw [solve_of_budget hbudget hnext]
        have hpc := (next?_eq_some hnext).1
        have hcode : next.1 < b.code.length := h.size ▸ lt_of_isQueued hpc
        refine bind_ne_error (h.advance_ne_bug hs.models hpc
          (fun _ _ => hs.isFault_eq_false (s := { s with cursor := next.2 }) hcode h.size) he)
          fun s' hadvance => ?_
        have hlt : s.visits < max := by
          simpa [Config.exhausted?, hconfig] using hbudget
        have hvisits' : s'.visits = s.visits + 1 := by
          obtain ⟨_, _, _, -, -, -, rfl⟩ := advance_eq_ok_iff.1 hadvance
          rfl
        exact ih (h.advance hs.models hadvance) (by omega) (by omega)

end Task

/-! ## Verification -/

theorem Failure.unplaced_ne_bug {ε α : Type} {g : ε → Violation} {x : Except ε α} {e : Failure}
    (he : e.kind = .bug) (h : ∀ a, x = .error a → (g a).isFault = false) :
    unplaced g x ≠ .error e := by
  cases x with
  | ok a => exact pure_ne_error
  | error a =>
    refine error_ne_error ?_
    rintro rfl
    exact Violation.kind_ne_bug (h a rfl) he

theorem operationsFrom_ne_bug {e : Failure} (he : e.kind = .bug) (size pc : Nat)
    (code : List Instruction) : operationsFrom size pc code ≠ .error e := by
  fun_induction operationsFrom size pc code with
  | case1 => exact pure_ne_error
  | case2 pc i rest v hv =>
    refine error_ne_error ?_
    rintro rfl
    refine Violation.kind_ne_bug (Violation.isFault_eq_false fun fault hfault => ?_) he
    exact i.toOperation?_ne_fault size fault (hfault ▸ hv)
  | case3 pc i rest o ho ih =>
    cases hrest : operationsFrom size (pc + 1) rest with
    | error e' => exact fun h => ih (hrest.trans (by cases h; rfl))
    | ok os => exact pure_ne_error

/-- Where execution has arrived, there is a label. -/
theorem exists_reachedLabels {code : List Instruction} {points : Array Point}
    (h : ∀ (i : Nat) f, points[i]?.bind Point.entry = some f →
      ∃ l, code[i]? = some (Instruction.label l)) :
    ∃ states, reachedLabels code points = .ok states := by
  refine exists_mapM_eq_ok ?_
  rintro ⟨ins, f⟩ hmem
  obtain ⟨i, hins, hf⟩ := mem_reached.1 hmem
  obtain ⟨l, hl⟩ := h i f hf
  cases hins.symm.trans hl
  exact ⟨(l, f), rfl⟩

/-- The method that a call names is the constant of its instruction. -/
theorem Operation.constant?_of_invoke {ins : Instruction} {kind : InvokeKind} {form : ArgumentForm}
    {args : List Nat} {method : MethodRef}
    (h : ofInstruction? ins = some (.invoke kind form args method)) :
    ins.constant? = some (.method method) := by
  cases ins with
  | label l => cases h
  | plain op rs =>
    change ofPlain? op _ = _ at h
    unfold ofPlain? at h
    split at h <;> cases h
  | withConstant op rs c =>
    change ofConstant? op _ c = _ at h
    unfold ofConstant? at h
    split at h <;> cases h
    rfl
  | withTarget op rs l =>
    change ofTarget? op _ l = _ at h
    unfold ofTarget? at h
    split at h <;> cases h
  | withTable op rs ks ls =>
    change ofTable? op _ ls = _ at h
    unfold ofTable? at h
    split at h <;> cases h

namespace Method

variable {p : ClassPool} {config : Config} {m : Method} {b : Body} {e : Failure} {task : Task}

theorem task_ne_bug (he : e.kind = .bug) (hb : b.Resolved) : m.task p config b ≠ .error e := by
  obtain ⟨layout, hlayout⟩ := Layout.exists_ofBody hb
  refine bind_ne_error (Failure.unplaced_ne_bug he fun _ _ => rfl) fun _ _ =>
    bind_ne_error (operationsFrom_ne_bug he _ _ _) fun _ _ => ?_
  split
  · refine error_ne_error ?_
    rintro rfl
    cases he
  · refine bind_ne_error (Failure.unplaced_ne_bug he fun fault hfault => ?_) fun _ _ =>
      bind_ne_error (Failure.unplaced_ne_bug he fun _ _ => rfl) fun _ _ => pure_ne_error
    cases hlayout.symm.trans hfault

/-- The task of a method in normal form can be relied on. -/
theorem sturdy_of_task (hbody : m.body.normalize = .ok b) (htask : m.task p config b = .ok task)
    (hsize : m.body.code.length < Label.limit)
    (hvoid : ∀ ins ∈ m.body.code, ∀ method, ins.constant? = some (.method method) →
      ⟨"V"⟩ ∉ method.proto.params) : task.Sturdy b := by
  obtain ⟨hm, -, -⟩ := models_of_task (Body.labeled_of_normalize hbody) htask
  refine ⟨hm, Body.resolved_of_normalize hbody, ?_, ?_⟩
  · have hlength := Body.length_le_of_normalize hbody
    unfold Label.limit at hsize
    unfold Environment.allocationLimit
    omega
  · rintro i o ho kind form args method rfl
    refine trailsOff_eq_false fun d hd => ?_
    obtain ⟨ins, hins, hspec⟩ := hm.instruction ho
    obtain ⟨ins', hins', hmethod⟩ := Body.constant_of_normalize hbody (List.mem_of_getElem? hins)
      (Operation.constant?_of_invoke hspec)
    refine Descriptor.isVoid_eq_false fun hV => hvoid ins' hins' method hmethod ?_
    rwa [← hV]

/-- A method whose body the assembler accepts is verified without a bug, if it is not too long, the
    number of visits is bounded, and no method that it calls has a parameter of type `V`. -/
theorem verify_ne_bug {a : Assembler} {n : Nat} (hfinish : a.finish = .ok m.body)
    (hsize : m.body.code.length < Label.limit)
    (hvoid : ∀ ins ∈ m.body.code, ∀ method, ins.constant? = some (.method method) →
      ⟨"V"⟩ ∉ method.proto.params)
    (hconfig : config.maxVisits = some n) (hn : n < visitLimit)
    (h : m.verify p config = .error e) : e.kind ≠ .bug := by
  intro he
  obtain ⟨-, htwice, hplaced⟩ := Assembler.finish_eq_ok.1 hfinish
  obtain ⟨body, hbody⟩ := Body.exists_normalize htwice hplaced hsize
  refine absurd h (bind_ne_error (Failure.unplaced_ne_bug he fun _ herror => ?_) fun body' hbody' =>
    bind_ne_error ?_ fun task htask =>
    bind_ne_error (Failure.unplaced_ne_bug he fun v hv => ?_) fun entry _ =>
    bind_ne_error ?_ fun final hfinal =>
    bind_ne_error (Failure.unplaced_ne_bug he fun _ herror => ?_) fun _ _ => pure_ne_error)
  · cases hbody.symm.trans herror
  -- from here on there is a normal form
  all_goals obtain rfl : body = body' :=
    Except.ok.inj (hbody.symm.trans (Failure.unplaced_eq_ok.1 hbody'))
  · exact task_ne_bug he (Body.resolved_of_normalize hbody)
  · refine Violation.isFault_eq_false fun fault hfault => ?_
    obtain rfl : v = .fault fault := hfault
    exact entryFrame_ne_fault hv
  -- from here on there is a task
  all_goals have hs := sturdy_of_task hbody htask hsize hvoid
  · exact hs.solve_ne_bug hconfig (Task.backed_start hs.models entry) (Nat.zero_le n)
      (by simpa [Progress.start] using hn) he
  · -- frames are stored at branch targets only, and these are labels
    obtain ⟨-, hclosed⟩ := Task.closed_of_solve hs.models task.domain_true trivial hfinal
    obtain ⟨states, hstates⟩ : ∃ states, reachedLabels body.code final.points = .ok states :=
      exists_reachedLabels fun i f hf => (hclosed.stored hf).1.marks hs.models.labeled
    cases hstates.symm.trans herror

end Method

/-- Passes no arguments to a static method with these parameters. -/
def callWithout (params : List Descriptor) : Method where
  owner := ⟨"LA;"⟩
  name := "callWithout"
  proto := { params := [], ret := ⟨"V"⟩ }
  flags := .ofModifiers [.publicAccess, .static]
  locals := 0
  ins := 0
  body :=
    { code := [.withConstant (.invoke .static .list) []
          (.method { owner := ⟨"LB;"⟩, name := "run", proto := { params, ret := ⟨"V"⟩ } }),
        .plain .returnVoid []] }

/-- Leaving out the arguments is an error of the method, not one of the verifier. -/
theorem callWithout_long_ne_bug : ∃ e,
    (callWithout [⟨"J"⟩]).verify .core { maxVisits := some 10 } = .error e ∧ e.kind ≠ .bug := by
  cases h : (callWithout [⟨"J"⟩]).verify .core { maxVisits := some 10 } with
  | ok v =>
    have hfails : ((callWithout [⟨"J"⟩]).verify .core { maxVisits := some 10 }).isOk = false := by
      decide +kernel
    rw [h] at hfails
    cases hfails
  | error e =>
    refine ⟨e, rfl, Method.verify_ne_bug (a := ⟨(callWithout [⟨"J"⟩]).body⟩) rfl (by decide)
      ?_ rfl (by decide) h⟩
    intro ins hins method hmethod
    rcases List.mem_cons.1 hins with rfl | hins
    · cases hmethod
      decide
    · rw [List.mem_singleton.1 hins] at hmethod
      cases hmethod

-- a parameter without a value takes no register, and then has none
example : (callWithout [⟨"V"⟩]).verify .core { maxVisits := some 10 } =
    .error (.hard (.fault .noArgument) (some 1)) := by
  decide +kernel

end BytecodeVerifier
