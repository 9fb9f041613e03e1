import BytecodeVerifier.Proofs.Ancestry
import BytecodeVerifier.Proofs.Silence

/-!
# The targets of constructor calls

A constructor call names a class, and what it runs is found from that class on up the hierarchy. In
a method that is verified without a warning the class that is named is that of the object, or for
the receiver of a constructor also the direct superclass, and the search succeeds
(`Method.constructor_call_target`).

The constructor need not be one of the class that is named. If that declares none with the
prototype, the search goes on among the ancestors as for any other method, and so the receiver can
be initialized by the constructor of the root class, past the direct superclass
(`derivedConstructor_skips_base`).
-/

namespace BytecodeVerifier

/-! ## Where a method is found -/

namespace ClassPool

open Relation (TransGen)

variable {p : ClassPool} {a i : Descriptor} {c : ClassDef} {name : String} {proto : Prototype}
  {found : MethodDef}

/-- The method is the one that the class `a` declares, or that of an ancestor if `a` declares
    none. -/
def Provides (p : ClassPool) (a : Descriptor) (name : String) (proto : Prototype)
    (found : MethodDef) : Prop :=
  ∃ c, p.find? a = some c ∧ (c.method? name proto = some found ∨
    c.method? name proto = none ∧ ∃ d, p.find? d.desc = some d ∧ p.Ancestor a d.desc ∧
      d.method? name proto = some found)

theorem Provides.spec (h : p.Provides a name proto found) :
    found.name = name ∧ found.proto = proto := by
  have hspec {d : ClassDef} (hd : d.method? name proto = some found) :
      found.name = name ∧ found.proto = proto := by
    simpa using List.find?_some hd
  obtain ⟨c, -, hown | ⟨-, d, -, -, hd⟩⟩ := h
  · exact hspec hown
  · exact hspec hd

private theorem resolveInterfaceMethod_eq_some
    (h : p.resolveInterfaceMethod i name proto = some found) :
    ∃ d, p.find? d.desc = some d ∧ (i = d.desc ∨ p.Ancestor i d.desc) ∧
      d.method? name proto = some found := by
  obtain ⟨e, he, hsome⟩ := List.exists_of_findSome?_eq_some h
  obtain ⟨d, hfind, hmethod⟩ := Option.bind_eq_some_iff.1 hsome
  obtain rfl := (find?_spec hfind).2
  refine ⟨d, hfind, ?_, hmethod⟩
  obtain ⟨rest, hreach, hrest⟩ := reach_eq_cons p ClassDef.interfaces i
  rcases List.mem_cons.1 (hreach ▸ he) with heq | he
  · exact .inl heq.symm
  · -- the interfaces of a class are among its parents
    refine .inr (TransGen.mono (fun x y hlink => ?_) _ _ (hrest _ he))
    obtain ⟨c, hc, hy⟩ := hlink
    exact ⟨c, hc, List.mem_append_right _ hy⟩

private theorem ancestor_of_mem_chain {n : Nat} {e : ClassDef} (he : e ∈ p.chain n a)
    (hi : i ∈ e.interfaces) : p.Ancestor a i := by
  obtain ⟨hfind, he⟩ := mem_chain he
  have hlink : p.Ancestor e.desc i := .single ⟨e, hfind, List.mem_append_right _ hi⟩
  rcases he with rfl | he
  · exact hlink
  · exact he.trans hlink

private theorem chain_eq_cons (hfind : p.find? a = some c) (n : Nat) :
    ∃ rest, p.chain (n + 1) a = c :: rest := by
  rw [chain, hfind]
  cases hsuper : c.superclass with
  | none => exact ⟨[], by simp [hsuper]⟩
  | some s => exact ⟨p.chain n s, by simp [hsuper]⟩

/-- A method is found in the class itself, or else among its ancestors. -/
theorem provides_of_resolveClassMethod (hfind : p.find? a = some c)
    (h : p.resolveClassMethod a name proto = some found) : p.Provides a name proto found := by
  refine ⟨c, hfind, ?_⟩
  have hself {d : ClassDef} (hd : p.find? d.desc = some d) (ha : a = d.desc) : c = d :=
    Option.some.inj (hfind.symm.trans (ha ▸ hd))
  cases hown : c.method? name proto with
  | some own =>
    obtain ⟨rest, hchain⟩ := chain_eq_cons hfind 255
    unfold resolveClassMethod superclasses walkLimit at h
    rw [hchain] at h
    simpa [hown] using h
  | none =>
    refine .inr ⟨rfl, ?_⟩
    rcases Option.or_eq_some_iff.1 h with h | ⟨-, h⟩
    · obtain ⟨d, hd, hmethod⟩ := List.exists_of_findSome?_eq_some h
      obtain ⟨hd, heq | hancestor⟩ := mem_chain hd
      · rw [← hself hd heq, hown] at hmethod
        cases hmethod
      · exact ⟨d, hd, hancestor, hmethod⟩
    · obtain ⟨i, hi, h⟩ := List.exists_of_findSome?_eq_some h
      obtain ⟨e, he, hi⟩ := List.mem_flatMap.1 hi
      have hancestor := ancestor_of_mem_chain he hi
      obtain ⟨d, hd, rfl | hi, hmethod⟩ := resolveInterfaceMethod_eq_some h
      · exact ⟨d, hd, hancestor, hmethod⟩
      · exact ⟨d, hd, hancestor.trans hi, hmethod⟩

end ClassPool

/-- A class whose constructors may run on an uninitialized object of type `t`, in a method of class
    `here`: that of the object, and for the receiver of a constructor also the direct superclass. -/
def ClassPool.MayConstruct (p : ClassPool) (here owner : Descriptor) (t : RegType) : Prop :=
  if t.isUninitializedThis then
    ∃ c, p.find? here = some c ∧ (owner = here ∨ c.superclass = some owner)
  else t.descriptor? = some owner

/-! ## Calls without a warning -/

/-- The class where the search for a method begins. Arrays have the methods of the root class. -/
def MethodRef.searched (method : MethodRef) : Descriptor :=
  if method.owner.isArray then .object else method.owner

namespace Environment

open ReportT

variable {env : Environment} {f g : Frame} {kind : InvokeKind} {op : Opcode} {form : ArgumentForm}
  {reg : Nat} {args : List Nat} {method : MethodRef} {t : RegType}

/-- A call that passes finds a method of its kind. -/
private theorem exists_of_passes_resolveCall {u : Unit}
    (h : (env.resolveCall kind op method).Passes u) : ∃ c found,
      env.pool.find? method.searched = some c ∧ env.pool.resolveMethod method.searched method.name
        method.proto kind.search = some found ∧ kind.suits found = true := by
  unfold resolveCall at h
  unfold MethodRef.searched
  generalize (if method.owner.isArray = true then Descriptor.object else method.owner) = start
    at h ⊢
  dsimp only at h
  cases hfind : env.pool.find? start with
  | none =>
    rw [hfind] at h
    exact absurd h not_passes_flag
  | some c =>
    rw [hfind] at h
    obtain ⟨-, h⟩ := h.guard
    obtain ⟨-, h⟩ := h.guard
    cases hfound : env.pool.resolveMethod start method.name method.proto kind.search with
    | none =>
      rw [hfound] at h
      exact absurd h not_passes_flag
    | some found =>
      rw [hfound] at h
      exact ⟨c, found, rfl, rfl, by simpa using h.guard.1⟩

private theorem mayConstruct_of_passes_checkConstructed {x : Option RegType}
    (huninit : t.isUninitialized = true) (h : (env.checkConstructed method t).Passes x) :
    env.pool.MayConstruct env.method.owner method.owner t := by
  have hzero : t.isZero = false := by
    cases t <;> first | rfl | exact absurd huninit Bool.false_ne_true
  unfold checkConstructed at h
  dsimp only at h
  rw [if_neg (by simp [hzero])] at h
  obtain ⟨-, h⟩ := h.guard
  unfold ClassPool.MayConstruct
  by_cases hthis : t.isUninitializedThis = true
  · rw [if_pos hthis] at h ⊢
    cases hfind : env.pool.find? env.method.owner with
    | none =>
      rw [hfind] at h
      obtain ⟨u, hflag, -⟩ := h.bind
      exact absurd hflag not_passes_flag
    | some c =>
      rw [hfind] at h
      have htarget := h.guard.1
      exact ⟨c, rfl, by simpa [Classical.or_iff_not_imp_left] using htarget⟩
  · rw [if_neg hthis] at h ⊢
    simpa using h.guard.1

private theorem mayConstruct_of_passes_checkReceiver {x : Option RegType}
    (hconstructor : method.isConstructor = true) (ht : f.get? reg = some t)
    (huninit : t.isUninitialized = true) (h : (env.checkReceiver op method reg f).Passes x) :
    env.pool.MayConstruct env.method.owner method.owner t := by
  unfold checkReceiver at h
  obtain ⟨t', hread, h⟩ := h.bind
  cases ht.symm.trans (Frame.read_eq_ok.1 (yields_ofFrame.1 hread.yields))
  obtain ⟨-, h⟩ := h.guard
  rw [if_pos hconstructor] at h
  exact mayConstruct_of_passes_checkConstructed huninit h

/-- The look-up and the check of the receiver are parts of a call. -/
private theorem passes_of_passes_invoke (hkind : kind ≠ .static)
    (h : (env.invoke kind form (reg :: args) method f).Passes g) :
    (∃ u, (env.resolveCall kind (.invoke kind form) method).Passes u) ∧
      ∃ x, (env.checkReceiver (.invoke kind form) method reg f).Passes x := by
  unfold invoke at h
  obtain ⟨-, -, h⟩ := h.bind
  obtain ⟨u, hresolve, h⟩ := h.bind
  obtain ⟨_, hregisters, -⟩ := h.bind
  unfold checkRegisters at hregisters
  obtain ⟨-, hregisters⟩ := hregisters.guard
  rw [if_neg hkind] at hregisters
  obtain ⟨x, hreceiver, -⟩ := hregisters.bind
  exact ⟨⟨u, hresolve⟩, x, hreceiver⟩

/-- A constructor call that passes names a class whose constructors may run on the object, and finds
    a constructor there or among the ancestors. -/
private theorem target_of_passes_invoke (hconstructor : method.isConstructor = true)
    (ht : f.get? reg = some t) (huninit : t.isUninitialized = true)
    (h : (env.invoke .direct form (reg :: args) method f).Passes g) :
    env.pool.MayConstruct env.method.owner method.owner t ∧ ∃ found,
      env.pool.resolveMethod method.searched method.name method.proto .direct = some found ∧
      found.name = constructorName ∧ found.flags.has .static = false ∧
      env.pool.Provides method.searched method.name method.proto found := by
  obtain ⟨⟨u, hresolve⟩, x, hreceiver⟩ := passes_of_passes_invoke (by simp) h
  obtain ⟨c, found, hfind, hfound, hsuits⟩ := exists_of_passes_resolveCall hresolve
  have hprovides := ClassPool.provides_of_resolveClassMethod hfind hfound
  have hname : method.name = constructorName := by
    simpa [MethodRef.isConstructor] using hconstructor
  have hstatic : found.flags.has .static = false := by
    simp only [InvokeKind.suits, Bool.and_eq_true, Bool.not_eq_true'] at hsuits
    exact hsuits.2
  exact ⟨mayConstruct_of_passes_checkReceiver hconstructor ht huninit hreceiver, found, hfound,
    hprovides.spec.1.trans hname, hstatic, hprovides⟩

end Environment

/-- In a method that is verified without a warning, a constructor call on an uninitialized object
    names a class whose constructors may run on the object. It finds the constructor of that class,
    or one of an ancestor if the class declares none with that prototype. -/
theorem Method.constructor_call_target {p : ClassPool} {config : Config} {m : Method}
    {v : VerifiedMethod} (h : m.verify p config = .ok v) (hflags : v.flags = []) :
    m.body.normalize = .ok v.body ∧ ∃ task, m.task p config v.body = .ok task ∧
      ∀ i form reg regs method f t,
        v.body.code[i]? = some (.withConstant (.invoke .direct form) (reg :: regs)
          (.method method)) → method.isConstructor = true →
        task.FrameAt v.body v.frame? i f → f.get? reg.toNat = some t → t.isUninitialized = true →
        p.MayConstruct m.owner method.owner t ∧ ∃ found,
          p.resolveMethod method.searched method.name method.proto .direct = some found ∧
          found.name = constructorName ∧ found.flags.has .static = false ∧
          p.Provides method.searched method.name method.proto found := by
  obtain ⟨task, entry, hv⟩ := verified_of_verify h
  refine ⟨hv.normal, task, hv.task_eq, fun i form reg regs method f t hins hconstructor hf ht
    huninit => ?_⟩
  have ho : task.operation? i = some (.invoke .direct form
      ((reg :: regs).map UInt16.toNat) method) := by
    rw [hv.models.operation, hins]
    rfl
  obtain ⟨g, hg⟩ := passes_of_verify h hflags hv hf ho
  have htarget :=
    Environment.target_of_passes_invoke (f := f.clearResult) hconstructor ht huninit hg
  rwa [hv.pool, hv.method] at htarget

/-! ## A class and its superclass -/

/-- Names the constructor of `A` without parameters. -/
def baseConstructor : MethodRef :=
  { owner := ⟨"LA;"⟩, name := constructorName, proto := { params := [], ret := ⟨"V"⟩ } }

/-- The constructor of `B` runs that of `A`. -/
def derivedConstructor : Method where
  owner := ⟨"LB;"⟩
  name := constructorName
  proto := { params := [], ret := ⟨"V"⟩ }
  flags := .ofModifiers [.publicAccess]
  locals := 0
  ins := 1
  body :=
    { code := [.withConstant (.invoke .direct .list) [0] (.method baseConstructor),
        .plain .returnVoid []] }

/-- The class `B` extends `A`, which extends the root class and declares these methods. -/
def derivedPool (methods : List MethodDef) : ClassPool :=
  (ClassPool.core.insert { desc := ⟨"LA;"⟩, superclass := some .object, methods }).insert
    { desc := ⟨"LB;"⟩, superclass := some ⟨"LA;"⟩ }

/-- The constructor that `A` declares. -/
def declaredConstructor : MethodDef :=
  { owner := ⟨"LA;"⟩, name := constructorName, proto := baseConstructor.proto
    flags := .ofModifiers [.publicAccess, .initializer] }

/-- Behind a label mark the frame is the same. -/
private theorem Task.FrameAt.behind_mark {task : Task} {b : Body} {store : Nat → Option Frame}
    {i : Nat} {f : Frame} {l : Label} (hf : task.FrameAt b store i f) (hm : task.Models b)
    (hl : b.Marks i l) (hno : ¬b.IsTarget (i + 1)) : task.FrameAt b store (i + 1) f := by
  refine .passed hf hl.edge_next hno ?_
  unfold Task.after
  rw [hm.operation, hl]
  rfl

/-- What can be read off the outcome: there is no warning, the call stands behind the label at the
    entry, and there the receiver is not initialized. -/
private theorem derivedConstructor_reaches_call {p : ClassPool} {t : RegType} {l : Label}
    (h : (derivedConstructor.verify p {}).map (fun v =>
        (v.flags, v.body.code[0]?, v.body.code[1]?, (v.frame? 0).bind (·.get? 0))) =
      .ok ([], some (.label l), derivedConstructor.body.code[0]?, some t)) :
    ∃ v task f, derivedConstructor.verify p {} = .ok v ∧ v.flags = [] ∧
      derivedConstructor.task p {} v.body = .ok task ∧
      v.body.code[1]? = derivedConstructor.body.code[0]? ∧
      task.FrameAt v.body v.frame? 1 f ∧ f.get? 0 = some t := by
  cases hverify : derivedConstructor.verify p {} with
  | error e =>
    rw [hverify] at h
    cases h
  | ok v =>
    rw [hverify] at h
    simp only [Except.map, Except.ok.injEq, Prod.mk.injEq] at h
    obtain ⟨hflags, hl, hcall, hframe⟩ := h
    obtain ⟨f, hf, ht⟩ := Option.bind_eq_some_iff.1 hframe
    obtain ⟨task, entry, hv⟩ := Method.verified_of_verify hverify
    have hno : ¬v.body.IsTarget 1 := by
      intro htarget
      obtain ⟨l', hl'⟩ := htarget.marks hv.models.labeled
      cases hl'.symm.trans hcall
    have hentry : task.FrameAt v.body v.frame? 0 f := .stored (.inl rfl) hf
    exact ⟨v, task, f, rfl, hflags, hv.task_eq, hcall, hentry.behind_mark hv.models hl hno, ht⟩

/-- The constructor that `A` declares initializes the receiver. -/
theorem derivedConstructor_call_target :
    ∃ v task f t, derivedConstructor.verify (derivedPool [declaredConstructor]) {} = .ok v ∧
      v.flags = [] ∧
      derivedConstructor.task (derivedPool [declaredConstructor]) {} v.body = .ok task ∧
      task.FrameAt v.body v.frame? 1 f ∧ f.get? 0 = some t ∧ t.isUninitialized = true ∧
      (derivedPool [declaredConstructor]).MayConstruct ⟨"LB;"⟩ ⟨"LA;"⟩ t ∧
      (derivedPool [declaredConstructor]).Provides ⟨"LA;"⟩ constructorName baseConstructor.proto
        declaredConstructor := by
  obtain ⟨v, task, f, h, hflags, htask, hcall, hf, ht⟩ := derivedConstructor_reaches_call
    (p := derivedPool [declaredConstructor]) (t := .uninitializedThis (.named ⟨"LB;"⟩)) (l := ⟨0⟩)
    (by decide +kernel)
  obtain ⟨-, task', htask', htarget⟩ := Method.constructor_call_target h hflags
  cases htask.symm.trans htask'
  obtain ⟨hmay, found, hfound, -, -, hprovides⟩ :=
    htarget 1 .list 0 [] baseConstructor f _ hcall (by decide +kernel) hf ht rfl
  obtain rfl : declaredConstructor = found := Option.some.inj (.trans (by decide +kernel) hfound)
  exact ⟨v, task, f, _, h, hflags, htask, hf, ht, rfl, hmay, hprovides⟩

/-- If `A` declares no constructor, that of the root class initializes the receiver, although `A` is
    the direct superclass and the one that is named. -/
theorem derivedConstructor_skips_base :
    ∃ v task f, derivedConstructor.verify (derivedPool []) {} = .ok v ∧ v.flags = [] ∧
      derivedConstructor.task (derivedPool []) {} v.body = .ok task ∧
      v.body.code[1]? =
        some (.withConstant (.invoke .direct .list) [0] (.method baseConstructor)) ∧
      task.FrameAt v.body v.frame? 1 f ∧ f.get? 0 = some (.uninitializedThis (.named ⟨"LB;"⟩)) ∧
      ∃ found, (derivedPool []).resolveMethod ⟨"LA;"⟩ constructorName baseConstructor.proto
          .direct = some found ∧ found.owner = .object ∧
        ((derivedPool []).find? ⟨"LA;"⟩).map ClassDef.methods = some [] := by
  obtain ⟨v, task, f, h, hflags, htask, hcall, hf, ht⟩ := derivedConstructor_reaches_call
    (p := derivedPool []) (t := .uninitializedThis (.named ⟨"LB;"⟩)) (l := ⟨0⟩) (by decide +kernel)
  have hfound : ((derivedPool []).resolveMethod ⟨"LA;"⟩ constructorName baseConstructor.proto
      .direct).map MethodDef.owner = some .object := by
    decide +kernel
  obtain ⟨found, hfound, howner⟩ := Option.map_eq_some_iff.1 hfound
  exact ⟨v, task, f, h, hflags, htask, hcall, hf, ht, found, hfound, howner, by decide +kernel⟩

end BytecodeVerifier
