import BytecodeVerifier.Proofs.Demands
import BytecodeVerifier.Proofs.Verified

/-!
# Registers along a path

Two things can be told of a register from the frames alone. Where it is not assigned on one of
several paths that meet, it is not assigned afterwards. And where it holds an object on which no
constructor has run, it has held the same one on all paths that meet (`Frame.Forgets`).

Such an object comes from the register itself, from the source of a move or from an allocation
(`Task.Provenance`), and so it is always an instance of a class, unless it is the receiver
(`Frame.Tracked`).
-/

namespace BytecodeVerifier

/-- The type of an object on which no constructor has run: a new object of some class, or the
    receiver of a constructor of `owner`. -/
def RegType.IsMarker (owner : Descriptor) (t : RegType) : Prop :=
  (∃ d allocation, d.isClass = true ∧ t = .uninitialized (.named d) allocation) ∨
    t = .uninitializedThis (.named owner)

namespace Frame

/-- What is known of all frames of a method that `owner` declares. -/
structure Tracked (owner : Descriptor) (shape : Nat × Nat) (f : Frame) : Prop where
  shape : f.shape = shape
  result : f.result.1.isUninitialized = false
  held {reg : Nat} {t : RegType} : f.get? reg = some t → t.isUninitialized = true →
    t.IsMarker owner

/-- The frame `e` promises no more of any register than `x` does. -/
structure Forgets (e x : Frame) : Prop where
  unassigned {reg : Nat} {t : RegType} : x.get? reg = some t → t.isAssigned = false →
    ∃ u, e.get? reg = some u ∧ u.isAssigned = false
  uninitialized {reg : Nat} {t : RegType} : e.get? reg = some t → t.isUninitialized = true →
    x.get? reg = some t

variable {p : ClassPool} {owner : Descriptor} {shape : Nat × Nat} {f g x : Frame} {reg : Nat}
  {t : RegType}

theorem Forgets.refl (f : Frame) : f.Forgets f := ⟨fun ht hno => ⟨_, ht, hno⟩, fun ht _ => ht⟩

/-- Only two registers with the same object have that object where they meet. -/
private theorem get?_of_merge (hshape : f.shape = g.shape) (ht : (f.merge p g).get? reg = some t)
    (huninit : t.isUninitialized = true) : f.get? reg = some t ∧ g.get? reg = some t := by
  obtain ⟨a, b, ha, hb, rfl⟩ := (get?_merge_eq_some_iff hshape).1 ht
  obtain rfl := RegType.eq_of_isUninitialized_merge huninit
  rw [RegType.merge, if_pos rfl]
  exact ⟨ha, hb⟩

private theorem unassigned_merge (hshape : f.shape = g.shape)
    (h : (∃ a, f.get? reg = some a ∧ a.isAssigned = false) ∨
      ∃ b, g.get? reg = some b ∧ b.isAssigned = false) :
    ∃ u, (f.merge p g).get? reg = some u ∧ u.isAssigned = false := by
  have hlt : reg < f.size ∧ reg < g.size := by
    have hsize := size_eq_of_shape hshape
    rcases h with ⟨a, ha, -⟩ | ⟨b, hb, -⟩
    · exact ⟨lt_size_of_get? ha, hsize ▸ lt_size_of_get? ha⟩
    · exact ⟨hsize ▸ lt_size_of_get? hb, lt_size_of_get? hb⟩
  obtain ⟨a, ha⟩ := exists_get?_of_lt_size hlt.1
  obtain ⟨b, hb⟩ := exists_get?_of_lt_size hlt.2
  refine ⟨a.merge p b, (get?_merge_eq_some_iff hshape).2 ⟨a, b, ha, hb, rfl⟩,
    RegType.isAssigned_merge ?_⟩
  simpa [ha, hb] using h

private theorem Tracked.merge (hf : f.Tracked owner shape) (hg : g.Tracked owner shape) :
    (f.merge p g).Tracked owner shape := by
  have hshape : f.shape = g.shape := hf.shape.trans hg.shape.symm
  refine ⟨(shape_merge p f g).trans hf.shape, Bool.eq_false_iff.2 fun huninit => ?_,
    fun ht huninit => hf.held (get?_of_merge hshape ht huninit).1 huninit⟩
  have heq := RegType.eq_of_isUninitialized_merge huninit
  change (f.result.1.merge p g.result.1).isUninitialized = true at huninit
  rw [RegType.merge, if_pos heq, hf.result] at huninit
  exact absurd huninit Bool.false_ne_true

end Frame

/-! ## Steps -/

namespace Task

/-- Where the object of type `t` comes from, on which no constructor has run and which register
    `reg` holds after the operation at position `pc`. -/
inductive Provenance (pc : Nat) (f : Frame) (reg : Nat) (t : RegType) : Option Operation → Prop
  | kept {op : Option Operation} : (∀ o, op = some o → reg ∉ o.writes) → f.get? reg = some t →
      Provenance pc f reg t op
  | copied {src : Nat} : f.get? src = some t → Provenance pc f reg t (some (.move .object reg src))
  | allocated {d : Descriptor} : d.isClass = true → t = .uninitialized (.named d) pc →
      Provenance pc f reg t (some (.newInstance reg d))

end Task

namespace Environment

variable {env : Environment} {pc reg : Nat} {o : Operation} {f f' : Frame} {t : RegType}

theorem Outcome.result (h : env.Outcome pc f o f') (hf : f.result.1.isUninitialized = false) :
    f'.result.1.isUninitialized = false := by
  have hassigns {f₀ : Frame} {ws : List Nat} {P : RegType → Prop} (h : f₀.Assigns ws P f')
      (hf₀ : f₀.result = f.result) : f'.result.1.isUninitialized = false := by
    rcases h.result with hsame | hcomputed
    · rw [hsame, hf₀, hf]
    · exact hcomputed.1.initialized
  cases h with
  | computes _ h => exact hassigns h rfl
  | copies _ h => exact hassigns h rfl
  | allocates _ h => exact hassigns h rfl
  | constructs _ h => exact hassigns h rfl

/-- A register that is not written stays unassigned. -/
theorem Outcome.unassigned (h : env.Outcome pc f o f') (hreg : reg ∉ o.writes)
    (ht : f.get? reg = some t) (hno : t.isAssigned = false) :
    ∃ u, f'.get? reg = some u ∧ u.isAssigned = false := by
  cases h with
  | computes _ h => exact ⟨t, (h.kept hreg).trans ht, hno⟩
  | copies hnarrow h =>
    rw [Operation.writes, hnarrow] at hreg
    exact ⟨t, (h.kept hreg).trans ht, hno⟩
  | @allocates dst d _ _ h =>
    refine ⟨_, (h.kept hreg).trans ((f.get?_mapRegisters _ reg).trans (congrArg _ ht)), ?_⟩
    dsimp only
    split
    · rfl
    · exact hno
  | @constructs _ u _ hconstructs h =>
    -- the constructor runs on an object, and not on this register
    have hother : t ≠ u := by
      rintro rfl
      obtain ⟨_, _, _, _, -, -, -, huninit⟩ := hconstructs
      cases t <;> simp [RegType.isUninitialized] at huninit <;>
        exact absurd hno.symm Bool.false_ne_true
    refine ⟨t, (h.kept List.not_mem_nil).trans ((f.get?_mapRegisters _ reg).trans ?_), hno⟩
    rw [ht, Option.map_some, if_neg hother]

/-- An uninitialized object after an operation was there before, or has just been allocated. -/
theorem Outcome.provenance (h : env.Outcome pc f o f') (hf : f.result.1.isUninitialized = false)
    (ht : f'.get? reg = some t) (huninit : t.isUninitialized = true) :
    Task.Provenance pc f reg t (some o) := by
  have hkept (hreg : reg ∉ o.writes) (ht : f.get? reg = some t) :
      Task.Provenance pc f reg t (some o) :=
    .kept (fun _ ho => Option.some.inj ho ▸ hreg) ht
  cases h with
  | computes _ h =>
    by_cases hreg : reg ∈ o.writes
    · have hresult := (h.written hreg ht).initialized huninit
      rw [hresult, hf] at huninit
      exact absurd huninit Bool.false_ne_true
    · exact hkept hreg ((h.kept hreg).symm.trans ht)
  | @copies form dst src _ hnarrow h =>
    by_cases hreg : reg ∈ [dst]
    · obtain ⟨hsrc, hobject⟩ := h.written hreg ht
      obtain rfl := hobject huninit
      obtain rfl := List.mem_singleton.1 hreg
      exact .copied hsrc
    · exact hkept (by rwa [Operation.writes, hnarrow]) ((h.kept hreg).symm.trans ht)
  | @allocates dst d _ hclass h =>
    by_cases hreg : reg ∈ [dst]
    · obtain rfl := List.mem_singleton.1 hreg
      exact .allocated hclass (h.written (by simp) ht)
    -- what was marked before is in conflict now
    · rw [h.kept hreg, Frame.invalidate, f.get?_mapRegisters] at ht
      obtain ⟨u, hu, rfl⟩ := Option.map_eq_some_iff.1 ht
      split at huninit
      · exact absurd huninit Bool.false_ne_true
      · rename_i hne
        exact hkept hreg (by rwa [if_neg hne])
  | @constructs _ u _ hconstructs h =>
    obtain ⟨_, _, _, _, rfl, -, -, -⟩ := hconstructs
    rw [h.kept List.not_mem_nil] at ht
    change (f.mapRegisters _).get? reg = some t at ht
    rw [f.get?_mapRegisters] at ht
    obtain ⟨u', hu', rfl⟩ := Option.map_eq_some_iff.1 ht
    split at huninit
    · rw [(RegType.isComputed_initialized _ _).initialized] at huninit
      exact absurd huninit Bool.false_ne_true
    · rename_i hne
      exact hkept List.not_mem_nil (by rwa [if_neg hne])

end Environment

namespace Task

variable {task : Task} {owner : Descriptor} {shape : Nat × Nat} {f g : Frame} {i reg : Nat}
  {t : RegType} {o : Operation}

/-- An operation finds the registers of the frame before it. Whether it finds the value left behind
    does not matter for objects on which no constructor has run. -/
private theorem after_entered (h : task.after i f = .ok g) :
    task.operation? i = none ∧ g = f ∨ ∃ o f₀, task.operation? i = some o ∧ f₀.get? = f.get? ∧
      (f.result.1.isUninitialized = false → f₀.result.1.isUninitialized = false) ∧
      (task.env.transfer i o f₀).Yields g := by
  rcases after_yields h with hnone | ⟨o, ho, hyields⟩
  · exact .inl hnone
  · refine .inr ⟨o, _, ho, ?_, fun hf => ?_, hyields⟩
    · exact o.get?_meets f
    · rw [o.result_meets]
      split
      · exact hf
      · rfl

/-- A register that the operation does not write stays unassigned. -/
theorem after_unassigned (h : task.after i f = .ok g)
    (hreg : ∀ o, task.operation? i = some o → reg ∉ o.writes) (ht : f.get? reg = some t)
    (hno : t.isAssigned = false) : ∃ u, g.get? reg = some u ∧ u.isAssigned = false := by
  rcases after_entered h with ⟨-, rfl⟩ | ⟨o, f₀, ho, hget, -, hyields⟩
  · exact ⟨t, ht, hno⟩
  · exact (task.env.transfer_outcome hyields).unassigned (hreg o ho) (hget ▸ ht) hno

private theorem Provenance.congr {f₀ : Frame} {op : Option Operation} (hget : f₀.get? = f.get?)
    (h : Provenance i f₀ reg t op) : Provenance i f reg t op := by
  cases h with
  | kept hreg ht => exact .kept hreg (hget ▸ ht)
  | copied ht => exact .copied (hget ▸ ht)
  | allocated hclass ht => exact .allocated hclass ht

theorem after_provenance (hf : f.result.1.isUninitialized = false) (h : task.after i f = .ok g)
    (ht : g.get? reg = some t) (huninit : t.isUninitialized = true) :
    Provenance i f reg t (task.operation? i) := by
  rcases after_entered h with ⟨hnone, rfl⟩ | ⟨o, f₀, ho, hget, hresult, hyields⟩
  · exact .kept (by simp [hnone]) ht
  · rw [ho]
    exact ((task.env.transfer_outcome hyields).provenance (hresult hf) ht huninit).congr hget

private theorem after_tracked (hf : f.Tracked owner shape) (h : task.after i f = .ok g) :
    g.Tracked owner shape := by
  refine ⟨(after_shape h).trans hf.shape, ?_, fun ht huninit => ?_⟩
  · rcases after_entered h with ⟨-, rfl⟩ | ⟨o, f₀, -, -, hresult, hyields⟩
    · exact hf.result
    · exact (task.env.transfer_outcome hyields).result (hresult hf.result)
  · have hprovenance := after_provenance hf.result h ht huninit
    generalize task.operation? i = op at hprovenance
    cases hprovenance with
    | kept _ ht => exact hf.held ht huninit
    | copied ht => exact hf.held ht huninit
    | allocated hclass ht => exact .inl ⟨_, _, hclass, ht⟩

/-- An operation that is passed can do what it reads its registers for. -/
theorem after_accepts (h : task.after i f = .ok g) (ho : task.operation? i = some o) :
    ∀ u ∈ o.uses, task.env.Accepts f o u := by
  rcases after_entered h with ⟨hnone, -⟩ | ⟨o', f₀, ho', hget, -, hyields⟩
  · exact nomatch hnone.symm.trans ho
  · cases ho.symm.trans ho'
    exact fun u hu => (task.env.transfer_accepts hyields u hu).congr hget

/-- A call changes only registers that hold the same uninitialized object as its receiver. -/
theorem after_marks {kind : InvokeKind} {form : ArgumentForm} {args : List Nat}
    {method : MethodRef} {receiver : Nat} (h : task.after i f = .ok g)
    (ho : task.operation? i = some (.invoke kind form (receiver :: args) method))
    (hchanged : g.get? reg ≠ f.get? reg) :
    ∃ t, f.get? receiver = some t ∧ f.get? reg = some t ∧ t.isUninitialized = true := by
  rcases after_entered h with ⟨hnone, -⟩ | ⟨o, f₀, ho', hget, -, hyields⟩
  · exact nomatch hnone.symm.trans ho
  cases ho.symm.trans ho'
  rw [← hget] at hchanged ⊢
  cases task.env.transfer_outcome hyields with
  | computes _ h => exact absurd (h.kept List.not_mem_nil) hchanged
  | @constructs _ t _ hconstructs h =>
    obtain ⟨_, _, _, _, heq, -, hreceiver, huninit⟩ := hconstructs
    cases heq
    refine ⟨t, hreceiver, by_contra fun hother => hchanged ?_, huninit⟩
    rw [h.kept List.not_mem_nil]
    change (f₀.mapRegisters _).get? reg = f₀.get? reg
    rw [f₀.get?_mapRegisters]
    cases hreg : f₀.get? reg with
    | none => rfl
    | some u =>
      have hne : u ≠ t := fun heq => hother (heq ▸ hreg)
      rw [Option.map_some, if_neg hne]

theorem domain_tracked (task : Task) (owner : Descriptor) (shape : Nat × Nat) :
    task.Domain (Frame.Tracked owner shape) Frame.Forgets where
  clearResult hf := ⟨hf.shape, rfl, hf.held⟩
  after := after_tracked
  merge := Frame.Tracked.merge
  refl := Frame.Forgets.refl
  right hf hg :=
    have hshape := hf.shape.trans hg.shape.symm
    ⟨fun ht hno => Frame.unassigned_merge hshape (.inr ⟨_, ht, hno⟩),
      fun ht huninit => (Frame.get?_of_merge hshape ht huninit).2⟩
  left hf hg _ h :=
    have hshape := hf.shape.trans hg.shape.symm
    ⟨fun ht hno => Frame.unassigned_merge hshape (.inl (h.unassigned ht hno)),
      fun ht huninit => h.uninitialized (Frame.get?_of_merge hshape ht huninit).1 huninit⟩

end Task

/-! ## Verified methods -/

namespace Method

variable {p : ClassPool} {config : Config} {m : Method} {v : VerifiedMethod} {task : Task}
  {entry : Frame} {reg : Nat} {t : RegType}

/-- On entry only a constructor has an object on which no constructor has run, and that is its
    receiver. -/
theorem Verified.entry_uninitialized (hv : m.Verified p config v task entry)
    (ht : entry.get? reg = some t) (huninit : t.isUninitialized = true) :
    reg = m.locals ∧ m.entersUninitialized = true ∧ t = .uninitializedThis (.named m.owner) := by
  rcases (entryFrame_get? hv.entry_eq ht).2 with hcomputed | ⟨hreg, henters, rfl⟩
  · rw [hcomputed.initialized] at huninit
    exact absurd huninit Bool.false_ne_true
  · refine ⟨hreg, henters, ?_⟩
    unfold classType RegType.ofReference at huninit ⊢
    split at huninit
    · exact absurd huninit Bool.false_ne_true
    · rename_i href
      rw [if_neg href]
      split <;> rfl

/-- The frames of a verified method are tracked, and none of them promises more than execution
    brings along. -/
theorem Verified.tracked (hv : m.Verified p config v task entry) :
    task.Closed v.body (Frame.Tracked m.owner (m.locals, m.ins)) Frame.Forgets entry v.frame? := by
  refine hv.closed (task.domain_tracked m.owner _) ⟨entryFrame_shape hv.entry_eq,
    (entryFrame_result hv.entry_eq).initialized, fun ht huninit => .inr ?_⟩
  exact (hv.entry_uninitialized ht huninit).2.2

end Method

end BytecodeVerifier
