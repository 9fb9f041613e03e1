import BytecodeVerifier.Proofs.Demands
import BytecodeVerifier.Proofs.Objections
import BytecodeVerifier.Proofs.RegisterAccess

/-!
# What operations object to

`Environment.MayRaise` lists everything for which an operation can be rejected and everything that
it can warn about, and `Environment.raises_transfer` shows that there is nothing else. An operation
is rejected by one of its checks; or for a register that the frame does not have; or because no
value has been left behind for it; or by a fault of the verifier, which takes a position without a
site, a position that is too large for a mark, or a call whose parameters end in some without a value
(`trailsOff`). A warning is about the operand that the operation names and about types in the frame
(`Environment.Warns`).

What one part of an operation objects to is said for any `P` that holds of it. The parts are then
put together with the same `P`.
-/

namespace BytecodeVerifier

/-- The violation comes of an access to a frame or of a look-up, and not of a check. -/
def Violation.isInternal : Violation → Bool
  | .frame _ | .fault _ => true
  | _ => false

namespace ReportT

variable {α σ : Type}

/-- A list is mapped to one of the same length. -/
theorem ensures_length_mapM {f : σ → Report α} (l : List σ) :
    (l.mapM f).Ensures fun as => as.length = l.length := by
  induction l with
  | nil => exact ensures_pure.2 rfl
  | cons x l ih =>
    rw [List.mapM_cons]
    exact .bind fun a _ => .bind fun as has => ensures_pure.2 (congrArg (· + 1) (ih as has))

end ReportT

/-- A position of the code has a site. -/
theorem Layout.exists_site {lay : Layout} {i : Nat} (h : i < lay.size) :
    ∃ s, lay.site i = .ok s := by
  unfold site
  rw [Array.getElem?_eq_getElem h]
  exact ⟨_, rfl⟩

/-- Only `V` is the descriptor of no value. -/
theorem Descriptor.isVoid_eq_false {d : Descriptor} (h : d ≠ ⟨"V"⟩) : d.isVoid = false := by
  rw [isVoid, beq_eq_false_iff_ne]
  intro hkind
  unfold kind? at hkind
  split at hkind
  · exact absurd (arrayKind?_eq_some_iff.1 hkind).1 (by simp)
  · unfold elementKind? at hkind
    split at hkind
    · split at hkind <;> cases hkind
    · rename_i hchars
      exact h (chars_inj hchars)
    · obtain ⟨t, -, ht⟩ := Option.map_eq_some_iff.1 hkind
      cases ht
    · cases hkind

/-- Every parameter takes registers, if it is one of a value. -/
theorem Descriptor.slots_pos {d : Descriptor} (h : d.isVoid = false) : 0 < d.slots := by
  unfold slots
  unfold isVoid at h
  cases hkind : d.kind? with
  | none => exact Nat.one_pos
  | some kind =>
    cases kind with
    | void => simp [hkind] at h
    | primitive t =>
      simp only [Option.map_some, Option.getD_some, DescriptorKind.slots]
      split <;> simp
    | classType | arrayType => exact Nat.one_pos

/-! ## Parameters that find their arguments -/

/-- The parameters end in some without a value, and all those before have one. Such a parameter
    takes no register, so that there is none left when its turn comes. -/
def trailsOff (params : List Descriptor) : Bool :=
  let rest := params.dropWhile Descriptor.isValue
  !rest.isEmpty && rest.all Descriptor.isVoid

theorem trailsOff_cons {d : Descriptor} (h : d.isValue = true) (params : List Descriptor) :
    trailsOff (d :: params) = trailsOff params := by
  simp [trailsOff, h]

/-- Where every parameter has a value, nothing trails off. -/
theorem trailsOff_eq_false {params : List Descriptor} (h : ∀ d ∈ params, d.isVoid = false) :
    trailsOff params = false := by
  unfold trailsOff
  cases hrest : params.dropWhile Descriptor.isValue with
  | nil => rfl
  | cons d rest =>
    have hd : d ∈ params := (List.dropWhile_sublist _).subset (hrest ▸ List.mem_cons_self)
    simp [h d hd]

/-- Behind a parameter that is none there is one that takes a register, or it is one itself. -/
theorem slots_pos_of_trailsOff {d : Descriptor} {params : List Descriptor}
    (hd : d.isValue = false) (h : trailsOff (d :: params) = false) :
    0 < (d :: params).foldr (fun d n => d.slots + n) 0 := by
  unfold trailsOff at h
  rw [List.dropWhile_cons_of_neg (by simp [hd])] at h
  simp only [List.isEmpty_cons, Bool.not_false, Bool.true_and, List.all_eq_false,
    Bool.not_eq_true] at h
  obtain ⟨d', hmem, hvoid⟩ := h
  have hpos := Descriptor.slots_pos hvoid
  generalize d :: params = ds at hmem
  induction ds with
  | nil => simp at hmem
  | cons e ds ih =>
    rw [List.foldr_cons]
    rcases List.mem_cons.1 hmem with rfl | hmem
    · omega
    · have := ih hmem
      omega

/-- If the operation is a call, its parameters do not trail off. -/
def Operation.FindsArguments (o : Operation) : Prop :=
  ∀ kind form args method, o = .invoke kind form args method →
    trailsOff method.proto.params = false

/-! ## Types in warnings -/

namespace RegType

/-- An object of a class or an array type whose descriptor is well formed. -/
inductive IsDeclared : RegType → Prop
  | known {d : Descriptor} : d.isReference = true → (precise : Bool) →
      IsDeclared (.reference (.named d) precise)
  | unknown {d : Descriptor} : d.isReference = true → IsDeclared (.unresolved (.named d))

variable {p : ClassPool} {d : Descriptor} {t u : RegType}

theorem isReference_of_isNonNullReference (h : t.isNonNullReference = true) :
    t.isReference = true := by
  rw [isReference, h, Bool.or_true]

theorem isDeclared_ofReference {precise : Bool} (h : (ofReference p d precise).isReference = true) :
    (ofReference p d precise).IsDeclared := by
  unfold ofReference at h ⊢
  split at h
  · exact nomatch h
  · rename_i hd
    rw [if_neg hd]
    have hd : d.isReference = true := by simpa using hd
    split
    · exact .known hd precise
    · exact .unknown hd

theorem isDeclared_ofDescriptor (h : (ofDescriptor p d false).isReference = true) :
    (ofDescriptor p d false).IsDeclared := by
  unfold ofDescriptor at h ⊢
  split at h
  · exact nomatch h
  · exact nomatch h
  · rename_i t _
    cases t <;> exact nomatch h
  · exact isDeclared_ofReference h
  · exact isDeclared_ofReference h

/-- An array whose elements are references, and the type of its elements. -/
theorem isDeclared_of_component (h : (t.component p).isReference = true) :
    t.IsDeclared ∧ (t.component p).IsDeclared := by
  have harray {d c : Descriptor} (hd : d.component? = some c) : d.isReference = true :=
    Descriptor.isReference_iff.2 (.inr (Descriptor.component?_eq_some_iff.1 hd).1)
  unfold component at h ⊢
  split at h
  · split at h
    · rename_i hd
      exact ⟨.known (harray hd) _, isDeclared_ofDescriptor h⟩
    · exact nomatch h
  · split at h
    · rename_i hd
      exact ⟨.unknown (harray hd), isDeclared_ofDescriptor h⟩
    · exact nomatch h
  · exact nomatch h

/-- Null can be used wherever an object can. -/
theorem IsDeclared.isAssignable_of_isZero (ht : t.IsDeclared) (hu : u.isZero = true) :
    t.isAssignable p u = true := by
  unfold isAssignable
  split
  · rfl
  · cases ht <;> exact if_pos hu

end RegType

/-- The frame holds an initialized object of type `t` that is not known to be null. -/
structure Frame.HoldsObject (f : Frame) (t : RegType) : Prop where
  mem : t ∈ f.types
  nonNull : t.isNonNullReference = true
  initialized : t.isUninitialized = false

namespace Environment

/-- The warnings that the visit of a position may raise, given the operation there; a label mark has
    none. The types that warnings mention beside those of descriptors satisfy `Q`. -/
inductive Warns (env : Environment) (Q : RegType → Prop) : Option Operation → Warning → Prop
  | monitorMismatch {o : Option Operation} (incoming held target : Nat) :
      Warns env Q o (.monitorMismatch incoming held target)
  | monitorsHeld {o : Option Operation} (count : Nat) : Warns env Q o (.monitorsHeld count)
  | noMonitor {o : Option Operation} : Warns env Q o .noMonitor
  | typeMismatch {o : Option Operation} {reg : Nat} {actual expected : RegType} :
      Q actual → expected.IsDeclared → Warns env Q o (.typeMismatch reg actual expected)
  | unknownClass {dst : Nat} {d : Descriptor} :
      Warns env Q (some (.newInstance dst d)) (.unknownClass d)
  | unresolvedArray {access : Access} {form : ElementForm} {value array index : Nat} :
      Warns env Q (some (.array access form value array index))
        (.unresolvedArray (.array access form))
  | storedElement {form : ElementForm} {value array index : Nat} {stored t : RegType} :
      Q stored → t.IsDeclared →
      Warns env Q (some (.array .put form value array index)) (.storedElement stored t)
  | unknownField {access : Access} {form : ElementForm} {value : Nat} {object : Option Nat}
      {field : FieldRef} :
      Warns env Q (some (.field access form value object field)) (.unknownField field)
  | fieldObject {access : Access} {form : ElementForm} {value : Nat} {object : Option Nat}
      {field : FieldRef} {t : RegType} : Q t →
      Warns env Q (some (.field access form value object field)) (.fieldObject field t)
  | fieldForm {form : ElementForm} {value : Nat} {object : Option Nat} {field : FieldRef}
      (place : FieldPlace) : place = (if object.isSome then .instanceField else .staticField) →
      Warns env Q (some (.field .get form value object field))
        (.fieldForm (.field place .get form) field (.ofDescriptor env.pool field.type false))
  | unknownOwner {kind : InvokeKind} {form : ArgumentForm} {args : List Nat} {method : MethodRef} :
      Warns env Q (some (.invoke kind form args method)) (.unknownOwner method)
  | unknownMethod {kind : InvokeKind} {form : ArgumentForm} {args : List Nat}
      {method : MethodRef} :
      Warns env Q (some (.invoke kind form args method)) (.unknownMethod method)
  | superOutside {kind : InvokeKind} {form : ArgumentForm} {args : List Nat} {method : MethodRef} :
      Warns env Q (some (.invoke kind form args method)) (.superOutside method env.method.owner)
  | unknownDeclaringClass {kind : InvokeKind} {form : ArgumentForm} {args : List Nat}
      {method : MethodRef} : Warns env Q (some (.invoke kind form args method))
        (.unknownDeclaringClass env.method.owner method)
  | receiverMismatch {kind : InvokeKind} {form : ArgumentForm} {args : List Nat}
      {method : MethodRef} {t : RegType} : Q t →
      Warns env Q (some (.invoke kind form args method)) (.receiverMismatch t method.owner)

theorem Warns.mono {env : Environment} {Q Q' : RegType → Prop} {o : Option Operation} {w : Warning}
    (h : env.Warns Q o w) (hQ : ∀ t, Q t → Q' t) : env.Warns Q' o w := by
  cases h <;> constructor <;> solve_by_elim

/-- All that the operation at position `pc` may object to in frame `f`. -/
inductive MayRaise (env : Environment) (pc : Nat) (o : Operation) (f : Frame) : Objection → Prop
  /-- One of its checks fails. -/
  | check {v : Violation} : v.isInternal = false → MayRaise env pc o f (.violation v)
  /-- The frame does not have a register that it names. -/
  | register {reg : Nat} (e : FrameError) : reg ∈ o.writes ∨ reg ∈ o.reads → ¬f.Has reg →
      MayRaise env pc o f (.violation (.frame e))
  /-- No value has been left behind for it. -/
  | result {e : FrameError} : o.opcode.isMoveResult = true → e.isRegisterFault = false →
      MayRaise env pc o f (.violation (.frame e))
  | allocation {dst : Nat} {d : Descriptor} : o = .newInstance dst d → allocationLimit ≤ pc →
      MayRaise env pc o f (.violation (.fault .allocationIndex))
  | site {dst : Nat} (e : Fault) : o = .moveException dst → env.layout.size ≤ pc →
      MayRaise env pc o f (.violation (.fault e))
  | argument : ¬o.FindsArguments → MayRaise env pc o f (.violation (.fault .noArgument))
  | warning {w : Warning} : env.Warns f.HoldsObject (some o) w → MayRaise env pc o f (.warning w)

/-- `P` holds of what an operation may object to in frame `f` by a check. -/
structure Covers (env : Environment) (o : Option Operation) (f : Frame) (P : Objection → Prop) :
    Prop where
  violation {v : Violation} : v.isInternal = false → P (.violation v)
  warning {w : Warning} : env.Warns f.HoldsObject o w → P (.warning w)

/-- The frame has the register, or `P` holds of whatever a frame refuses. -/
def Grants (P : Objection → Prop) (f : Frame) (reg : Nat) : Prop :=
  f.Has reg ∨ ∀ e, P (.violation (.frame e))

open ReportT RegType

variable {env : Environment} {o : Option Operation} {f : Frame} {P : Objection → Prop} {reg : Nat}
  {t : RegType}

/-! ## Expectations -/

/-- An access that a frame grants to the registers that it has. -/
private theorem raises_access {α : Type} {regs : List Nat} {x : Except FrameError α}
    (h : ∀ r ∈ regs, Grants P f r) (hx : (∀ r ∈ regs, f.Has r) → ∃ a, x = .ok a) :
    (ofFrame x : Report α).Raises P := by
  by_cases hall : ∀ e, P (.violation (.frame e))
  · exact raises_ofFrame fun e _ => hall e
  · obtain ⟨a, rfl⟩ := hx fun r hr => (h r hr).resolve_right hall
    exact raises_pure

theorem raises_read (h : Grants P f reg) : (read f reg).Raises P :=
  raises_access (List.forall_mem_singleton.2 h) fun hhas => (List.forall_mem_singleton.1 hhas).read

theorem raises_write (h : ∀ r ∈ extent t.isLowHalf reg, Grants P f r) (ht : t.isHighHalf = false) :
    (write f reg t).Raises P :=
  raises_access h fun hhas =>
    (forall_mem_extent.1 hhas).1.write (forall_mem_extent.1 hhas).2 ht

theorem raises_writeSingle (h : Grants P f reg) (ht : t.isHalf = false) :
    (writeSingle f reg t).Raises P :=
  raises_access (List.forall_mem_singleton.2 h) fun hhas =>
    (List.forall_mem_singleton.1 hhas).writeSingle ht

/-- A value that takes one register. -/
private theorem raises_write_whole (h : Grants P f reg) (ht : t.isHalf = false) :
    (write f reg t).Raises P := by
  refine raises_write ?_ (isHighHalf_of_isHalf ht)
  rw [isLowHalf_of_isHalf ht]
  exact List.forall_mem_singleton.2 h

/-- A value of a primitive type. -/
private theorem raises_writePrimitive {t : Primitive}
    (h : ∀ r ∈ extent t.isWide reg, Grants P f r) :
    (write f reg (.ofPrimitive t)).Raises P :=
  raises_write (isLowHalf_ofPrimitive t ▸ h) (isHighHalf_ofPrimitive t)

/-- An initialized object that is read is one that the frame holds. -/
private theorem holdsObject_of_read (h : (read f reg).Yields t) (href : t.isNonNullReference = true)
    (hinit : t.isUninitialized = false) : f.HoldsObject t :=
  ⟨Frame.mem_types_of_get? (get?_of_read h), href, hinit⟩

theorem raises_expectSingle (hP : env.Covers o f P) (h : Grants P f reg) {expected : RegType}
    (he : expected.isNonNullReference = true → expected.IsDeclared) :
    (env.expectSingle f reg expected).Raises P := by
  refine .bind (raises_read h) fun actual hactual => raises_ite (fun _ => raises_pure) fun _ =>
    raises_ite (fun hrecheck => ?_) fun _ => raises_reject (hP.violation rfl)
  simp only [isRecheckable, Bool.and_eq_true, Bool.not_eq_true'] at hrecheck
  obtain ⟨⟨⟨hexpected, href⟩, -⟩, hinit⟩ := hrecheck
  exact raises_flag (hP.warning (.typeMismatch (holdsObject_of_read hactual href hinit)
    (he hexpected)))

theorem raises_expectPair (hP : env.Covers o f P) (h : ∀ r ∈ extent true reg, Grants P f r)
    (expected : RegType) : (env.expectPair f reg expected).Raises P := by
  have hholds : (ofFrame (f.holdsPair env.pool reg expected) : Report Bool).Raises P :=
    raises_access h fun hhas =>
      (forall_mem_extent.1 hhas).1.holdsPair ((forall_mem_extent.1 hhas).2 rfl) env.pool expected
  obtain ⟨hlo, hhi⟩ := forall_mem_extent.1 h
  exact .seq hholds fun _ => raises_ite (fun _ => raises_pure) fun _ =>
    .seq (raises_read hlo) fun _ => .seq (raises_read (hhi rfl)) fun _ =>
      raises_reject (hP.violation rfl)

private theorem raises_expect (hP : env.Covers o f P) {expected : RegType} {wide : Bool}
    (hwide : expected.isLowHalf = wide) (h : ∀ r ∈ extent wide reg, Grants P f r)
    (he : expected.isNonNullReference = true → expected.IsDeclared) :
    (env.expect f reg expected).Raises P := by
  unfold expect
  rw [hwide]
  cases wide with
  | true => exact raises_expectPair hP h expected
  | false => exact raises_expectSingle hP (List.forall_mem_singleton.1 h) he

private theorem raises_expectPrimitive (hP : env.Covers o f P) {t : Primitive}
    (h : ∀ r ∈ extent t.isWide reg, Grants P f r) : (env.expectPrimitive f reg t).Raises P :=
  raises_expect hP (isLowHalf_ofPrimitive t) h fun href => by cases t <;> cases href

private theorem raises_expectInt (hP : env.Covers o f P) (h : Grants P f reg) :
    (env.expectSingle f reg .int).Raises P :=
  raises_expectSingle hP h fun href => by cases href

private theorem raises_expectDescriptor (hP : env.Covers o f P) (h : Grants P f reg)
    (d : Descriptor) : (env.expectSingle f reg (.ofDescriptor env.pool d false)).Raises P :=
  raises_expectSingle hP h fun href =>
    isDeclared_ofDescriptor (isReference_of_isNonNullReference href)

private theorem raises_checkClassAccess (hP : env.Covers o f P) (d : Descriptor) :
    (env.checkClassAccess d).Raises P := by
  unfold checkClassAccess
  split
  · exact raises_pure
  · exact raises_ite (fun _ => raises_pure) fun _ => raises_reject (hP.violation rfl)

/-! ## Values -/

private theorem raises_move (hP : env.Covers o f P) {form : ValueForm} {dst src : Nat}
    (hdst : ∀ r ∈ extent form.isWide dst, Grants P f r)
    (hsrc : ∀ r ∈ extent form.isWide src, Grants P f r) : (move form dst src f).Raises P := by
  have hread := raises_read (forall_mem_extent.1 hsrc).1
  cases form with
  | wide =>
    refine .seq hread fun lo => .seq (raises_read ((forall_mem_extent.1 hsrc).2 rfl)) fun hi =>
      raises_guard (hP.violation rfl) fun hpair => raises_access hdst fun hhas => ?_
    exact ((forall_mem_extent.1 hhas).2 rfl).writePair (by simpa using hpair)
  | single =>
    refine .seq hread fun t => raises_guard (hP.violation rfl) fun hfits =>
      raises_writeSingle (forall_mem_extent.1 hdst).1 ?_
    have hfits : t.isConflict = true ∨ t.isSingle = true := by
      simpa [or_iff_not_imp_left] using hfits
    exact hfits.elim isHalf_of_isConflict isHalf_of_isSingle
  | object =>
    refine .seq hread fun t => raises_guard (hP.violation rfl) fun hfits =>
      raises_writeSingle (forall_mem_extent.1 hdst).1 ?_
    have hfits : t.isConflict = true ∨ t.isReference = true := by
      simpa [or_iff_not_imp_left] using hfits
    exact hfits.elim isHalf_of_isConflict isHalf_of_isReference

/-- If the frame has the registers, a value cannot be fetched only for want of one. -/
private theorem raises_moveResult {form : ValueForm} {dst : Nat}
    (hdst : ∀ r ∈ extent form.isWide dst, Grants P f r)
    (hresult : ∀ e : FrameError, e.isRegisterFault = false → P (.violation (.frame e))) :
    (moveResult form dst f).Raises P := by
  refine .seq (raises_ofFrame fun e he => ?_) fun _ => raises_pure
  by_cases hall : ∀ e, P (.violation (.frame e))
  · exact hall e
  · have hhas := fun r hr => (hdst r hr).resolve_right hall
    exact hresult e (Frame.isRegisterFault_consumeResult (forall_mem_extent.1 hhas).1
      (forall_mem_extent.1 hhas).2 he)

private theorem isHalf_caughtType (env : Environment) (d : Option Descriptor) :
    (env.caughtType d).Ensures fun t => t.isHalf = false := by
  unfold caughtType
  cases d with
  | none => exact ensures_pure.2 rfl
  | some d =>
    refine ensures_guard.2 fun _ => ensures_guard.2 fun _ => ensures_pure.2 ?_
    exact isHalf_ofReference env.pool d false

private theorem raises_caughtType (hP : env.Covers o f P) (d : Option Descriptor) :
    (env.caughtType d).Raises P := by
  unfold caughtType
  cases d with
  | none => exact raises_pure
  | some d =>
    exact raises_guard (hP.violation rfl) fun _ => raises_guard (hP.violation rfl) fun _ =>
      raises_pure

/-- A handler catches something. -/
private theorem raises_moveException (hP : env.Covers o f P) {pc dst : Nat} (hdst : Grants P f dst)
    (hsite : pc < env.layout.size ∨ ∀ e, P (.violation (.fault e))) :
    (env.moveException pc dst f).Raises P := by
  unfold moveException
  split
  · exact raises_reject (hP.violation rfl)
  · rename_i before
    have hlookup : (ofFault (env.layout.site before) : Report Site).Raises P := by
      refine raises_ofFault fun e he => ?_
      rcases hsite with hlt | hall
      · obtain ⟨s, hs⟩ := Layout.exists_site (Nat.lt_of_succ_lt hlt)
        cases hs.symm.trans he
      · exact hall e
    refine .seq hlookup fun handler => raises_guard (hP.violation rfl) fun hhandler => ?_
    refine .bind (raises_mapM _ (raises_caughtType hP)) fun ts hts => ?_
    have hlength := ensures_length_mapM handler.catches ts hts
    have hwhole := ensures_mapM _ env.isHalf_caughtType ts hts
    -- there is a type for each exception that is caught here, and some exception is
    cases ts with
    | nil =>
      have hempty : handler.catches = [] := List.length_eq_zero_iff.1 hlength.symm
      simp [Site.isHandler, hempty] at hhandler
    | cons t ts =>
      exact raises_writeSingle hdst (isHalf_foldl_merge _ (hwhole _ List.mem_cons_self))

private theorem raises_checkMonitors (hP : env.Covers o f P) (f : Frame) :
    (checkMonitors f).Raises P := by
  unfold checkMonitors
  split
  · exact raises_flag (hP.warning (.monitorsHeld _))
  · exact raises_pure

private theorem raises_returnVoid (hP : env.Covers o f P) : (env.returnVoid f).Raises P :=
  raises_guard (hP.violation rfl) fun _ => raises_guard (hP.violation rfl) fun _ =>
    .seq (raises_checkMonitors hP f) fun _ => raises_pure

private theorem raises_checkReturnSingle (hP : env.Covers o f P) {src : Nat} (h : Grants P f src)
    (d : Descriptor) :
    (env.checkReturnSingle f src (.ofDescriptor env.pool d false)).Raises P :=
  .seq (raises_read h) fun _ => raises_ite (fun _ => raises_pure) fun _ =>
    raises_expectDescriptor hP h d

private theorem raises_checkReturnObject (hP : env.Covers o f P) {src : Nat} (h : Grants P f src)
    (ret : RegType) : (env.checkReturnObject f src ret).Raises P :=
  .seq (raises_read h) fun _ => raises_guard (hP.violation rfl) fun _ =>
    raises_ite (fun _ => raises_reject (hP.violation rfl)) fun _ => raises_pure

private theorem raises_returnValue (hP : env.Covers o f P) {form : ValueForm} {src : Nat}
    (hsrc : ∀ r ∈ extent form.isWide src, Grants P f r) :
    (env.returnValue form src f).Raises P := by
  have hmonitors : (do checkMonitors f; return f : Report Frame).Raises P :=
    .seq (raises_checkMonitors hP f) fun _ => raises_pure
  unfold returnValue
  refine raises_guard (hP.violation rfl) fun _ => ?_
  cases form with
  | single =>
    exact .seq (raises_checkReturnSingle hP (List.forall_mem_singleton.1 hsrc) _) fun _ => hmonitors
  | wide => exact .seq (raises_expectPair hP hsrc _) fun _ => hmonitors
  | object =>
    exact .seq (raises_checkReturnObject hP (List.forall_mem_singleton.1 hsrc) _) fun _ => hmonitors

private theorem raises_constClass (hP : env.Covers o f P) {dst : Nat} (hdst : Grants P f dst)
    (d : Descriptor) : (env.constClass dst d f).Raises P :=
  raises_guard (hP.violation rfl) fun _ => .seq (raises_checkClassAccess hP d) fun _ =>
    raises_writeSingle hdst rfl

private theorem raises_checkMonitorOwner (hP : env.Covers o f P) {object : Nat}
    (h : Grants P f object) (op : Opcode) : (checkMonitorOwner op object f).Raises P :=
  .seq (raises_read h) fun _ => raises_ite (fun _ => raises_reject (hP.violation rfl)) fun _ =>
    raises_pure

private theorem raises_monitorExit (hP : env.Covers o f P) {object : Nat} (h : Grants P f object) :
    (monitorExit object f).Raises P := by
  refine .seq (raises_checkMonitorOwner hP h _) fun _ => ?_
  split
  · exact raises_pure
  · exact .seq (raises_flag (hP.warning .noMonitor)) fun _ => raises_pure

private theorem raises_throwException (hP : env.Covers o f P) {src : Nat} (h : Grants P f src) :
    (env.throwException src f).Raises P :=
  .seq (raises_read h) fun _ => raises_ite (fun _ => raises_pure) fun _ =>
    raises_guard (hP.violation rfl) fun _ => raises_guard (hP.violation rfl) fun _ =>
    .seq (raises_expectSingle hP h fun _ => .known (by decide) false) fun _ => raises_pure

private theorem raises_ifPair (hP : env.Covers o f P) {a b : Nat} (ha : Grants P f a)
    (hb : Grants P f b) (test : Condition) : (env.ifPair test a b f).Raises P := by
  have hequal {v : Violation} (hv : v.isInternal = false) {c : RegType → RegType → Bool} :
      (do
        let ta ← read f a
        let tb ← read f b
        if c ta tb then reject v
        return f : Report Frame).Raises P :=
    .seq (raises_read ha) fun _ => .seq (raises_read hb) fun _ =>
      raises_guard (hP.violation hv) fun _ => raises_pure
  have hordered : (do
      env.expectSingle f a .int
      env.expectSingle f b .int
      return f : Report Frame).Raises P :=
    .seq (raises_expectInt hP ha) fun _ => .seq (raises_expectInt hP hb) fun _ => raises_pure
  cases test with
  | eq | ne => exact hequal rfl
  | lt | ge | gt | le => exact hordered

private theorem raises_ifZero (hP : env.Covers o f P) {a : Nat} (ha : Grants P f a)
    (test : Condition) : (env.ifZero test a f).Raises P := by
  cases test with
  | eq | ne =>
    exact .seq (raises_read ha) fun _ => raises_guard (hP.violation rfl) fun _ => raises_pure
  | lt | ge | gt | le => exact .seq (raises_expectInt hP ha) fun _ => raises_pure

private theorem raises_compare (hP : env.Covers o f P) {c : Comparison} {dst a b : Nat}
    (hdst : Grants P f dst) (ha : ∀ r ∈ extent c.operand.isWide a, Grants P f r)
    (hb : ∀ r ∈ extent c.operand.isWide b, Grants P f r) : (env.compare c dst a b f).Raises P :=
  .seq (raises_expectPrimitive hP ha) fun _ => .seq (raises_expectPrimitive hP hb) fun _ =>
    raises_write_whole hdst rfl

private theorem raises_unary (hP : env.Covers o f P) {op : UnaryOp} {dst src : Nat}
    (hdst : ∀ r ∈ extent op.target.isWide dst, Grants P f r)
    (hsrc : ∀ r ∈ extent op.source.isWide src, Grants P f r) : (env.unary op dst src f).Raises P :=
  .seq (raises_expectPrimitive hP hsrc) fun _ => raises_writePrimitive hdst

/-- The result is a whole value, or of the type that the operation is for. -/
private theorem ensures_binaryResult (op : BinaryOp) (a b : Nat) (f : Frame) :
    (binaryResult op a b f).Ensures fun t => t = .boolean ∨ t = .ofPrimitive op.target := by
  refine .seq fun _ => .seq fun _ => ?_
  split
  · exact ensures_pure.2 (.inl rfl)
  · exact ensures_pure.2 (.inr rfl)

private theorem raises_binary (hP : env.Covers o f P) {op : BinaryOp} {dst a b : Nat}
    (hdst : ∀ r ∈ extent op.target.isWide dst, Grants P f r)
    (ha : ∀ r ∈ extent op.target.isWide a, Grants P f r)
    (hb : ∀ r ∈ extent op.second.isWide b, Grants P f r) : (env.binary op dst a b f).Raises P := by
  have hresult : (binaryResult op a b f).Raises P :=
    .seq (raises_read (forall_mem_extent.1 ha).1) fun _ =>
      .seq (raises_read (forall_mem_extent.1 hb).1) fun _ =>
      raises_ite (fun _ => raises_pure) fun _ => raises_pure
  refine .seq (raises_expectPrimitive hP ha) fun _ => .seq (raises_expectPrimitive hP hb) fun _ =>
    .bind hresult fun t ht => ?_
  rcases ensures_binaryResult op a b f t ht with rfl | rfl
  · exact raises_write_whole (forall_mem_extent.1 hdst).1 rfl
  · exact raises_writePrimitive hdst

private theorem raises_literal (hP : env.Covers o f P) {dst src : Nat} (hdst : Grants P f dst)
    (hsrc : Grants P f src) (op : LiteralOp) (value : Int32) :
    (env.literal op dst src value f).Raises P := by
  refine .seq (raises_expectInt hP hsrc) fun _ => .seq (raises_read hsrc) fun t =>
    raises_write_whole hdst ?_
  split <;> rfl

private theorem raises_shiftLiteral (hP : env.Covers o f P) {dst src : Nat} (hdst : Grants P f dst)
    (hsrc : Grants P f src) : (env.shiftLiteral dst src f).Raises P :=
  .seq (raises_expectInt hP hsrc) fun _ => raises_write_whole hdst rfl

/-! ## Objects and whole arrays -/

private theorem raises_checkCastOperand (hP : env.Covers o f P) {src : Nat} (h : Grants P f src)
    (op : Opcode) (d : Descriptor) : (env.checkCastOperand op src d f).Raises P :=
  raises_guard (hP.violation rfl) fun _ => .seq (raises_checkClassAccess hP d) fun _ =>
    .seq (raises_read h) fun _ => raises_guard (hP.violation rfl) fun _ =>
    raises_ite (fun _ => raises_reject (hP.violation rfl)) fun _ => raises_pure

private theorem raises_arrayLength (hP : env.Covers o f P) {dst array : Nat} (hdst : Grants P f dst)
    (h : Grants P f array) : (arrayLength dst array f).Raises P :=
  .seq (raises_read h) fun _ => raises_guard (hP.violation rfl) fun _ =>
    raises_write_whole hdst rfl

private theorem raises_checkInstantiable {dst : Nat} {d : Descriptor}
    (hP : env.Covers (some (.newInstance dst d)) f P) : (env.checkInstantiable d).Raises P := by
  refine raises_guard (hP.violation rfl) fun _ => .seq (raises_checkClassAccess hP d) fun _ => ?_
  split
  · exact raises_flag (hP.warning .unknownClass)
  · exact raises_ite (fun _ => raises_reject (hP.violation rfl)) fun _ => raises_pure

/-- The position of an allocation can be marked, if it is not too large. -/
private theorem raises_newInstance {dst : Nat} {d : Descriptor}
    (hP : env.Covers (some (.newInstance dst d)) f P) (hdst : Grants P f dst) {pc : Nat}
    (hpc : pc < allocationLimit ∨ P (.violation (.fault .allocationIndex))) :
    (env.newInstance pc dst d f).Raises P := by
  refine .seq (raises_checkInstantiable hP) fun _ => ?_
  have hwrite : (write (f.invalidate ((ofReference env.pool d true).asUninitialized pc)) dst
      ((ofReference env.pool d true).asUninitialized pc)).Raises P :=
    raises_write_whole (hdst.imp_left (·.of_shape (Frame.shape_invalidate f _)))
      (isHalf_asUninitialized _ _)
  rcases hpc with hpc | hfault
  · rw [if_neg (Nat.not_le.2 hpc)]
    exact hwrite
  · exact raises_guard hfault fun _ => hwrite

private theorem raises_newArray (hP : env.Covers o f P) {dst size : Nat} (hdst : Grants P f dst)
    (hsize : Grants P f size) (d : Descriptor) : (env.newArray dst size d f).Raises P :=
  raises_guard (hP.violation rfl) fun _ => .seq (raises_checkClassAccess hP d) fun _ =>
    .seq (raises_expectInt hP hsize) fun _ => raises_write_whole hdst (isHalf_ofReference _ _ _)

private theorem raises_filledNewArray (hP : env.Covers o f P) {args : List Nat}
    (h : ∀ r ∈ args, Grants P f r) (d : Descriptor) : (env.filledNewArray args d f).Raises P := by
  unfold filledNewArray
  split
  · exact raises_reject (hP.violation rfl)
  · exact raises_guard (hP.violation rfl) fun _ => .seq (raises_checkClassAccess hP d) fun _ =>
      .seq (raises_forM args fun r hr => raises_expectDescriptor hP (h r hr) _) fun _ => raises_pure

private theorem raises_checkArrayData (hP : env.Covers o f P) (width : UInt8)
    (component : Descriptor) : (checkArrayData width component).Raises P := by
  unfold checkArrayData
  split
  · exact raises_ite (fun _ => raises_pure) fun _ => raises_reject (hP.violation rfl)
  · exact raises_reject (hP.violation rfl)

/-- An array has elements. -/
private theorem raises_fillArrayData (hP : env.Covers o f P) {array : Nat} (h : Grants P f array)
    (width : UInt8) : (fillArrayData array width f).Raises P := by
  refine .seq (raises_read h) fun t => raises_ite (fun _ => raises_pure) fun _ =>
    raises_guard (hP.violation rfl) fun harray => ?_
  split
  · -- what has passed as an array has a descriptor with a component
    rename_i hnone
    have harray : t.isArray = true := by simpa using harray
    rw [RegType.isArray, Bool.and_eq_true, Option.any_eq_true] at harray
    obtain ⟨-, d, hd, harray⟩ := harray
    simp [hd, Descriptor.component?, harray] at hnone
  · exact .seq (raises_checkArrayData hP width _) fun _ => raises_pure

/-! ## Elements of arrays -/

private theorem raises_checkIndex (hP : env.Covers o f P) {index : Nat} (h : Grants P f index) :
    (checkIndex index f).Raises P :=
  .seq (raises_read h) fun _ => raises_ite (fun _ => raises_reject (hP.violation rfl)) fun _ =>
    raises_pure

private theorem raises_elementRead (hP : env.Covers o f P) (form : ElementForm)
    (array component : RegType) : (elementRead form array component).Raises P := by
  have hreject {v : Violation} (hv : v.isInternal = false) : (reject v : Report RegType).Raises P :=
    raises_reject (hP.violation hv)
  exact raises_ite (fun _ => raises_ite (fun _ => raises_pure) fun _ => hreject rfl) fun _ =>
    raises_ite (fun _ => hreject rfl) fun _ =>
    raises_ite (fun _ => raises_pure) fun _ => hreject rfl

private theorem isHighHalf_elementOfNull (form : ElementForm) :
    (env.elementOfNull form).isHighHalf = false := by
  cases form <;> rfl

private theorem raises_arrayGet {form : ElementForm} {dst array index : Nat}
    (hP : env.Covers (some (.array .get form dst array index)) f P)
    (hdst : ∀ r ∈ extent form.isWide dst, Grants P f r) (harray : Grants P f array)
    (hindex : Grants P f index) : (env.arrayGet form dst array index f).Raises P := by
  refine .seq (raises_checkIndex hP hindex) fun _ => .seq (raises_read harray) fun t =>
    raises_ite (fun _ => ?_) fun _ => raises_ite (fun _ => ?_) fun _ =>
    raises_guard (hP.violation rfl) fun _ =>
    .bind (raises_elementRead hP form t _) fun u hu => ?_
  · refine raises_write ?_ (isHighHalf_elementOfNull form)
    rwa [(env.isComputed_elementOfNull form).2]
  · exact raises_guard (hP.violation rfl) fun _ =>
      .seq (raises_flag (hP.warning .unresolvedArray)) fun _ =>
        raises_write_whole (forall_mem_extent.1 hdst).1 rfl
  · obtain ⟨rfl, hwide⟩ := isLowHalf_elementRead form t _ u hu
    exact raises_write (hwide ▸ hdst) (isHighHalf_component env.pool t)

/-- A value that passes as an object is null or an object. -/
private theorem ensures_expectObject (env : Environment) (f : Frame) (reg : Nat) :
    (env.expectSingle f reg .object).Ensures fun _ =>
      ∀ t, f.get? reg = some t → t.isZero = true ∨ f.HoldsObject t := by
  refine .bind fun t ht => ?_
  have hpasses (h : t.isZero = true ∨ f.HoldsObject t) (u : RegType) (hu : f.get? reg = some u) :
      u.isZero = true ∨ f.HoldsObject u := by
    cases (get?_of_read ht).symm.trans hu
    exact h
  split
  · rename_i hassign
    refine ensures_pure.2 (hpasses ?_)
    unfold isAssignable at hassign
    split at hassign
    · rename_i heq
      exact .inr (holdsObject_of_read ht (heq ▸ rfl) (heq ▸ rfl))
    · change isReferenceAssignable env.pool .object t = true at hassign
      unfold isReferenceAssignable at hassign
      split at hassign
      · exact .inl ‹_›
      · rename_i hzero
        split at hassign
        · cases hassign
        · rename_i href
          split at hassign
          · cases hassign
          · rename_i hinit
            refine .inr (holdsObject_of_read ht ?_ ?_)
            · simpa [isReference, hzero] using href
            · simpa [isUninitialized, object] using hinit
  · split
    · rename_i hrecheck
      simp only [isRecheckable, Bool.and_eq_true, Bool.not_eq_true'] at hrecheck
      exact fun _ _ => hpasses (.inr (holdsObject_of_read ht hrecheck.1.1.2 hrecheck.2))
    · exact ensures_reject _

private theorem raises_storeObject {form : ElementForm} {value array index : Nat}
    (hP : env.Covers (some (.array .put form value array index)) f P) (h : Grants P f value)
    (t : RegType) : (env.storeObject value t (t.component env.pool) f).Raises P := by
  refine raises_guard (hP.violation rfl) fun href => ?_
  obtain ⟨ht, hcomponent⟩ := isDeclared_of_component (t := t) (p := env.pool) (by simpa using href)
  refine .bind (raises_expectSingle hP h fun _ => .known (by decide) false) fun _ hobject =>
    .bind (raises_read h) fun stored hstored => raises_ite (fun hassign => ?_) fun _ => raises_pure
  rcases env.ensures_expectObject f value _ hobject stored (get?_of_read hstored) with
    hzero | hstored
  · rw [hcomponent.isAssignable_of_isZero hzero] at hassign
    cases hassign
  · exact raises_flag (hP.warning (.storedElement hstored ht))

/-- A primitive value is stored in a field or an element of type `t`. -/
private theorem raises_stored (hP : env.Covers o f P) {form : ElementForm} {value : Nat}
    (h : ∀ r ∈ extent form.isWide value, Grants P f r) (htouches : form.touches t = true)
    {v : RegType → Violation} (hv : ∀ stored, (v stored).isInternal = false) :
    (do
      let stored ← read f value
      if t.isLowHalf then env.expectPair f value t
      else if !canStore t stored then reject (v stored) : Report Unit).Raises P := by
  rw [← ElementForm.isLowHalf_of_touches htouches] at h
  refine .seq (raises_read (forall_mem_extent.1 h).1) fun stored =>
    raises_ite (fun hwide => ?_) fun _ =>
    raises_ite (fun _ => raises_reject (hP.violation (hv stored))) fun _ => raises_pure
  rw [hwide] at h
  exact raises_expectPair hP h t

private theorem raises_storePrimitive (hP : env.Covers o f P) {form : ElementForm} {value : Nat}
    (h : ∀ r ∈ extent form.isWide value, Grants P f r) (array component : RegType) :
    (env.storePrimitive form value array component f).Raises P :=
  raises_guard (hP.violation rfl) fun htouches =>
    raises_stored hP h (by simpa using htouches) fun _ => rfl

private theorem raises_arrayPut {form : ElementForm} {value array index : Nat}
    (hP : env.Covers (some (.array .put form value array index)) f P)
    (hvalue : ∀ r ∈ extent form.isWide value, Grants P f r) (harray : Grants P f array)
    (hindex : Grants P f index) : (env.arrayPut form value array index f).Raises P := by
  have hread := raises_read (forall_mem_extent.1 hvalue).1
  refine .seq (raises_checkIndex hP hindex) fun _ => .seq (raises_read harray) fun t =>
    raises_ite (fun _ => .seq hread fun stored => .seq ?_ fun _ => raises_pure) fun _ =>
    raises_ite (fun _ => raises_guard (hP.violation rfl) fun _ =>
      .seq (raises_flag (hP.warning .unresolvedArray)) fun _ => raises_pure) fun _ =>
    raises_guard (hP.violation rfl) fun _ => raises_ite (fun _ => ?_) fun _ => ?_
  · refine raises_expect hP (isDemand_storedToNull form stored).2 hvalue ?_
    unfold storedToNull
    repeat' split
    all_goals first | exact fun _ => .known (by decide) false | exact fun h => by cases h
  · exact .seq (raises_storeObject hP (forall_mem_extent.1 hvalue).1 t) fun _ => raises_pure
  · exact .seq (raises_storePrimitive hP hvalue t _) fun _ => raises_pure

/-! ## Fields -/

section Fields

variable {access : Access} {form : ElementForm} {value : Nat} {object : Option Nat}
  {field : FieldRef}

private theorem raises_fieldOwner
    (hP : env.Covers (some (.field access form value object field)) f P) (place : FieldPlace) :
    (env.fieldOwner access place field).Raises P := by
  unfold fieldOwner
  dsimp only
  split
  · exact .seq (raises_flag (hP.warning .unknownField)) fun _ => raises_pure
  · exact raises_guard (hP.violation rfl) fun _ => raises_guard (hP.violation rfl) fun _ =>
      raises_guard (hP.violation rfl) fun _ => raises_pure

private theorem raises_checkFieldObject
    (hP : env.Covers (some (.field access form value object field)) f P) (h : Grants P f reg)
    (owner : Descriptor) : (env.checkFieldObject field owner reg f).Raises P := by
  have huninit {c : Prop} [Decidable c] {v : Violation} (hv : v.isInternal = false) :
      (if c then reject v else pure () : Report Unit).Raises P :=
    raises_ite (fun _ => raises_reject (hP.violation hv)) fun _ => raises_pure
  refine .bind (raises_read h) fun t ht => raises_guard (hP.violation rfl) fun href =>
    raises_ite (fun _ => huninit rfl) fun hinit => raises_ite (fun hzero => raises_ite (fun _ => ?_) fun _ => raises_pure) fun _ =>
    raises_pure
  refine raises_flag (hP.warning (.fieldObject (holdsObject_of_read ht ?_ (by simpa using hinit))))
  have hzero : t.isZero = false := by simpa using hzero
  simpa [isReference, hzero] using href

private theorem raises_readField (hP : env.Covers o f P) {op : Opcode}
    (hflag : P (.warning (.fieldForm op field t))) {dst : Nat}
    (hdst : ∀ r ∈ extent form.isWide dst, Grants P f r) (ht : t.isHighHalf = false) :
    (readField op form dst field t f).Raises P := by
  unfold readField
  split
  · refine raises_guard (hP.violation rfl) fun href => raises_write_whole
      (forall_mem_extent.1 hdst).1 (isHalf_of_isReference (by simpa using href))
  · rename_i named hnamed
    refine raises_ite (fun htouches => raises_write ?_ ht) fun _ =>
      raises_guard (hP.violation rfl) fun _ => .seq (raises_flag hflag) fun _ => raises_write ?_ ?_
    · exact ElementForm.isLowHalf_of_touches htouches ▸ hdst
    · exact (isComputed_of_regType? hnamed).2 ▸ hdst
    · cases form <;> cases hnamed <;> rfl

private theorem raises_writeField (hP : env.Covers o f P)
    (h : ∀ r ∈ extent form.isWide value, Grants P f r) (op : Opcode) (d : Descriptor) :
    (env.writeField op form value field (.ofDescriptor env.pool d false) f).Raises P :=
  raises_ite
    (fun _ => raises_guard (hP.violation rfl) fun _ =>
      raises_expectDescriptor hP (forall_mem_extent.1 h).1 d)
    fun _ => raises_guard (hP.violation rfl) fun htouches =>
      raises_stored hP h (by simpa using htouches) fun _ => rfl

private theorem raises_accessField
    (hP : env.Covers (some (.field access form value object field)) f P)
    (hvalue : ∀ r ∈ extent form.isWide value, Grants P f r) (hobject : ∀ r ∈ object, Grants P f r) :
    (env.accessField access form value object field f).Raises P := by
  refine .seq (raises_checkClassAccess hP _) fun _ => .seq (raises_fieldOwner hP _) fun owner =>
    raises_guard (hP.violation rfl) fun _ => ?_
  have hput (op : Opcode) : (do
      env.writeField op form value field (.ofDescriptor env.pool field.type false) f
      return f : Report Frame).Raises P :=
    .seq (raises_writeField hP hvalue op field.type) fun _ => raises_pure
  have hget (place : FieldPlace) (haccess : access = .get)
      (hplace : place = if object.isSome then .instanceField else .staticField) :
      (readField (.field place .get form) form value field
        (.ofDescriptor env.pool field.type false) f).Raises P := by
    subst haccess
    exact raises_readField hP (hP.warning (.fieldForm place hplace)) hvalue
      (isHighHalf_ofDescriptor env.pool field.type false)
  cases object with
  | none =>
    cases access with
    | get => exact hget _ rfl rfl
    | put => exact hput _
  | some reg =>
    refine .seq (raises_checkFieldObject hP (hobject reg rfl) owner) fun _ => ?_
    cases access with
    | get => exact hget _ rfl rfl
    | put => exact hput _

end Fields

/-! ## Calls -/

section Calls

variable {kind : InvokeKind} {form : ArgumentForm} {args : List Nat} {method : MethodRef}

private theorem raises_checkCallee (hP : env.Covers o f P) :
    (env.checkCallee kind method).Raises P :=
  raises_guard (hP.violation rfl) fun _ => raises_guard (hP.violation rfl) fun _ =>
    raises_guard (hP.violation rfl) fun _ => raises_checkClassAccess hP _

theorem raises_resolveCall (hP : env.Covers (some (.invoke kind form args method)) f P)
    (op : Opcode) : (env.resolveCall kind op method).Raises P := by
  unfold resolveCall
  dsimp only
  split
  · exact raises_flag (hP.warning .unknownOwner)
  · refine raises_guard (hP.violation rfl) fun _ => raises_guard (hP.violation rfl) fun _ => ?_
    split
    · exact raises_flag (hP.warning .unknownMethod)
    · exact raises_guard (hP.violation rfl) fun _ => raises_guard (hP.violation rfl) fun _ =>
        raises_ite (fun _ => raises_flag (hP.warning .superOutside)) fun _ => raises_pure

theorem raises_checkConstructed (hP : env.Covers (some (.invoke kind form args method)) f P)
    (t : RegType) : (env.checkConstructed method t).Raises P := by
  refine raises_ite (fun _ => raises_pure) fun _ => raises_guard (hP.violation rfl) fun _ =>
    raises_ite (fun _ => ?_) fun _ => raises_guard (hP.violation rfl) fun _ => raises_pure
  split
  · exact .seq (raises_flag (hP.warning .unknownDeclaringClass)) fun _ => raises_pure
  · exact raises_guard (hP.violation rfl) fun _ => raises_pure

theorem raises_checkReceiver (hP : env.Covers (some (.invoke kind form args method)) f P)
    (h : Grants P f reg) (op : Opcode) : (env.checkReceiver op method reg f).Raises P := by
  refine .bind (raises_read h) fun t ht => raises_guard (hP.violation rfl) fun href =>
    raises_ite (fun _ => raises_checkConstructed hP t) fun _ => .seq ?_ fun _ => raises_pure
  refine raises_guard (hP.violation rfl) fun hinit => raises_ite (fun hzero =>
    raises_ite (fun _ => ?_) fun _ => raises_pure) fun _ => raises_pure
  have hzero : t.isZero = false := by simpa using hzero
  refine raises_flag (hP.warning (.receiverMismatch (holdsObject_of_read ht ?_ ?_)))
  · simpa [isReference, hzero] using href
  · simpa using hinit

/-- An argument finds its registers, if there are as many as its type takes. The two registers of a
    wide argument are both among those of the call. -/
private theorem raises_checkArgument (hP : env.Covers o f P) (method : MethodRef)
    {param : Descriptor} {regs : List Nat} (hregs : ∀ r ∈ regs, Grants P f r)
    (hcount : regs ≠ [] ∧ param.slots ≤ regs.length ∨ P (.violation (.fault .noArgument))) :
    (env.checkArgument method param regs f).Raises P := by
  unfold checkArgument
  cases regs with
  | nil => exact raises_reject (hcount.resolve_left fun h => h.1 rfl)
  | cons reg rest =>
    rw [List.forall_mem_cons] at hregs
    refine raises_guard (hP.violation rfl) fun hconflict => raises_ite (fun hwide => ?_) fun _ =>
      raises_expectDescriptor hP hregs.1 param
    cases rest with
    | nil =>
      -- a low half is that of a type that takes two registers
      refine raises_reject (hcount.resolve_left fun h => ?_)
      simp [RegType.slots_eq_of_ofDescriptor hconflict, hwide] at h
    | cons hi rest =>
      refine raises_guard (hP.violation rfl) fun hhi => raises_expectPair hP ?_ _
      have hnext := hregs.2 hi List.mem_cons_self
      rw [not_not.1 hhi] at hnext
      exact forall_mem_extent.2 ⟨hregs.1, fun _ => hnext⟩

/-- An argument is only accepted for a parameter with a value. -/
private theorem ensures_isValue_checkArgument (env : Environment) (f : Frame) (method : MethodRef)
    (param : Descriptor) (regs : List Nat) :
    (env.checkArgument method param regs f).Ensures fun _ => param.isValue = true := by
  unfold checkArgument
  cases regs with
  | nil => exact ensures_reject _
  | cons reg rest =>
    refine ensures_guard.2 fun hconflict => fun _ _ => ?_
    rwa [RegType.ofDescriptor_eq_conflict_iff, Bool.not_eq_false] at hconflict

theorem ensures_isValue_checkArguments (env : Environment) (f : Frame) (method : MethodRef)
    (params : List Descriptor) (regs : List Nat) :
    (env.checkArguments method f params regs).Ensures fun _ =>
      ∀ d ∈ params, d.isValue = true := by
  induction params generalizing regs with
  | nil => exact fun _ _ d hd => absurd hd List.not_mem_nil
  | cons param params ih =>
    refine .bind fun _ hparam => fun u hparams => List.forall_mem_cons.2 ⟨?_, ih _ u hparams⟩
    exact env.ensures_isValue_checkArgument f method param regs _ hparam

theorem raises_checkArguments (hP : env.Covers o f P) (method : MethodRef)
    (params : List Descriptor) {regs : List Nat} (hregs : ∀ r ∈ regs, Grants P f r)
    (hcount : trailsOff params = false ∧ params.foldr (fun d n => d.slots + n) 0 ≤ regs.length ∨
      P (.violation (.fault .noArgument))) :
    (env.checkArguments method f params regs).Raises P := by
  induction params generalizing regs with
  | nil => exact raises_pure
  | cons param params ih =>
    have hrest : ∀ r ∈ regs.drop param.slots, Grants P f r :=
      fun r hr => hregs r (List.mem_of_mem_drop hr)
    rcases hcount with ⟨hparams, hlength⟩ | hfault
    · have hfirst : param.slots ≤ regs.length := by
        rw [List.foldr_cons] at hlength
        omega
      have hne : regs ≠ [] := by
        rintro rfl
        cases hvalue : param.isValue with
        | true =>
          have hvoid : param.isVoid = false := by simp_all [Descriptor.isValue]
          exact absurd hfirst (Nat.not_le.2 (Descriptor.slots_pos hvoid))
        | false => exact absurd hlength (Nat.not_le.2 (slots_pos_of_trailsOff hvalue hparams))
      refine .bind (raises_checkArgument hP method hregs (.inl ⟨hne, hfirst⟩)) fun _ hparam => ?_
      -- the check goes on only behind a value, and what that takes is not there for the others
      have hvalue := env.ensures_isValue_checkArgument f method param regs _ hparam
      refine ih hrest (.inl ⟨trailsOff_cons hvalue params ▸ hparams, ?_⟩)
      rw [List.foldr_cons] at hlength
      rw [List.length_drop]
      omega
    · exact .seq (raises_checkArgument hP method hregs (.inr hfault)) fun _ =>
        ih hrest (.inr hfault)

/-- A call has as many registers as its receiver and its parameters take. -/
theorem raises_checkRegisters (hP : env.Covers (some (.invoke kind form args method)) f P)
    (hargs : ∀ r ∈ args, Grants P f r)
    (hparams : trailsOff method.proto.params = false ∨ P (.violation (.fault .noArgument)))
    (op : Opcode) : (env.checkRegisters kind op args method f).Raises P := by
  refine raises_guard (hP.violation rfl) fun hlength => ?_
  have hlength : args.length = method.proto.argSlots + if kind = .static then 0 else 1 := by
    simpa using hlength
  by_cases hstatic : kind = .static
  · rw [if_pos hstatic] at hlength ⊢
    exact .seq (raises_checkArguments hP method _ hargs
      (hparams.imp_left fun h => ⟨h, Nat.le_of_eq hlength.symm⟩)) fun _ => raises_pure
  · rw [if_neg hstatic] at hlength ⊢
    cases args with
    | nil => simp at hlength
    | cons receiver args =>
      rw [List.forall_mem_cons] at hargs
      have hrest : method.proto.argSlots ≤ args.length := by
        rw [List.length_cons] at hlength
        omega
      exact .seq (raises_checkReceiver hP hargs.1 op) fun _ =>
        .seq (raises_checkArguments hP method _ hargs.2 (hparams.imp_left fun h => ⟨h, hrest⟩))
          fun _ => raises_pure

theorem raises_leaveResult (hP : env.Covers o f P) (method : MethodRef) (f' : Frame) :
    (env.leaveResult method f').Raises P :=
  raises_ite (fun _ => raises_pure) fun _ => raises_guard (hP.violation rfl) fun _ => raises_pure

theorem raises_invoke (hP : env.Covers (some (.invoke kind form args method)) f P)
    (hargs : ∀ r ∈ args, Grants P f r)
    (hparams : trailsOff method.proto.params = false ∨ P (.violation (.fault .noArgument))) :
    (env.invoke kind form args method f).Raises P :=
  .seq (raises_checkCallee hP) fun _ => .seq (raises_resolveCall hP _) fun _ =>
    .seq (raises_checkRegisters hP hargs hparams _) fun _ => raises_leaveResult hP method _

end Calls

/-! ## All operations -/

private theorem covers_mayRaise (env : Environment) (pc : Nat) (o : Operation) (f : Frame) :
    env.Covers (some o) f (env.MayRaise pc o f) :=
  ⟨.check, .warning⟩

/-- An operation objects to nothing but what it may object to. -/
theorem raises_transfer (env : Environment) (pc : Nat) (o : Operation) (f : Frame) :
    (env.transfer pc o f).Raises (env.MayRaise pc o f) := by
  have hP := env.covers_mayRaise pc o f
  have hgrants (r : Nat) (hr : r ∈ o.writes ∨ r ∈ o.reads) : Grants (env.MayRaise pc o f) f r :=
    Classical.or_iff_not_imp_left.2 fun hno e => .register e hr hno
  have hwrites := fun r hr => hgrants r (.inl hr)
  have hreads := fun r hr => hgrants r (.inr hr)
  cases o
  case invoke kind form args method =>
    refine raises_invoke hP (fun r hr => hreads r ?_) ?_
    · -- a receiver is read apart from the arguments
      cases kind <;> cases args <;>
        simp_all [Operation.reads, Operation.uses, Function.comp_def]
    · refine Classical.or_iff_not_imp_left.2 fun hno => .argument fun hfinds => ?_
      exact hno (hfinds kind form args method rfl)
  case array access form value array index =>
    cases access with
    | get =>
      simp only [Operation.writes, Operation.reads, Operation.uses, List.map_cons, List.map_nil,
        List.forall_mem_cons] at hwrites hreads
      exact raises_arrayGet hP hwrites hreads.1 hreads.2.1
    | put =>
      simp only [Operation.reads, Operation.uses, List.map_append, List.map_map, Function.comp_def,
        List.map_id', List.map_cons, List.map_nil, List.forall_mem_append,
        List.forall_mem_cons] at hreads
      exact raises_arrayPut hP hreads.1 hreads.2.1 hreads.2.2.1
  case field access form value object ref =>
    cases access with
    | get =>
      simp only [Operation.writes, Operation.reads, Operation.uses, List.map_map, Function.comp_def,
        List.map_id', Option.mem_toList] at hwrites hreads
      exact raises_accessField hP hwrites hreads
    | put =>
      simp only [Operation.reads, Operation.uses, List.map_append, List.map_map, Function.comp_def,
        List.map_id', Option.mem_toList, List.forall_mem_append] at hreads
      exact raises_accessField hP hreads.1 hreads.2
  all_goals
    simp only [Operation.writes, Operation.reads, Operation.uses, List.map_append, List.map_map,
      Function.comp_def, List.map_id', List.map_cons, List.map_nil, List.forall_mem_append,
      List.forall_mem_cons] at hwrites hreads
  case nop | goto => exact raises_pure
  case move => exact raises_move hP hwrites hreads
  case moveResult => exact raises_moveResult hwrites fun e he => .result rfl he
  case moveException =>
    exact raises_moveException hP hwrites.1
      (Classical.or_iff_not_imp_left.2 fun hno e => .site e rfl (Nat.not_lt.1 hno))
  case returnVoid => exact raises_returnVoid hP
  case returnValue => exact raises_returnValue hP hreads
  case constInt | constString => exact raises_writeSingle hwrites.1 rfl
  case constWide =>
    exact raises_access hwrites fun hhas => ((forall_mem_extent.1 hhas).2 rfl).writePair rfl
  case constClass => exact raises_constClass hP hwrites.1 _
  case monitorEnter =>
    exact .seq (raises_checkMonitorOwner hP hreads.1 _) fun _ => raises_pure
  case monitorExit => exact raises_monitorExit hP hreads.1
  case checkCast =>
    exact .seq (raises_checkCastOperand hP hreads.1 _ _) fun _ =>
      raises_write_whole hwrites.1 (isHalf_ofReference _ _ _)
  case instanceOf =>
    exact .seq (raises_checkCastOperand hP hreads.1 _ _) fun _ => raises_write_whole hwrites.1 rfl
  case arrayLength => exact raises_arrayLength hP hwrites.1 hreads.1
  case newInstance =>
    exact raises_newInstance hP hwrites.1
      (Classical.or_iff_not_imp_left.2 fun hno => .allocation rfl (Nat.not_lt.1 hno))
  case newArray => exact raises_newArray hP hwrites.1 hreads.1 _
  case filledNewArray => exact raises_filledNewArray hP hreads _
  case fillArrayData => exact raises_fillArrayData hP hreads.1 _
  case throwException => exact raises_throwException hP hreads.1
  case switch => exact .seq (raises_expectInt hP hreads.1) fun _ => raises_pure
  case ifPair => exact raises_ifPair hP hreads.1 hreads.2.1 _
  case ifZero => exact raises_ifZero hP hreads.1 _
  case compare => exact raises_compare hP hwrites.1 hreads.1 hreads.2
  case unary => exact raises_unary hP hwrites hreads
  case binary | binaryInPlace => exact raises_binary hP hwrites hreads.1 hreads.2
  case literal => exact raises_literal hP hwrites.1 hreads.1 _ _
  case shiftLiteral => exact raises_shiftLiteral hP hwrites.1 hreads.1

end Environment

end BytecodeVerifier
