import BytecodeVerifier.Proofs.Assignment
import BytecodeVerifier.Transfer

/-!
# What operations do

`Environment.transfer_outcome` says of every operation what it can do to a frame. Most operations
compute a value and assign it. A move copies a register, an allocation makes an object on which no
constructor has run, and a constructor marks all copies of its receiver.

`Environment.transfer_cases` forgets which registers are written: apart from the marks of a
constructor, every operation only lets the frame evolve.
-/

namespace BytecodeVerifier

namespace Operation

/-- The operation runs a constructor on an object that is not initialized yet. -/
def Constructs (o : Operation) (f : Frame) (t : RegType) : Prop :=
  ∃ form reg args method, o = .invoke .direct form (reg :: args) method ∧
    method.isConstructor = true ∧ f.get? reg = some t ∧ t.isUninitialized = true

/-- Only calls run constructors. -/
theorem not_constructs {o : Operation} {f : Frame}
    (ho : ∀ kind form args method, o ≠ .invoke kind form args method) (t : RegType) :
    ¬o.Constructs f t := by
  rintro ⟨form, reg, args, method, heq, -⟩
  exact ho _ _ _ _ heq

end Operation

/-! ## Widths -/

namespace RegType

theorem isLowHalf_ofPrimitive (t : Primitive) : (ofPrimitive t).isLowHalf = t.isWide := by
  cases t <;> rfl

theorem isLowHalf_of_isReference {t : RegType} (h : t.isReference = true) :
    t.isLowHalf = false := by
  cases t <;> simp_all [isReference, isZero, range?, isNonNullReference, isLowHalf]

theorem isLowHalf_ofReference (p : ClassPool) (d : Descriptor) (precise : Bool) :
    (ofReference p d precise).isLowHalf = false := by
  unfold ofReference
  repeat' split
  all_goals rfl

end RegType

/-- An access that does not tell all types apart still tells wide ones from others. -/
theorem ElementForm.isLowHalf_of_touches {form : ElementForm} {t : RegType}
    (h : form.touches t = true) : t.isLowHalf = form.isWide := by
  unfold touches at h
  split at h <;> first | rfl | exact nomatch h

namespace Environment

open ReportT RegType
open BytecodeVerifier.Frame (assigns_write assigns_writeSingle assigns_writePair
  assigns_consumeResult delivers_of_isComputed mem_types_of_get? read_eq_ok supplies_of_isFresh
  supplies_of_mem)

variable (env : Environment) {f f' : Frame} {t : RegType}

/-- The registers `ws` get values that are computed or fetched. -/
def Computes (ws : List Nat) (f f' : Frame) : Prop := f.Assigns ws (f.Delivers env.pool) f'

variable {env} in
private theorem computes_refl (f : Frame) : env.Computes [] f f := .refl f

private theorem ensures_write {reg : Nat} {wide : Bool} (ht : t.IsComputed)
    (hwide : t.isLowHalf = wide) : (write f reg t).Ensures (env.Computes (extent wide reg) f) :=
  hwide ▸ ensures_ofFrame.2 fun _ h =>
    assigns_write (fun _ => delivers_of_isComputed) (delivers_of_isComputed ht) h

private theorem ensures_writeSingle {reg : Nat} (ht : f.Delivers env.pool t) :
    (writeSingle f reg t).Ensures (env.Computes [reg] f) :=
  ensures_ofFrame.2 fun _ h => assigns_writeSingle ht h

theorem get?_of_read {reg : Nat} (h : (read f reg).Yields t) : f.get? reg = some t :=
  read_eq_ok.1 (yields_ofFrame.1 h)

/-! ## Values -/

/-- A move writes what is in its source. Only `move-object` copies an object on which no constructor
    has run. -/
private theorem assigns_move (form : ValueForm) (dst src : Nat) (f : Frame) :
    (move form dst src f).Ensures fun f' =>
      form.isWide = true ∧ env.Computes (extent true dst) f f' ∨
      form.isWide = false ∧ f.Assigns [dst]
        (fun t => f.get? src = some t ∧ (t.isUninitialized = true → form = .object)) f' := by
  unfold move
  cases form with
  | wide =>
    refine .seq fun lo => .seq fun hi => ensures_guard.2 fun hpair => ?_
    have hlow : lo.IsComputed := by
      cases lo <;> simp [pairsWith, highHalf?] at hpair
      exact ⟨⟨trivial, rfl, rfl⟩, rfl⟩
    exact ensures_ofFrame.2 fun _ h => .inl ⟨rfl, assigns_writePair
      (fun _ => delivers_of_isComputed) (delivers_of_isComputed hlow) h⟩
  | single =>
    refine .bind fun t ht => ensures_guard.2 fun hfits => ?_
    refine ensures_ofFrame.2 fun _ h => .inr ⟨rfl, ?_⟩
    refine assigns_writeSingle ⟨get?_of_read ht, fun huninit => ?_⟩ h
    cases t <;> simp_all [isConflict, isSingle.eq_def, isUninitialized]
  | object =>
    refine .bind fun t ht => ensures_guard.2 fun _ => ?_
    refine ensures_ofFrame.2 fun _ h => .inr ⟨rfl, ?_⟩
    exact assigns_writeSingle ⟨get?_of_read ht, fun _ => rfl⟩ h

private theorem computes_moveResult (form : ValueForm) (dst : Nat) (f : Frame) :
    (moveResult form dst f).Ensures (env.Computes (extent form.isWide dst) f) :=
  .bind fun _ h => ensures_pure.2 (assigns_consumeResult (yields_ofFrame.1 h))

private theorem isComputed_throwable : throwable.IsComputed :=
  isComputed_reference (by decide) false

theorem isComputed_caughtType (d : Option Descriptor) :
    (env.caughtType d).Ensures IsComputed := by
  unfold caughtType
  cases d with
  | none => exact ensures_pure.2 isComputed_throwable
  | some d =>
    refine ensures_guard.2 fun _ => ensures_guard.2 fun _ => ensures_pure.2 ?_
    exact isComputed_ofReference env.pool d false

private theorem delivers_foldl_merge {p : ClassPool} (ts : List RegType) (ht : f.Delivers p t)
    (hts : ∀ u ∈ ts, u.IsComputed) : f.Delivers p (ts.foldl (RegType.merge p) t) := by
  induction ts generalizing t with
  | nil => exact ht
  | cons u ts ih =>
    simp only [List.mem_cons, forall_eq_or_imp] at hts
    exact ih (ht.merge hts.1) hts.2

private theorem computes_moveException (pc dst : Nat) (f : Frame) :
    (env.moveException pc dst f).Ensures (env.Computes [dst] f) := by
  unfold moveException
  split
  · exact ensures_reject _
  · refine .seq fun handler => ensures_guard.2 fun _ => .bind fun ts hts => ?_
    have hcomputed := ensures_mapM _ env.isComputed_caughtType ts hts
    split
    · exact ensures_reject _
    · simp only [List.mem_cons, forall_eq_or_imp] at hcomputed
      exact env.ensures_writeSingle
        (delivers_foldl_merge _ (delivers_of_isComputed hcomputed.1) hcomputed.2)

private theorem computes_returnVoid (f : Frame) :
    (env.returnVoid f).Ensures (env.Computes [] f) :=
  ensures_guard.2 fun _ => ensures_guard.2 fun _ => .seq fun _ => ensures_pure.2 (computes_refl f)

private theorem computes_returnValue (form : ValueForm) (src : Nat) (f : Frame) :
    (env.returnValue form src f).Ensures (env.Computes [] f) := by
  unfold returnValue
  refine ensures_guard.2 fun _ => ?_
  cases form <;> exact .seq fun _ => .seq fun _ => ensures_pure.2 (computes_refl f)

private theorem computes_constClass (dst : Nat) (d : Descriptor) (f : Frame) :
    (env.constClass dst d f).Ensures (env.Computes [dst] f) :=
  ensures_guard.2 fun _ => .seq fun _ => env.ensures_writeSingle
    (delivers_of_isComputed (isComputed_reference (by decide) true))

private theorem computes_monitorEnter (object : Nat) (f : Frame) :
    (monitorEnter object f).Ensures (env.Computes [] f) :=
  .seq fun _ => ensures_pure.2 (.withMonitors f _)

private theorem computes_monitorExit (object : Nat) (f : Frame) :
    (monitorExit object f).Ensures (env.Computes [] f) := by
  unfold monitorExit
  refine .seq fun _ => ?_
  split
  · rename_i f' hexit
    unfold Frame.exitMonitor? at hexit
    split at hexit <;> cases hexit
    · exact ensures_pure.2 (.withMonitors f _)
    · exact ensures_pure.2 (computes_refl f)
  · exact .seq fun _ => ensures_pure.2 (computes_refl f)

private theorem computes_throwException (src : Nat) (f : Frame) :
    (env.throwException src f).Ensures (env.Computes [] f) := by
  refine .seq fun t => ?_
  split
  · exact ensures_pure.2 (computes_refl f)
  · refine ensures_guard.2 fun _ => ensures_guard.2 fun _ => .seq fun _ => ?_
    exact ensures_pure.2 (computes_refl f)

private theorem computes_ifPair (test : Condition) (a b : Nat) (f : Frame) :
    (env.ifPair test a b f).Ensures (env.Computes [] f) := by
  unfold ifPair
  cases test <;> first
    | exact .seq fun _ => .seq fun _ => ensures_guard.2 fun _ => ensures_pure.2 (computes_refl f)
    | exact .seq fun _ => .seq fun _ => ensures_pure.2 (computes_refl f)

private theorem computes_ifZero (test : Condition) (a : Nat) (f : Frame) :
    (env.ifZero test a f).Ensures (env.Computes [] f) := by
  unfold ifZero
  cases test <;> first
    | exact .seq fun _ => ensures_guard.2 fun _ => ensures_pure.2 (computes_refl f)
    | exact .seq fun _ => ensures_pure.2 (computes_refl f)

private theorem computes_compare (c : Comparison) (dst a b : Nat) (f : Frame) :
    (env.compare c dst a b f).Ensures (env.Computes [dst] f) :=
  .seq fun _ => .seq fun _ => env.ensures_write (isComputed_ofPrimitive .int) rfl

private theorem computes_unary (op : UnaryOp) (dst src : Nat) (f : Frame) :
    (env.unary op dst src f).Ensures (env.Computes (extent op.target.isWide dst) f) :=
  .seq fun _ => env.ensures_write (isComputed_ofPrimitive _) (isLowHalf_ofPrimitive _)

private theorem isComputed_binaryResult (op : BinaryOp) (a b : Nat) (f : Frame) :
    (binaryResult op a b f).Ensures fun t => t.IsComputed ∧ t.isLowHalf = op.target.isWide := by
  refine .seq fun _ => .seq fun _ => ?_
  split
  -- booleans are kept by operations on `int` only
  · rename_i hkeeps
    have hwide : op.target.isWide = false := by
      unfold BinaryOp.keepsBooleans at hkeeps
      split at hkeeps
      · rfl
      · simp at hkeeps
    exact ensures_pure.2 ⟨isComputed_ofPrimitive .boolean, hwide.symm⟩
  · exact ensures_pure.2 ⟨isComputed_ofPrimitive _, isLowHalf_ofPrimitive _⟩

private theorem computes_binary (op : BinaryOp) (dst a b : Nat) (f : Frame) :
    (env.binary op dst a b f).Ensures (env.Computes (extent op.target.isWide dst) f) := by
  refine .seq fun _ => .seq fun _ => .bind fun t ht => ?_
  obtain ⟨hcomputed, hwide⟩ := isComputed_binaryResult op a b f t ht
  exact env.ensures_write hcomputed hwide

private theorem computes_literal (op : LiteralOp) (dst src : Nat) (v : Int32) (f : Frame) :
    (env.literal op dst src v f).Ensures (env.Computes [dst] f) := by
  refine .seq fun _ => .seq fun t => ?_
  dsimp only
  split
  · exact env.ensures_write (isComputed_ofPrimitive .boolean) rfl
  · exact env.ensures_write (isComputed_ofPrimitive .int) rfl

private theorem computes_shiftLiteral (dst src : Nat) (f : Frame) :
    (env.shiftLiteral dst src f).Ensures (env.Computes [dst] f) :=
  .seq fun _ => env.ensures_write (isComputed_ofPrimitive .int) rfl

/-! ## Objects and arrays -/

private theorem computes_checkCast (object : Nat) (d : Descriptor) (f : Frame) :
    (env.checkCast object d f).Ensures (env.Computes [object] f) :=
  .seq fun _ => env.ensures_write (isComputed_ofReference _ d false) (isLowHalf_ofReference ..)

private theorem computes_instanceOf (dst src : Nat) (d : Descriptor) (f : Frame) :
    (env.instanceOf dst src d f).Ensures (env.Computes [dst] f) :=
  .seq fun _ => env.ensures_write (isComputed_ofPrimitive .boolean) rfl

private theorem computes_arrayLength (dst array : Nat) (f : Frame) :
    (arrayLength dst array f).Ensures (env.Computes [dst] f) :=
  .seq fun _ => ensures_guard.2 fun _ => env.ensures_write (isComputed_ofPrimitive .int) rfl

/-- A new object is of a class, and marked with its class and the position of its allocation. -/
private theorem assigns_newInstance (pc dst : Nat) (d : Descriptor) (f : Frame) :
    (env.newInstance pc dst d f).Ensures fun f' => d.isClass = true ∧
      (f.invalidate (.uninitialized (.named d) pc)).Assigns [dst]
        (· = .uninitialized (.named d) pc) f' := by
  refine .bind fun _ hclass => ensures_guard.2 fun _ => ?_
  have hclass : d.isClass = true := by
    have hguard : (env.checkInstantiable d).Ensures fun _ => d.isClass = true :=
      ensures_guard.2 fun hd _ _ => by simpa using hd
    exact hguard _ hclass
  have hmarker : (ofReference env.pool d true).asUninitialized pc =
      .uninitialized (.named d) pc := by
    unfold ofReference
    rw [Descriptor.isReference_iff.2 (.inl hclass), if_neg (by decide)]
    split <;> rfl
  rw [hmarker]
  exact ensures_ofFrame.2 fun _ h => ⟨hclass, assigns_writeSingle rfl h⟩

private theorem computes_newArray (dst size : Nat) (d : Descriptor) (f : Frame) :
    (env.newArray dst size d f).Ensures (env.Computes [dst] f) :=
  ensures_guard.2 fun _ => .seq fun _ => .seq fun _ =>
    env.ensures_write (isComputed_ofReference _ d true) (isLowHalf_ofReference ..)

private theorem computes_filledNewArray (args : List Nat) (d : Descriptor) (f : Frame) :
    (env.filledNewArray args d f).Ensures (env.Computes [] f) := by
  unfold filledNewArray
  split
  · exact ensures_reject _
  · refine ensures_guard.2 fun _ => .seq fun _ => .seq fun _ => ensures_pure.2 ?_
    exact .setResult (isComputed_ofReference _ d true)

private theorem computes_fillArrayData (array : Nat) (width : UInt8) (f : Frame) :
    (fillArrayData array width f).Ensures (env.Computes [] f) := by
  refine .seq fun t => ?_
  split
  · exact ensures_pure.2 (computes_refl f)
  · refine ensures_guard.2 fun _ => ?_
    split
    · exact ensures_reject _
    · exact .seq fun _ => ensures_pure.2 (computes_refl f)

theorem isComputed_elementOfNull (form : ElementForm) :
    (env.elementOfNull form).IsComputed ∧ (env.elementOfNull form).isLowHalf = form.isWide := by
  cases form with
  | object => exact ⟨isComputed_constant 0 true, rfl⟩
  | single => exact ⟨isComputed_constant 1 _, rfl⟩
  | _ => exact ⟨⟨⟨trivial, rfl, rfl⟩, rfl⟩, rfl⟩

theorem isLowHalf_elementRead (form : ElementForm) (array component : RegType) :
    (elementRead form array component).Ensures
      fun t => t = component ∧ t.isLowHalf = form.isWide := by
  unfold elementRead
  dsimp only
  split
  · rename_i hform
    split
    · exact ensures_pure.2 ⟨rfl, hform ▸ isLowHalf_of_isReference ‹_›⟩
    · exact ensures_reject _
  · split
    · exact ensures_reject _
    · split
      · exact ensures_pure.2 ⟨rfl, ElementForm.isLowHalf_of_touches ‹_›⟩
      · exact ensures_reject _

private theorem computes_arrayGet (form : ElementForm) (dst array index : Nat) (f : Frame) :
    (env.arrayGet form dst array index f).Ensures (env.Computes (extent form.isWide dst) f) := by
  refine .seq fun _ => .seq fun t => ?_
  split
  · obtain ⟨hcomputed, hwide⟩ := env.isComputed_elementOfNull form
    exact env.ensures_write hcomputed hwide
  split
  · refine ensures_guard.2 fun hform => .seq fun _ => env.ensures_write isComputed_object ?_
    rw [not_not.1 hform]
    rfl
  · refine ensures_guard.2 fun _ => .bind fun u hu => ?_
    obtain ⟨rfl, hwide⟩ := isLowHalf_elementRead form t _ u hu
    exact env.ensures_write (isComputed_component env.pool t) hwide

private theorem computes_arrayPut (form : ElementForm) (value array index : Nat) (f : Frame) :
    (env.arrayPut form value array index f).Ensures (env.Computes [] f) := by
  refine .seq fun _ => .seq fun t => ?_
  split
  · exact .seq fun _ => .seq fun _ => ensures_pure.2 (computes_refl f)
  split
  · exact ensures_guard.2 fun _ => .seq fun _ => ensures_pure.2 (computes_refl f)
  · refine ensures_guard.2 fun _ => ?_
    split <;> exact .seq fun _ => ensures_pure.2 (computes_refl f)

/-! ## Fields -/

theorem isComputed_of_regType? {form : ElementForm} {t : RegType}
    (h : form.regType? = some t) : t.IsComputed ∧ t.isLowHalf = form.isWide := by
  cases form <;> cases h <;> exact ⟨⟨⟨trivial, rfl, rfl⟩, rfl⟩, rfl⟩

private theorem computes_readField (op : Opcode) (form : ElementForm) (dst : Nat)
    (field : FieldRef) (f : Frame) (ht : t.IsComputed) :
    (readField op form dst field t f).Ensures (env.Computes (extent form.isWide dst) f) := by
  unfold readField
  split
  · rename_i hform
    refine ensures_guard.2 fun href => env.ensures_write ht ?_
    have hobject : form = .object := by cases form <;> first | rfl | exact nomatch hform
    rw [isLowHalf_of_isReference (by simpa using href), hobject]
    rfl
  · rename_i named hnamed
    split
    · exact env.ensures_write ht (ElementForm.isLowHalf_of_touches ‹_›)
    · obtain ⟨hcomputed, hwide⟩ := isComputed_of_regType? hnamed
      exact ensures_guard.2 fun _ => .seq fun _ => env.ensures_write hcomputed hwide

private theorem computes_accessField (access : Access) (form : ElementForm) (value : Nat)
    (object : Option Nat) (field : FieldRef) (f : Frame) :
    (env.accessField access form value object field f).Ensures
      (env.Computes (Operation.field access form value object field).writes f) := by
  refine .seq fun _ => .seq fun owner => ensures_guard.2 fun _ => ?_
  have ht := isComputed_ofDescriptor env.pool field.type false
  cases object with
  | none =>
    cases access with
    | get => exact env.computes_readField _ form value field f ht
    | put => exact .seq fun _ => ensures_pure.2 (computes_refl f)
  | some reg =>
    refine .seq fun _ => ?_
    cases access with
    | get => exact env.computes_readField _ form value field f ht
    | put => exact .seq fun _ => ensures_pure.2 (computes_refl f)

/-! ## Calls -/

/-- A constructor is only called directly. -/
theorem ensures_checkCallee (kind : InvokeKind) (method : MethodRef) :
    (env.checkCallee kind method).Ensures
      fun _ => method.isConstructor = true → kind = .direct := by
  refine ensures_guard.2 fun _ => ensures_guard.2 fun hdirect => ?_
  intro _ _ hinit
  simpa [hinit] using hdirect

private theorem ensures_checkConstructed (method : MethodRef) (t : RegType) :
    (env.checkConstructed method t).Ensures
      (· = if t.isUninitialized then some t else none) := by
  unfold checkConstructed
  dsimp only
  split
  · rename_i hzero
    have : t.isUninitialized = false := by
      cases t <;> simp_all [isZero, range?, isUninitialized]
    simp [this]
  · refine ensures_guard.2 fun huninit => ?_
    have huninit : t.isUninitialized = true := by simpa using huninit
    rw [if_pos huninit]
    split
    · split
      · exact .seq fun _ => ensures_pure.2 rfl
      · exact ensures_guard.2 fun _ => ensures_pure.2 rfl
    · exact ensures_guard.2 fun _ => ensures_pure.2 rfl

private theorem ensures_checkReceiver (op : Opcode) (method : MethodRef) (reg : Nat) (f : Frame) :
    (env.checkReceiver op method reg f).Ensures fun r => ∃ t, f.get? reg = some t ∧
      r = if method.isConstructor && t.isUninitialized then some t else none := by
  refine .bind fun t ht => ensures_guard.2 fun _ => ?_
  have ht := get?_of_read ht
  split
  · rename_i hinit
    intro r hr
    exact ⟨t, ht, by simpa [hinit] using env.ensures_checkConstructed method t r hr⟩
  · rename_i hinit
    exact .seq fun _ => ensures_pure.2 ⟨t, ht, by simp [hinit]⟩

private theorem ensures_checkRegisters (kind : InvokeKind) (op : Opcode) (args : List Nat)
    (method : MethodRef) (f : Frame) :
    (env.checkRegisters kind op args method f).Ensures fun r =>
      kind = .static ∧ r = none ∨ ∃ reg rest t, args = reg :: rest ∧ f.get? reg = some t ∧
        r = if method.isConstructor && t.isUninitialized then some t else none := by
  refine ensures_guard.2 fun _ => ?_
  split
  · exact .seq fun _ => ensures_pure.2 (.inl ⟨‹_›, rfl⟩)
  cases args with
  | nil => exact ensures_reject _
  | cons reg rest =>
    refine .bind fun r hr => .seq fun _ => ensures_pure.2 (.inr ?_)
    obtain ⟨t, ht, hr⟩ := env.ensures_checkReceiver op method reg f r hr
    exact ⟨reg, rest, t, rfl, ht, hr⟩

private theorem assigns_leaveResult {P : RegType → Prop} (method : MethodRef) (f : Frame) :
    (env.leaveResult method f).Ensures (f.Assigns [] P) := by
  unfold leaveResult
  dsimp only
  split
  · exact ensures_pure.2 (.refl f)
  · refine ensures_guard.2 fun _ => ensures_pure.2 (.setResult ?_)
    exact isComputed_ofDescriptor env.pool _ false

/-! ## All operations -/

/-- What the operation at position `pc` can make of the frame `f`. -/
inductive Outcome (pc : Nat) (f : Frame) : Operation → Frame → Prop where
  /-- An operation that calls no constructor on an uninitialized object writes what it computes. -/
  | computes {o : Operation} {f' : Frame} : (∀ t, ¬o.Constructs f t) →
      env.Computes o.writes f f' → Outcome pc f o f'
  /-- A move writes what is in its source. An object on which no constructor has run is only moved
      as an object. -/
  | copies {form : ValueForm} {dst src : Nat} {f' : Frame} : form.isWide = false →
      f.Assigns [dst] (fun t => f.get? src = some t ∧ (t.isUninitialized = true → form = .object))
        f' → Outcome pc f (.move form dst src) f'
  /-- The new object is marked with its class and position; whatever had that mark before becomes
      unusable. -/
  | allocates {dst : Nat} {d : Descriptor} {f' : Frame} : d.isClass = true →
      (f.invalidate (.uninitialized (.named d) pc)).Assigns [dst]
        (· = .uninitialized (.named d) pc) f' → Outcome pc f (.newInstance dst d) f'
  /-- A constructor that is called on an uninitialized object initializes all copies of it. -/
  | constructs {o : Operation} {t : RegType} {f' : Frame} : o.Constructs f t →
      (f.markInitialized env.pool t).Assigns [] (fun _ => False) f' → Outcome pc f o f'

private theorem outcome_invoke (pc : Nat) (kind : InvokeKind) (form : ArgumentForm)
    (args : List Nat) (method : MethodRef) (f : Frame) :
    (env.invoke kind form args method f).Ensures
      (env.Outcome pc f (.invoke kind form args method)) := by
  refine .bind fun _ hcallee => .seq fun _ => .bind fun r hr => ?_
  have hdirect := env.ensures_checkCallee kind method _ hcallee
  intro f' hf'
  rcases env.ensures_checkRegisters _ _ _ _ _ r hr with ⟨rfl, rfl⟩ | ⟨reg, rest, t, rfl, ht, rfl⟩
  -- a static call has no receiver
  · refine .computes ?_ (env.assigns_leaveResult method f f' hf')
    rintro t ⟨_, _, _, _, ho, -⟩
    cases ho
  -- the receiver was recorded only if it was uninitialized and a constructor was called
  · by_cases hinit : (method.isConstructor && t.isUninitialized) = true
    · rw [if_pos hinit] at hf'
      obtain ⟨hconstructor, huninit⟩ := Bool.and_eq_true_iff.1 hinit
      obtain rfl := hdirect hconstructor
      exact .constructs ⟨form, reg, rest, method, rfl, hconstructor, ht, huninit⟩
        (env.assigns_leaveResult method _ f' hf')
    · rw [if_neg hinit] at hf'
      refine .computes ?_ (env.assigns_leaveResult method f f' hf')
      rintro u ⟨_, _, _, _, ho, hconstructor, hu, huninit⟩
      cases ho
      cases ht.symm.trans hu
      exact hinit (Bool.and_eq_true_iff.2 ⟨hconstructor, huninit⟩)

private theorem outcome_of_computes {pc : Nat} {o : Operation} {r : Report Frame}
    (ho : ∀ kind form args method, o ≠ .invoke kind form args method)
    (h : r.Ensures (env.Computes o.writes f)) : r.Ensures (env.Outcome pc f o) :=
  fun f' hf' => .computes (Operation.not_constructs ho) (h f' hf')

/-- Every operation has one of the outcomes. -/
theorem transfer_outcome {pc : Nat} {o : Operation} (h : (env.transfer pc o f).Yields f') :
    env.Outcome pc f o f' := by
  suffices (env.transfer pc o f).Ensures (env.Outcome pc f o) from this f' h
  have hrefl : (pure f : Report Frame).Ensures (env.Computes [] f) :=
    ensures_pure.2 (computes_refl f)
  cases o with
  | invoke kind form args method => exact env.outcome_invoke pc kind form args method f
  | newInstance dst d =>
    intro f' hf'
    obtain ⟨hclass, hassigns⟩ := env.assigns_newInstance pc dst d f f' hf'
    exact .allocates hclass hassigns
  | move form dst src =>
    intro f' hf'
    rcases env.assigns_move form dst src f f' hf' with ⟨hwide, hcomputes⟩ | ⟨hnarrow, hcopies⟩
    · exact .computes (Operation.not_constructs (by simp)) (by rwa [Operation.writes, hwide])
    · exact .copies hnarrow hcopies
  | nop => exact env.outcome_of_computes (by simp) hrefl
  | goto l => exact env.outcome_of_computes (by simp) hrefl
  | moveResult form dst =>
    exact env.outcome_of_computes (by simp) (env.computes_moveResult form dst f)
  | moveException dst =>
    exact env.outcome_of_computes (by simp) (env.computes_moveException pc dst f)
  | returnVoid => exact env.outcome_of_computes (by simp) (env.computes_returnVoid f)
  | returnValue form src =>
    exact env.outcome_of_computes (by simp) (env.computes_returnValue form src f)
  | constInt dst v =>
    exact env.outcome_of_computes (by simp)
      (env.ensures_writeSingle (delivers_of_isComputed (isComputed_constant v _)))
  | constWide dst =>
    have hlow : (low .constant).IsComputed := ⟨⟨trivial, rfl, rfl⟩, rfl⟩
    exact env.outcome_of_computes (by simp) (ensures_ofFrame.2 fun _ hw =>
      assigns_writePair (fun _ => delivers_of_isComputed) (delivers_of_isComputed hlow) hw)
  | constString dst =>
    exact env.outcome_of_computes (by simp) (env.ensures_writeSingle
      (delivers_of_isComputed (isComputed_reference (by decide) true)))
  | constClass dst d => exact env.outcome_of_computes (by simp) (env.computes_constClass dst d f)
  | monitorEnter object =>
    exact env.outcome_of_computes (by simp) (env.computes_monitorEnter object f)
  | monitorExit object =>
    exact env.outcome_of_computes (by simp) (env.computes_monitorExit object f)
  | checkCast object d =>
    exact env.outcome_of_computes (by simp) (env.computes_checkCast object d f)
  | instanceOf dst src d =>
    exact env.outcome_of_computes (by simp) (env.computes_instanceOf dst src d f)
  | arrayLength dst array =>
    exact env.outcome_of_computes (by simp) (env.computes_arrayLength dst array f)
  | newArray dst size d =>
    exact env.outcome_of_computes (by simp) (env.computes_newArray dst size d f)
  | filledNewArray form args d =>
    exact env.outcome_of_computes (by simp) (env.computes_filledNewArray args d f)
  | fillArrayData array width =>
    exact env.outcome_of_computes (by simp) (env.computes_fillArrayData array width f)
  | throwException src =>
    exact env.outcome_of_computes (by simp) (env.computes_throwException src f)
  | switch kind key ls => exact env.outcome_of_computes (by simp) (.seq fun _ => hrefl)
  | compare c dst a b => exact env.outcome_of_computes (by simp) (env.computes_compare c dst a b f)
  | ifPair test a b l => exact env.outcome_of_computes (by simp) (env.computes_ifPair test a b f)
  | ifZero test a l => exact env.outcome_of_computes (by simp) (env.computes_ifZero test a f)
  | array access form value array index =>
    cases access with
    | get =>
      exact env.outcome_of_computes (by simp) (env.computes_arrayGet form value array index f)
    | put =>
      exact env.outcome_of_computes (by simp) (env.computes_arrayPut form value array index f)
  | field access form value object field =>
    exact env.outcome_of_computes (by simp)
      (env.computes_accessField access form value object field f)
  | unary op dst src => exact env.outcome_of_computes (by simp) (env.computes_unary op dst src f)
  | binary op dst a b => exact env.outcome_of_computes (by simp) (env.computes_binary op dst a b f)
  | binaryInPlace op dst b =>
    exact env.outcome_of_computes (by simp) (env.computes_binary op dst dst b f)
  | literal width op dst src v =>
    exact env.outcome_of_computes (by simp) (env.computes_literal op dst src v f)
  | shiftLiteral op dst src v =>
    exact env.outcome_of_computes (by simp) (env.computes_shiftLiteral dst src f)

/-! ## Evolution -/

/-- What an operation does: a constructor that is called on an uninitialized object marks its
    copies, and apart from that the frame only evolves. -/
def Effect (o : Operation) (f f' : Frame) : Prop :=
  (∃ t, o.Constructs f t ∧ (f.markInitialized env.pool t).Evolves env.pool f') ∨
    (∀ t, ¬o.Constructs f t) ∧ f.Evolves env.pool f'

/-- What operations cannot break holds of all types afterwards. -/
theorem Effect.all {o : Operation} {Q : RegType → Prop} (h : env.Effect o f f')
    (hQ : Stable env.pool Q) (hf : f.All Q) : f'.All Q := by
  rcases h with ⟨t, -, h⟩ | ⟨-, h⟩
  · exact h.all hQ ((Frame.evolves_mark env.pool f t).all hQ hf)
  · exact h.all hQ hf

theorem Effect.shape {o : Operation} (h : env.Effect o f f') : f'.shape = f.shape := by
  rcases h with ⟨t, -, h⟩ | ⟨-, h⟩
  · exact h.shape.trans (Frame.evolves_mark env.pool f t).shape
  · exact h.shape

/-- Every operation has the effect that `Effect` allows it. -/
theorem transfer_cases {pc : Nat} {o : Operation} (h : (env.transfer pc o f).Yields f') :
    env.Effect o f f' := by
  cases env.transfer_outcome h with
  | computes hnone hcomputes => exact .inr ⟨hnone, hcomputes.evolves fun _ => (·.supplied)⟩
  | copies _ hcopies =>
    exact .inr ⟨Operation.not_constructs (by simp),
      hcopies.evolves fun _ ht => supplies_of_mem (mem_types_of_get? ht.1)⟩
  | @allocates dst d _ _ hallocates =>
    refine .inr ⟨Operation.not_constructs (by simp),
      (Frame.Evolves.invalidate env.pool f _).trans (hallocates.evolves ?_)⟩
    rintro t rfl
    exact supplies_of_isFresh ⟨trivial, rfl, rfl⟩
  | constructs hconstructs hmarked =>
    exact .inl ⟨_, hconstructs, hmarked.evolves fun _ => False.elim⟩

end Environment

end BytecodeVerifier
