import BytecodeVerifier.Proofs.Transfer

/-!
# What operations demand

An operation is rejected unless it can use the registers that it reads. `Environment.Accepts` says
what follows for a register in a frame in which the operation is accepted: it has been written on
every path, and if it holds an object on which no constructor has run, the operation is one of the
few that put up with that. `Environment.transfer_accepts` shows this for all operations.
-/

namespace BytecodeVerifier

/-- The descriptor of a value is well formed and not void. -/
def Descriptor.isValue (d : Descriptor) : Bool := d.isValid && !d.isVoid

/-! ## Usable types -/

namespace RegType

/-- A value of the type can be used. Arrays are never uninitialized in practice, and some operations
    rely on that. -/
structure IsUsable (t : RegType) : Prop where
  assigned : t.isAssigned = true
  initialized : t.isArray = false → t.isUninitialized = false

/-- A type that an operation asks for: it is that of values that can be used, and does not let every
    reference through. -/
structure IsDemand (t : RegType) : Prop where
  assigned : t.isAssigned = true
  initialized : t.isUninitialized = false
  selective : t ≠ .unresolvedMerged

variable {p : ClassPool} {t u : RegType} {d : Descriptor}

theorem isUsable_of_fitsInt (h : t.fitsInt = true) : t.IsUsable := by
  cases t <;> first | exact ⟨rfl, fun _ => rfl⟩ | exact absurd h Bool.false_ne_true

theorem isUsable_of_fitsFloat (h : t.fitsFloat = true) : t.IsUsable := by
  cases t <;> first | exact ⟨rfl, fun _ => rfl⟩ | exact absurd h Bool.false_ne_true

theorem isUsable_of_isZero (h : t.isZero = true) : t.IsUsable := by
  cases t <;> first | exact ⟨rfl, fun _ => rfl⟩ | simp [isZero, range?] at h

theorem isAssigned_of_isReference (h : t.isReference = true) : t.isAssigned = true := by
  cases t <;> first | rfl | simp [isReference, isZero, range?, isNonNullReference] at h

theorem isUsable_of_isReference (h : t.isReference = true) (hinit : t.isUninitialized = false) :
    t.IsUsable :=
  ⟨isAssigned_of_isReference h, fun _ => hinit⟩

theorem isUsable_of_isArray (h : t.isArray = true) : t.IsUsable := by
  refine ⟨isAssigned_of_isReference ?_, fun hno => absurd (h.symm.trans hno) nofun⟩
  rw [isReference, (Bool.and_eq_true_iff.1 h).1, Bool.or_true]

/-- The two halves of a wide value can be used. -/
theorem isUsable_of_pairsWith (h : t.pairsWith u = true) : t.IsUsable ∧ u.IsUsable := by
  have h : t.highHalf? = some u := by simpa [pairsWith] using h
  cases t with
  | low k =>
    cases h
    exact ⟨⟨rfl, fun _ => rfl⟩, ⟨rfl, fun _ => rfl⟩⟩
  | _ => simp [highHalf?] at h

private theorem isUsable_of_isConstantWithin {lo hi : Int32} (h : t.isConstantWithin lo hi = true) :
    t.IsUsable := by
  cases t <;> first | exact ⟨rfl, fun _ => rfl⟩ | exact absurd h Bool.false_ne_true

private theorem isUsable_of_isReferenceAssignable (h : isReferenceAssignable p t u = true) :
    u.IsUsable := by
  unfold isReferenceAssignable at h
  split at h
  · exact isUsable_of_isZero ‹_›
  · split at h
    · exact nomatch h
    · rename_i href
      -- nothing else is asked of unknown classes, but they too have to be initialized
      split at h
      · exact nomatch h
      · rename_i hinit
        simp only [Bool.or_eq_true, not_or, Bool.not_eq_true] at hinit
        exact isUsable_of_isReference (by simpa using href) hinit.2

/-- What may be used as something demanded can be used. -/
theorem IsDemand.isUsable (ht : t.IsDemand) (h : t.isAssignable p u = true) : u.IsUsable := by
  unfold isAssignable at h
  split at h
  · rename_i heq
    subst heq
    exact ⟨ht.assigned, fun _ => ht.initialized⟩
  · cases t with
    | reference | unresolved | uninitialized | uninitializedThis =>
      exact isUsable_of_isReferenceAssignable h
    | unresolvedMerged => exact absurd rfl ht.selective
    | constant => exact isUsable_of_isConstantWithin h
    | int => exact isUsable_of_fitsInt h
    | float => exact isUsable_of_fitsFloat h
    | undefined | conflict | unissued => exact nomatch h
    -- what is left are types that only primitive values fit
    | boolean | byte | char | short =>
      cases u <;> first
        | exact ⟨rfl, fun _ => rfl⟩
        | simp [fitsBoolean, fitsByte, fitsChar, fitsShort, isConstantWithin, range?] at h
    | low k | high k =>
      cases k <;> cases u <;> first
        | exact ⟨rfl, fun _ => rfl⟩
        | simp [fitsLongLow, fitsLongHigh, fitsDoubleLow, fitsDoubleHigh] at h

theorem isDemand_ofPrimitive (t : Primitive) : (ofPrimitive t).IsDemand := by
  cases t <;> exact ⟨rfl, rfl, nofun⟩

/-- Whatever is declared with a proper type can be asked for. -/
theorem isDemand_ofDescriptor {precise : Bool} (h : ofDescriptor p d precise ≠ .conflict) :
    (ofDescriptor p d precise).IsDemand := by
  have hreference : ofReference p d precise ≠ .conflict → (ofReference p d precise).IsDemand := by
    unfold ofReference
    split
    · exact fun h => absurd rfl h
    · split <;> exact fun _ => ⟨rfl, rfl, nofun⟩
  unfold ofDescriptor at h ⊢
  split at h
  · exact absurd rfl h
  · exact absurd rfl h
  · exact isDemand_ofPrimitive _
  · exact hreference h
  · exact hreference h

/-- Only what is not the descriptor of a value is declared as a conflict. -/
theorem ofDescriptor_eq_conflict_iff {precise : Bool} :
    ofDescriptor p d precise = .conflict ↔ d.isValue = false := by
  have hreference (href : d.isReference = true) : ofReference p d precise ≠ .conflict := by
    rw [ofReference, href, if_neg (by decide)]
    split <;> simp
  unfold ofDescriptor Descriptor.isValue Descriptor.isValid Descriptor.isVoid
  cases hkind : d.kind? with
  | none => simp
  | some kind =>
    cases kind with
    | void => simp
    | primitive t => cases t <;> simp [ofPrimitive]
    | classType | arrayType =>
      have href : d.isReference = true := by
        simp [Descriptor.isReference, hkind, DescriptorKind.isReference]
      simpa using hreference href

/-- A value takes as many registers as its descriptor says. -/
theorem slots_eq_of_ofDescriptor {precise : Bool} (h : ofDescriptor p d precise ≠ .conflict) :
    d.slots = if (ofDescriptor p d precise).isLowHalf then 2 else 1 := by
  unfold ofDescriptor at h ⊢
  unfold Descriptor.slots
  split at h
  · exact absurd rfl h
  · exact absurd rfl h
  · rename_i t hkind
    simp [hkind, DescriptorKind.slots, isLowHalf_ofPrimitive]
  · rename_i hkind
    simp [hkind, DescriptorKind.slots, isLowHalf_ofReference]
  · rename_i hkind
    simp [hkind, DescriptorKind.slots, isLowHalf_ofReference]

end RegType

/-- The value in the register can be used. -/
def Frame.Usable (f : Frame) (reg : Nat) : Prop := ∃ t, f.get? reg = some t ∧ t.IsUsable

/-- Two registers with the halves of a wide value can be used. -/
theorem Frame.usable_of_pairsWith {f : Frame} {reg : Nat} {lo hi : RegType}
    (hlo : f.get? reg = some lo) (hhi : f.get? (reg + 1) = some hi)
    (h : lo.pairsWith hi = true) : ∀ r ∈ extent true reg, f.Usable r := by
  obtain ⟨hlow, hhigh⟩ := RegType.isUsable_of_pairsWith h
  exact List.forall_mem_cons.2 ⟨⟨lo, hlo, hlow⟩, List.forall_mem_singleton.2 ⟨hi, hhi, hhigh⟩⟩

/-! ## Demands -/

namespace Operation

/-- The operation does not look at what it reads the register for. Moving a register in conflict is
    no error yet, and nothing is known of an array whose type is a merge of unknown ones. -/
inductive Unchecked (f : Frame) : Operation → Use → Prop
  | moved {form : ValueForm} {dst src : Nat} : form ≠ .wide →
      Unchecked f (.move form dst src) .moved
  | stored {value base index : Nat} : f.get? base = some .unresolvedMerged →
      Unchecked f (.array .put .object value base index) .stored

/-- The operation puts up with an object of type `t` on which no constructor has run, in a register
    that it reads for this use. -/
inductive Tolerates (p : ClassPool) (m : Method) (f : Frame) (t : RegType) :
    Operation → Use → Prop
  | moved {dst src : Nat} : Tolerates p m f t (.move .object dst src) .moved
  | ifPair {test : Condition} {a b : Nat} {l : Label} : test = .eq ∨ test = .ne →
      Tolerates p m f t (.ifPair test a b l) .tested
  | ifZero {test : Condition} {a : Nat} {l : Label} : test = .eq ∨ test = .ne →
      Tolerates p m f t (.ifZero test a l) .tested
  | monitorEnter {object : Nat} : Tolerates p m f t (.monitorEnter object) .locked
  | monitorExit {object : Nat} : Tolerates p m f t (.monitorExit object) .locked
  /-- A constructor is what the object has been waiting for. -/
  | constructed {form : ArgumentForm} {args : List Nat} {method : MethodRef} :
      method.isConstructor = true → Tolerates p m f t (.invoke .direct form args method) .receiver
  /-- A constructor can set and read the fields of its own class before it calls another one. A
      field that cannot be found belongs to the class that the access names. -/
  | ownField {access : Access} {form : ElementForm} {value object : Nat} {field : FieldRef} :
      t.isUninitializedThis = true → m.isConstructor = true →
      (p.resolveField field.owner field.name field.type).elim field.owner FieldDef.owner = m.owner →
      Tolerates p m f t (.field access form value (some object) field) .object
  | stored {value base index : Nat} : f.get? base = some .unresolvedMerged →
      Tolerates p m f t (.array .put .object value base index) .stored

variable {p : ClassPool} {m : Method} {f g : Frame} {t : RegType} {o : Operation} {use : Use}

theorem Unchecked.congr (hget : f.get? = g.get?) (h : o.Unchecked f use) : o.Unchecked g use := by
  cases h with
  | moved hform => exact .moved hform
  | stored hbase => exact .stored (hget ▸ hbase)

theorem Tolerates.congr (hget : f.get? = g.get?) (h : o.Tolerates p m f t use) :
    o.Tolerates p m g t use := by
  cases h with
  | stored hbase => exact .stored (hget ▸ hbase)
  | _ => constructor <;> assumption

end Operation

namespace Environment

open ReportT RegType

variable (env : Environment) {f f' : Frame} {o : Operation} {t : RegType} {reg : Nat}

/-- The operation can do in frame `f` what it reads the register for. -/
structure Accepts (f : Frame) (o : Operation) (u : Use × Nat) : Prop where
  assigned : ¬o.Unchecked f u.1 → ∃ t, f.get? u.2 = some t ∧ t.isAssigned = true
  initialized {t : RegType} : f.get? u.2 = some t → t.isUninitialized = true → t.isArray = false →
    o.Tolerates env.pool env.method f t u.1

variable {env} in
/-- Only the registers of a frame matter. -/
theorem Accepts.congr {g : Frame} {u : Use × Nat} (hget : f.get? = g.get?)
    (h : env.Accepts f o u) : env.Accepts g o u where
  assigned hchecked := by
    rw [← hget]
    exact h.assigned fun hno => hchecked (hno.congr hget)
  initialized ht huninit harray := (h.initialized (hget ▸ ht) huninit harray).congr hget

variable {env} in
private theorem accepts_of_usable {u : Use × Nat} (h : f.Usable u.2) : env.Accepts f o u := by
  obtain ⟨t, ht, husable⟩ := h
  refine ⟨fun _ => ⟨t, ht, husable.assigned⟩, fun {t'} ht' huninit harray => ?_⟩
  cases ht.symm.trans ht'
  exact absurd (huninit.symm.trans (husable.initialized harray)) nofun

variable {env} in
private theorem accepts_map {use : Use} {regs : List Nat} (h : ∀ r ∈ regs, f.Usable r) :
    ∀ u ∈ regs.map (use, ·), env.Accepts f o u :=
  List.forall_mem_map.2 fun r hr => accepts_of_usable (h r hr)

variable {env} in
/-- A register that holds a reference can be read by an operation that puts up with any. -/
private theorem accepts_of_tolerates {u : Use × Nat} (ht : f.get? u.2 = some t)
    (href : t.isReference = true) (h : o.Tolerates env.pool env.method f t u.1) :
    env.Accepts f o u := by
  refine ⟨fun _ => ⟨t, ht, isAssigned_of_isReference href⟩, fun {t'} ht' _ _ => ?_⟩
  cases ht.symm.trans ht'
  exact h

private theorem ensures_expectSingle {expected : RegType} (he : expected.IsDemand) :
    (env.expectSingle f reg expected).Ensures fun _ => f.Usable reg := by
  refine .bind fun t ht => ?_
  have ht := get?_of_read ht
  split
  · exact ensures_pure.2 ⟨t, ht, he.isUsable ‹_›⟩
  -- what does not fit may still be left to the check at run time, if it is initialized
  · split
    · rename_i hrecheck
      simp only [isRecheckable, Bool.and_eq_true, Bool.not_eq_true'] at hrecheck
      have href : t.isReference = true := by rw [isReference, hrecheck.1.1.2, Bool.or_true]
      exact fun _ _ => ⟨t, ht, isUsable_of_isReference href hrecheck.2⟩
    · exact ensures_reject _

/-- Both registers of a wide value are checked. -/
private theorem ensures_expectPair (reg : Nat) (expected : RegType) (f : Frame) :
    (env.expectPair f reg expected).Ensures fun _ => ∀ r ∈ extent true reg, f.Usable r := by
  refine .bind fun holds hholds => ?_
  split
  · rename_i hyes
    subst hyes
    obtain ⟨lo, hlo, hrest⟩ := bind_eq_ok.1 (yields_ofFrame.1 hholds)
    obtain ⟨next, hnext, hrest⟩ := bind_eq_ok.1 hrest
    obtain ⟨hi, hhi, hpair⟩ := bind_eq_ok.1 hrest
    obtain rfl := Frame.next_eq_ok hnext
    have hpairs := (Bool.and_eq_true_iff.1 (Except.ok.inj hpair)).2
    exact ensures_pure.2
      (Frame.usable_of_pairsWith (Frame.read_eq_ok.1 hlo) (Frame.read_eq_ok.1 hhi) hpairs)
  -- a mismatch is rejected in any case; the registers are read again only to name it
  · exact .seq fun _ => .seq fun _ => ensures_reject _

private theorem ensures_expect {expected : RegType} {wide : Bool} (he : expected.IsDemand)
    (hwide : expected.isLowHalf = wide) :
    (env.expect f reg expected).Ensures fun _ => ∀ r ∈ extent wide reg, f.Usable r := by
  unfold expect
  rw [hwide]
  cases wide with
  | true => exact env.ensures_expectPair reg expected f
  | false =>
    intro _ h r hr
    obtain rfl := List.mem_singleton.1 hr
    exact env.ensures_expectSingle he _ h

private theorem ensures_expectPrimitive (t : Primitive) :
    (env.expectPrimitive f reg t).Ensures fun _ => ∀ r ∈ extent t.isWide reg, f.Usable r :=
  env.ensures_expect (isDemand_ofPrimitive t) (isLowHalf_ofPrimitive t)

private theorem ensures_expectInt : (env.expectSingle f reg .int).Ensures fun _ => f.Usable reg :=
  env.ensures_expectSingle (isDemand_ofPrimitive .int)

/-! ## Values -/

private theorem accepts_move (form : ValueForm) (dst src : Nat) (f : Frame) :
    (move form dst src f).Ensures fun _ =>
      ∀ u ∈ (Operation.move form dst src).uses, env.Accepts f (.move form dst src) u := by
  unfold move
  cases form with
  | wide =>
    refine .bind fun lo hlo => .bind fun hi hhi => ensures_guard.2 fun hpair => ?_
    exact fun _ _ => accepts_map
      (Frame.usable_of_pairsWith (get?_of_read hlo) (get?_of_read hhi) (by simpa using hpair))
  | object =>
    refine fun _ _ => List.forall_mem_map.2 fun r hr => ?_
    exact ⟨fun hchecked => absurd (.moved nofun) hchecked, fun _ _ _ => .moved⟩
  | single =>
    refine .bind fun t ht => ensures_guard.2 fun hfits => ?_
    refine fun _ _ => List.forall_mem_map.2 fun r hr => ?_
    refine ⟨fun hchecked => absurd (.moved nofun) hchecked, fun {t'} ht' huninit _ => ?_⟩
    -- neither a conflict nor a number is an uninitialized object
    obtain rfl := List.mem_singleton.1 hr
    cases (get?_of_read ht).symm.trans ht'
    cases t <;> simp_all [isConflict, isSingle.eq_def, isUninitialized]

private theorem usable_checkReturnSingle {ret : RegType} (hret : ret.IsDemand) :
    (env.checkReturnSingle f reg ret).Ensures fun _ => f.Usable reg := by
  refine .bind fun t ht => ?_
  split
  · rename_i hint
    simp only [Bool.and_eq_true, decide_eq_true_eq] at hint
    exact ensures_pure.2 ⟨t, get?_of_read ht, hint.2 ▸ isUsable_of_fitsInt rfl⟩
  · exact env.ensures_expectSingle hret

private theorem usable_checkReturnObject (ret : RegType) (reg : Nat) (f : Frame) :
    (env.checkReturnObject f reg ret).Ensures fun _ => f.Usable reg := by
  refine .bind fun t ht => ensures_guard.2 fun hinit => ?_
  split
  · exact ensures_reject _
  · rename_i href
    simp only [Bool.or_eq_true, Bool.not_eq_true', not_or, Bool.not_eq_false] at href
    exact ensures_pure.2 ⟨t, get?_of_read ht,
      isUsable_of_isReference href.1 (Bool.eq_false_iff.2 hinit)⟩

private theorem usable_returnValue (form : ValueForm) (src : Nat) (f : Frame) :
    (env.returnValue form src f).Ensures fun _ => ∀ r ∈ extent form.isWide src, f.Usable r := by
  unfold returnValue
  refine ensures_guard.2 fun hfits => ?_
  cases form with
  | wide => exact .bind fun _ h => fun _ _ => env.ensures_expectPair src _ f _ h
  | object =>
    exact .bind fun _ h => fun _ _ =>
      List.forall_mem_singleton.2 (env.usable_checkReturnObject _ src f _ h)
  | single =>
    have hret : (ofDescriptor env.pool env.method.proto.ret false).IsDemand := by
      refine isDemand_ofDescriptor fun hconflict => ?_
      simp [hconflict, isSingle.eq_def] at hfits
    exact .bind fun _ h => fun _ _ =>
      List.forall_mem_singleton.2 (env.usable_checkReturnSingle hret _ h)

private theorem ensures_checkMonitorOwner (op : Opcode) (object : Nat) (f : Frame) :
    (checkMonitorOwner op object f).Ensures fun _ =>
      ∃ t, f.get? object = some t ∧ t.isReference = true := by
  refine .bind fun t ht => ?_
  split
  · exact ensures_reject _
  · rename_i href
    exact ensures_pure.2 ⟨t, get?_of_read ht, by simpa using href⟩

private theorem usable_throwException (src : Nat) (f : Frame) :
    (env.throwException src f).Ensures fun _ => f.Usable src := by
  refine .bind fun t ht => ?_
  have ht := get?_of_read ht
  split
  · exact ensures_pure.2 ⟨t, ht, isUsable_of_isZero ‹_›⟩
  · refine ensures_guard.2 fun hinit => ensures_guard.2 fun href => fun _ _ => ⟨t, ht, ?_⟩
    exact isUsable_of_isReference (by simpa using href) (Bool.eq_false_iff.2 hinit)

/-- Equality is tested of references, initialized or not, and of integral values. -/
private theorem accepts_tested {u : Use × Nat} (ht : f.get? u.2 = some t)
    (h : t.isReference = true ∨ t.fitsInt = true)
    (htolerates : o.Tolerates env.pool env.method f t u.1) : env.Accepts f o u := by
  rcases h with href | hint
  · exact accepts_of_tolerates ht href htolerates
  · exact accepts_of_usable ⟨t, ht, isUsable_of_fitsInt hint⟩

private theorem accepts_ifPair (test : Condition) (a b : Nat) (l : Label) (f : Frame) :
    (env.ifPair test a b f).Ensures fun _ =>
      ∀ u ∈ (Operation.ifPair test a b l).uses, env.Accepts f (.ifPair test a b l) u := by
  unfold ifPair
  cases test with
  | eq | ne =>
    refine .bind fun ta hta => .bind fun tb htb => ensures_guard.2 fun hcompared => ?_
    have hkinds : (ta.isReference = true ∨ ta.fitsInt = true) ∧
        (tb.isReference = true ∨ tb.fitsInt = true) := by
      simp only [Bool.not_eq_true', Bool.not_eq_false, Bool.or_eq_true, Bool.and_eq_true]
        at hcompared
      exact ⟨hcompared.imp And.left And.left, hcompared.imp And.right And.right⟩
    exact ensures_pure.2 (List.forall_mem_cons.2
      ⟨env.accepts_tested (get?_of_read hta) hkinds.1 (.ifPair (by simp)),
        List.forall_mem_singleton.2
          (env.accepts_tested (get?_of_read htb) hkinds.2 (.ifPair (by simp)))⟩)
  | lt | ge | gt | le =>
    refine .bind fun _ ha => .bind fun _ hb => ensures_pure.2 ?_
    exact List.forall_mem_cons.2 ⟨accepts_of_usable (env.ensures_expectInt _ ha),
      List.forall_mem_singleton.2 (accepts_of_usable (env.ensures_expectInt _ hb))⟩

private theorem accepts_ifZero (test : Condition) (a : Nat) (l : Label) (f : Frame) :
    (env.ifZero test a f).Ensures fun _ =>
      ∀ u ∈ (Operation.ifZero test a l).uses, env.Accepts f (.ifZero test a l) u := by
  unfold ifZero
  cases test with
  | eq | ne =>
    refine .bind fun t ht => ensures_guard.2 fun hcompared => ensures_pure.2 ?_
    have hkind : t.isReference = true ∨ t.fitsInt = true := by
      simpa only [Bool.not_eq_true', Bool.not_eq_false, Bool.or_eq_true] using hcompared
    exact List.forall_mem_singleton.2
      (env.accepts_tested (get?_of_read ht) hkind (.ifZero (by simp)))
  | lt | ge | gt | le =>
    refine .bind fun _ ha => ensures_pure.2 ?_
    exact List.forall_mem_singleton.2 (accepts_of_usable (env.ensures_expectInt _ ha))

private theorem usable_compare (c : Comparison) (dst a b : Nat) (f : Frame) :
    (env.compare c dst a b f).Ensures fun _ =>
      ∀ r ∈ extent c.operand.isWide a ++ extent c.operand.isWide b, f.Usable r :=
  .bind fun _ ha => .bind fun _ hb => fun _ _ => List.forall_mem_append.2
    ⟨env.ensures_expectPrimitive _ _ ha, env.ensures_expectPrimitive _ _ hb⟩

private theorem usable_unary (op : UnaryOp) (dst src : Nat) (f : Frame) :
    (env.unary op dst src f).Ensures fun _ => ∀ r ∈ extent op.source.isWide src, f.Usable r :=
  .bind fun _ h => fun _ _ => env.ensures_expectPrimitive _ _ h

private theorem usable_binary (op : BinaryOp) (dst a b : Nat) (f : Frame) :
    (env.binary op dst a b f).Ensures fun _ =>
      ∀ r ∈ extent op.target.isWide a ++ extent op.second.isWide b, f.Usable r :=
  .bind fun _ ha => .bind fun _ hb => fun _ _ => List.forall_mem_append.2
    ⟨env.ensures_expectPrimitive _ _ ha, env.ensures_expectPrimitive _ _ hb⟩

private theorem usable_literal (op : LiteralOp) (dst src : Nat) (v : Int32) (f : Frame) :
    (env.literal op dst src v f).Ensures fun _ => f.Usable src :=
  .bind fun _ h => fun _ _ => env.ensures_expectInt _ h

private theorem usable_shiftLiteral (dst src : Nat) (f : Frame) :
    (env.shiftLiteral dst src f).Ensures fun _ => f.Usable src :=
  .bind fun _ h => fun _ _ => env.ensures_expectInt _ h

/-! ## Objects and arrays -/

private theorem usable_checkCastOperand (op : Opcode) (src : Nat) (d : Descriptor) (f : Frame) :
    (env.checkCastOperand op src d f).Ensures fun _ => f.Usable src := by
  refine ensures_guard.2 fun _ => .seq fun _ => .bind fun t ht => ensures_guard.2 fun href => ?_
  split
  · exact ensures_reject _
  · rename_i hinit
    exact ensures_pure.2 ⟨t, get?_of_read ht,
      isUsable_of_isReference (by simpa using href) (Bool.eq_false_iff.2 hinit)⟩

private theorem usable_arrayLength (dst base : Nat) (f : Frame) :
    (arrayLength dst base f).Ensures fun _ => f.Usable base := by
  refine .bind fun t ht => ensures_guard.2 fun harray => fun _ _ => ⟨t, get?_of_read ht, ?_⟩
  simp only [Bool.not_eq_true', Bool.not_eq_false, Bool.or_eq_true] at harray
  exact harray.elim isUsable_of_isZero isUsable_of_isArray

private theorem usable_newArray (dst size : Nat) (d : Descriptor) (f : Frame) :
    (env.newArray dst size d f).Ensures fun _ => f.Usable size :=
  ensures_guard.2 fun _ => .seq fun _ => .bind fun _ h => fun _ _ => env.ensures_expectInt _ h

private theorem ofDescriptor_ne_conflict {p : ClassPool} {d : Descriptor}
    (h : isFillable d = true) : ofDescriptor p d false ≠ .conflict := by
  rw [ne_eq, ofDescriptor_eq_conflict_iff, Bool.not_eq_false]
  unfold isFillable Descriptor.isReference at h
  unfold Descriptor.isValue Descriptor.isValid Descriptor.isVoid
  cases hkind : d.kind? with
  | none => simp [hkind] at h
  | some kind => cases kind <;> simp_all [DescriptorKind.isReference]

private theorem usable_filledNewArray (args : List Nat) (d : Descriptor) (f : Frame) :
    (env.filledNewArray args d f).Ensures fun _ => ∀ r ∈ args, f.Usable r := by
  unfold filledNewArray
  split
  · exact ensures_reject _
  · refine ensures_guard.2 fun hfillable => .seq fun _ => .bind fun _ h => fun _ _ => ?_
    have hdemand := isDemand_ofDescriptor
      (ofDescriptor_ne_conflict (p := env.pool) (by simpa using hfillable))
    exact ensures_forM args (fun _ => env.ensures_expectSingle hdemand) _ h

private theorem usable_fillArrayData (base : Nat) (width : UInt8) (f : Frame) :
    (fillArrayData base width f).Ensures fun _ => f.Usable base := by
  refine .bind fun t ht => ?_
  have ht := get?_of_read ht
  split
  · exact ensures_pure.2 ⟨t, ht, isUsable_of_isZero ‹_›⟩
  · exact ensures_guard.2 fun harray => fun _ _ =>
      ⟨t, ht, isUsable_of_isArray (by simpa using harray)⟩

private theorem usable_checkIndex (index : Nat) (f : Frame) :
    (checkIndex index f).Ensures fun _ => f.Usable index := by
  refine .bind fun t ht => ?_
  split
  · exact ensures_reject _
  · rename_i hint
    exact ensures_pure.2 ⟨t, get?_of_read ht, isUsable_of_fitsInt (by simpa using hint)⟩

private theorem usable_arrayGet (form : ElementForm) (dst base index : Nat) (f : Frame) :
    (env.arrayGet form dst base index f).Ensures fun _ => f.Usable base ∧ f.Usable index := by
  refine .bind fun _ hindex => .bind fun t ht => ?_
  have hindex := usable_checkIndex index f _ hindex
  have ht := get?_of_read ht
  split
  · exact fun _ _ => ⟨⟨t, ht, isUsable_of_isZero ‹_›⟩, hindex⟩
  split
  · exact fun _ _ => ⟨⟨t, ht, ‹t = .unresolvedMerged› ▸ ⟨rfl, fun _ => rfl⟩⟩, hindex⟩
  · exact ensures_guard.2 fun harray => fun _ _ =>
      ⟨⟨t, ht, isUsable_of_isArray (by simpa using harray)⟩, hindex⟩

/-- A primitive value that is stored has both its halves checked if it is wide. -/
private theorem usable_store {stored : RegType} {v : Violation}
    (hstored : f.get? reg = some stored) :
    ReportT.Ensures (if t.isLowHalf then env.expectPair f reg t
      else if !canStore t stored then reject v else pure ())
      fun _ => ∀ r ∈ extent t.isLowHalf reg, f.Usable r := by
  cases t.isLowHalf with
  | true => exact env.ensures_expectPair reg t f
  | false =>
    refine fun u h => List.forall_mem_singleton.2 ⟨stored, hstored, ?_⟩
    by_cases hcan : canStore t stored = true
    · unfold canStore at hcan
      split at hcan
      · exact isUsable_of_fitsFloat hcan
      · exact isUsable_of_fitsInt hcan
    · simp [hcan] at h

theorem isDemand_storedToNull (form : ElementForm) (value : RegType) :
    (storedToNull form value).IsDemand ∧ (storedToNull form value).isLowHalf = form.isWide := by
  cases form with
  | single | wide =>
    unfold storedToNull
    dsimp only
    split <;> exact ⟨⟨rfl, rfl, nofun⟩, rfl⟩
  | _ => exact ⟨⟨rfl, rfl, nofun⟩, rfl⟩

private theorem isDemand_object : object.IsDemand := ⟨rfl, rfl, nofun⟩

private theorem usable_storeObject (value : Nat) (array component : RegType) (f : Frame) :
    (env.storeObject value array component f).Ensures fun _ => f.Usable value :=
  ensures_guard.2 fun _ => .bind fun _ h => fun _ _ => env.ensures_expectSingle isDemand_object _ h

private theorem usable_storePrimitive (form : ElementForm) (value : Nat)
    (array component : RegType) (f : Frame) :
    (env.storePrimitive form value array component f).Ensures fun _ =>
      ∀ r ∈ extent form.isWide value, f.Usable r := by
  refine ensures_guard.2 fun htouches => .bind fun stored hstored => ?_
  rw [← ElementForm.isLowHalf_of_touches (by simpa using htouches)]
  exact env.usable_store (get?_of_read hstored)

private theorem accepts_arrayPut (form : ElementForm) (value base index : Nat) (f : Frame) :
    (env.arrayPut form value base index f).Ensures fun _ =>
      ∀ u ∈ (Operation.array .put form value base index).uses,
        env.Accepts f (.array .put form value base index) u := by
  refine .bind fun _ hindex => .bind fun t ht => ?_
  have hindex := usable_checkIndex index f _ hindex
  have ht := get?_of_read ht
  have hpositions (husable : t.IsUsable) : ∀ u ∈ [(Use.array, base), (Use.index, index)],
      env.Accepts f (.array .put form value base index) u :=
    List.forall_mem_cons.2 ⟨accepts_of_usable ⟨t, ht, husable⟩,
      List.forall_mem_singleton.2 (accepts_of_usable hindex)⟩
  split
  · refine .bind fun stored _ => .bind fun _ h => ensures_pure.2 ?_
    obtain ⟨hdemand, hwide⟩ := isDemand_storedToNull form stored
    exact List.forall_mem_append.2
      ⟨accepts_map (env.ensures_expect hdemand hwide _ h), hpositions (isUsable_of_isZero ‹_›)⟩
  split
  -- the value stored is not looked at
  · rename_i hmerged
    refine ensures_guard.2 fun hform => .seq fun _ => ensures_pure.2 ?_
    obtain rfl := not_not.1 hform
    subst hmerged
    refine List.forall_mem_append.2 ⟨List.forall_mem_map.2 fun r _ => ?_,
      hpositions ⟨rfl, fun _ => rfl⟩⟩
    exact ⟨fun hchecked => absurd (.stored ht) hchecked, fun _ _ _ => .stored ht⟩
  · refine ensures_guard.2 fun harray => ?_
    have hpositions := hpositions (isUsable_of_isArray (by simpa using harray))
    split
    · rename_i hform
      subst hform
      refine .bind fun _ h => ensures_pure.2 (List.forall_mem_append.2 ⟨?_, hpositions⟩)
      exact List.forall_mem_singleton.2 (accepts_of_usable (env.usable_storeObject _ _ _ _ _ h))
    · refine .bind fun _ h => ensures_pure.2 (List.forall_mem_append.2 ⟨?_, hpositions⟩)
      exact accepts_map (env.usable_storePrimitive _ _ _ _ _ _ h)

/-! ## Fields -/

private theorem ensures_fieldOwner (access : Access) (place : FieldPlace) (field : FieldRef) :
    (env.fieldOwner access place field).Ensures
      (· = (env.pool.resolveField field.owner field.name field.type).elim field.owner
        FieldDef.owner) := by
  unfold fieldOwner
  dsimp only
  split
  · rename_i hnone
    exact .seq fun _ => ensures_pure.2 (by rw [hnone]; rfl)
  · rename_i hsome
    refine ensures_guard.2 fun _ => ensures_guard.2 fun _ => ensures_guard.2 fun _ => ?_
    exact ensures_pure.2 (by rw [hsome]; rfl)

private theorem accepts_checkFieldObject (access : Access) (form : ElementForm) (value object : Nat)
    {owner : Descriptor} (field : FieldRef) (f : Frame) (howner : owner =
      (env.pool.resolveField field.owner field.name field.type).elim field.owner FieldDef.owner) :
    (env.checkFieldObject field owner object f).Ensures fun _ =>
      env.Accepts f (.field access form value (some object) field) (.object, object) := by
  refine .bind fun t ht => ensures_guard.2 fun href => ?_
  have ht := get?_of_read ht
  have href : t.isReference = true := by simpa using href
  split
  · intro _ h
    -- an uninitialized object passes only as the receiver of a constructor with a field of its own
    by_cases hown : (t.isUninitializedThis && env.method.isConstructor &&
        owner == env.method.owner) = true
    · simp only [Bool.and_eq_true, beq_iff_eq] at hown
      exact accepts_of_tolerates ht href
        (.ownField hown.1.1 hown.1.2 (howner.symm.trans hown.2))
    · simp [hown] at h
  · rename_i hinit
    exact fun _ _ => accepts_of_usable
      ⟨t, ht, isUsable_of_isReference href (Bool.eq_false_iff.2 hinit)⟩

private theorem usable_writeField (op : Opcode) (form : ElementForm) (value : Nat)
    (field : FieldRef) (f : Frame) (hdemand : t.IsDemand) :
    (env.writeField op form value field t f).Ensures fun _ =>
      ∀ r ∈ extent form.isWide value, f.Usable r := by
  unfold writeField
  split
  · rename_i hform
    subst hform
    exact ensures_guard.2 fun _ => fun _ h =>
      List.forall_mem_singleton.2 (env.ensures_expectSingle hdemand _ h)
  · refine ensures_guard.2 fun htouches => .bind fun stored hstored => ?_
    rw [← ElementForm.isLowHalf_of_touches (by simpa using htouches)]
    exact env.usable_store (get?_of_read hstored)

private theorem accepts_accessField (access : Access) (form : ElementForm) (value : Nat)
    (object : Option Nat) (field : FieldRef) (f : Frame) :
    (env.accessField access form value object field f).Ensures fun _ =>
      ∀ u ∈ (Operation.field access form value object field).uses,
        env.Accepts f (.field access form value object field) u := by
  refine .seq fun _ => .bind fun owner hyields => ensures_guard.2 fun hconflict => ?_
  have howner := env.ensures_fieldOwner _ _ field _ hyields
  have hstored : (env.writeField (.field (if object.isSome then .instanceField else .staticField)
      access form) form value field (ofDescriptor env.pool field.type false) f).Ensures fun _ =>
      ∀ u ∈ (extent form.isWide value).map (Use.stored, ·),
        env.Accepts f (.field access form value object field) u :=
    fun _ h => accepts_map (env.usable_writeField _ _ _ _ _ (isDemand_ofDescriptor hconflict) _ h)
  cases object with
  | none =>
    cases access with
    | get => exact fun _ _ => by simp [Operation.uses]
    | put =>
      exact .bind fun _ h => fun _ _ => List.forall_mem_append.2 ⟨hstored _ h, by simp⟩
  | some reg =>
    refine .bind fun _ h => ?_
    have hobject := env.accepts_checkFieldObject access form value reg field f howner _ h
    cases access with
    | get => exact fun _ _ => List.forall_mem_singleton.2 hobject
    | put =>
      exact .bind fun _ h => fun _ _ =>
        List.forall_mem_append.2 ⟨hstored _ h, List.forall_mem_singleton.2 hobject⟩

/-! ## Calls -/

/-- An argument is checked in all registers that its type takes. -/
private theorem usable_checkArgument (method : MethodRef) (param : Descriptor) (regs : List Nat)
    (f : Frame) : (env.checkArgument method param regs f).Ensures fun _ =>
      ∀ r ∈ regs.take param.slots, f.Usable r := by
  unfold checkArgument
  cases regs with
  | nil => exact ensures_reject _
  | cons reg rest =>
    refine ensures_guard.2 fun hconflict => ?_
    rw [slots_eq_of_ofDescriptor hconflict]
    split
    · cases rest with
      | nil => exact ensures_reject _
      | cons hi rest =>
        refine ensures_guard.2 fun hnext => ?_
        obtain rfl : hi = reg + 1 := not_not.1 hnext
        exact env.ensures_expectPair reg _ f
    · exact fun _ h => List.forall_mem_singleton.2
        (env.ensures_expectSingle (isDemand_ofDescriptor hconflict) _ h)

private theorem usable_checkArguments (method : MethodRef) (f : Frame) (params : List Descriptor)
    (regs : List Nat) (hlength : regs.length ≤ params.foldr (fun d n => d.slots + n) 0) :
    (env.checkArguments method f params regs).Ensures fun _ => ∀ r ∈ regs, f.Usable r := by
  induction params generalizing regs with
  | nil =>
    obtain rfl := List.length_eq_zero_iff.1 (Nat.le_zero.1 hlength)
    exact fun _ _ => by simp
  -- the registers are consumed argument by argument, and the length of the call leaves none over
  | cons param params ih =>
    have hrest : (regs.drop param.slots).length ≤ params.foldr (fun d n => d.slots + n) 0 := by
      rw [List.length_drop]
      rw [List.foldr_cons] at hlength
      omega
    refine .bind fun _ hfirst => fun u hrest' => ?_
    rw [← List.take_append_drop param.slots regs]
    exact List.forall_mem_append.2
      ⟨env.usable_checkArgument method param regs f _ hfirst, ih _ hrest u hrest'⟩

private theorem accepts_checkReceiver (kind : InvokeKind) (form : ArgumentForm) (args : List Nat)
    (method : MethodRef) (op : Opcode) (reg : Nat) (f : Frame)
    (hdirect : method.isConstructor = true → kind = .direct) :
    (env.checkReceiver op method reg f).Ensures fun _ =>
      env.Accepts f (.invoke kind form args method) (.receiver, reg) := by
  refine .bind fun t ht => ensures_guard.2 fun href => ?_
  have ht := get?_of_read ht
  have href : t.isReference = true := by simpa using href
  split
  · rename_i hconstructor
    obtain rfl := hdirect hconstructor
    exact fun _ _ => accepts_of_tolerates ht href (.constructed hconstructor)
  · refine .bind fun _ h => fun _ _ => accepts_of_usable ⟨t, ht, ?_⟩
    have hinstance : (env.checkInstance op method reg t).Ensures
        fun _ => t.isUninitialized = false :=
      ensures_guard.2 fun hinit _ _ => Bool.eq_false_iff.2 hinit
    exact isUsable_of_isReference href (hinstance _ h)

private theorem accepts_checkRegisters (kind : InvokeKind) (form : ArgumentForm) (args : List Nat)
    (method : MethodRef) (op : Opcode) (f : Frame)
    (hdirect : method.isConstructor = true → kind = .direct) :
    (env.checkRegisters kind op args method f).Ensures fun _ =>
      ∀ u ∈ (Operation.invoke kind form args method).uses,
        env.Accepts f (.invoke kind form args method) u := by
  refine ensures_guard.2 fun hlength => ?_
  have hlength := not_not.1 hlength
  split
  · rename_i hstatic
    subst hstatic
    refine .bind fun _ h => fun _ _ => accepts_map ?_
    exact env.usable_checkArguments method f _ args (Nat.le_of_eq hlength) _ h
  · rename_i hstatic
    cases args with
    | nil => exact ensures_reject _
    | cons reg rest =>
      have huses : (Operation.invoke kind form (reg :: rest) method).uses =
          (.receiver, reg) :: rest.map (.argument, ·) := by
        cases kind <;> first | rfl | exact absurd rfl hstatic
      have hrest : rest.length ≤ method.proto.argSlots := by
        rw [if_neg hstatic, List.length_cons] at hlength
        omega
      rw [huses]
      refine .bind fun _ hreceiver => .bind fun _ h => fun _ _ => List.forall_mem_cons.2 ⟨?_, ?_⟩
      · exact env.accepts_checkReceiver kind form _ method op reg f hdirect _ hreceiver
      · exact accepts_map (env.usable_checkArguments method f _ rest hrest _ h)

private theorem accepts_invoke (kind : InvokeKind) (form : ArgumentForm) (args : List Nat)
    (method : MethodRef) (f : Frame) :
    (env.invoke kind form args method f).Ensures fun _ =>
      ∀ u ∈ (Operation.invoke kind form args method).uses,
        env.Accepts f (.invoke kind form args method) u := by
  refine .bind fun _ hcallee => .seq fun _ => .bind fun _ h => fun _ _ => ?_
  have hdirect := env.ensures_checkCallee kind method _ hcallee
  exact env.accepts_checkRegisters kind form args method _ f hdirect _ h

/-! ## All operations -/

private theorem accepts_of_tagged {use : Use} {regs : List Nat} {r : Report Frame}
    (h : r.Ensures fun _ => ∀ reg ∈ regs, f.Usable reg) :
    r.Ensures fun _ => ∀ u ∈ regs.map (use, ·), env.Accepts f o u :=
  fun f' hf' => accepts_map (h f' hf')

private theorem accepts_of_single {use : Use} {r : Report Frame}
    (h : r.Ensures fun _ => f.Usable reg) :
    r.Ensures fun _ => ∀ u ∈ [(use, reg)], env.Accepts f o u :=
  fun f' hf' => List.forall_mem_singleton.2 (accepts_of_usable (h f' hf'))

/-- An operation that is not rejected can do what it reads its registers for. -/
theorem transfer_accepts {pc : Nat} (h : (env.transfer pc o f).Yields f') :
    ∀ u ∈ o.uses, env.Accepts f o u := by
  suffices (env.transfer pc o f).Ensures fun _ => ∀ u ∈ o.uses, env.Accepts f o u from this f' h
  have hmonitor {use : Use} {op : Opcode} {object : Nat} {k : PUnit → Report Frame}
      (htolerates : ∀ t, o.Tolerates env.pool env.method f t use) :
      (checkMonitorOwner op object f >>= k).Ensures
        fun _ => ∀ u ∈ [(use, object)], env.Accepts f o u := by
    refine .bind fun _ h => fun _ _ => List.forall_mem_singleton.2 ?_
    obtain ⟨t, ht, href⟩ := ensures_checkMonitorOwner op object f _ h
    exact accepts_of_tolerates ht href (htolerates t)
  cases o with
  | nop | goto | moveResult | moveException | returnVoid | constInt | constWide | constString
  | constClass | newInstance => exact fun _ _ => by simp [Operation.uses]
  | move form dst src => exact env.accepts_move form dst src f
  | returnValue form src => exact env.accepts_of_tagged (env.usable_returnValue form src f)
  | monitorEnter object => exact hmonitor fun _ => .monitorEnter
  | monitorExit object => exact hmonitor fun _ => .monitorExit
  | checkCast object d =>
    exact env.accepts_of_single
      (.bind fun _ h => fun _ _ => env.usable_checkCastOperand _ object d f _ h)
  | instanceOf dst src d =>
    exact env.accepts_of_single
      (.bind fun _ h => fun _ _ => env.usable_checkCastOperand _ src d f _ h)
  | arrayLength dst base => exact env.accepts_of_single (usable_arrayLength dst base f)
  | newArray dst size d => exact env.accepts_of_single (env.usable_newArray dst size d f)
  | filledNewArray form args d => exact env.accepts_of_tagged (env.usable_filledNewArray args d f)
  | fillArrayData base width => exact env.accepts_of_single (usable_fillArrayData base width f)
  | throwException src => exact env.accepts_of_single (env.usable_throwException src f)
  | switch kind key ls =>
    exact env.accepts_of_single (.bind fun _ h => fun _ _ => env.ensures_expectInt _ h)
  | compare c dst a b => exact env.accepts_of_tagged (env.usable_compare c dst a b f)
  | ifPair test a b l => exact env.accepts_ifPair test a b l f
  | ifZero test a l => exact env.accepts_ifZero test a l f
  | array access form value base index =>
    cases access with
    | put => exact env.accepts_arrayPut form value base index f
    | get =>
      intro f' hf'
      obtain ⟨hbase, hindex⟩ := env.usable_arrayGet form value base index f f' hf'
      exact List.forall_mem_cons.2
        ⟨accepts_of_usable hbase, List.forall_mem_singleton.2 (accepts_of_usable hindex)⟩
  | field access form value object field =>
    exact env.accepts_accessField access form value object field f
  | invoke kind form args method => exact env.accepts_invoke kind form args method f
  | unary op dst src => exact env.accepts_of_tagged (env.usable_unary op dst src f)
  | binary op dst a b => exact env.accepts_of_tagged (env.usable_binary op dst a b f)
  | binaryInPlace op dst b => exact env.accepts_of_tagged (env.usable_binary op dst dst b f)
  | literal width op dst src v => exact env.accepts_of_single (env.usable_literal op dst src v f)
  | shiftLiteral op dst src v => exact env.accepts_of_single (env.usable_shiftLiteral dst src f)

end Environment

end BytecodeVerifier
