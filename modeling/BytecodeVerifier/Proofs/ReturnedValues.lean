import BytecodeVerifier.Proofs.Evolution
import BytecodeVerifier.Verifier

/-!
# Values that a method may return

A method that returns a primitive value in one register and a store to a static field of the same
type check the value in different ways. They agree for `int` and `float`, and for an integral value
of which nothing is known (`int`) also where the declared type is narrower. But a store takes every
integral value, and a return refuses one whose bounds are known and reach out of the declared type
(`Environment.return_ok_iff_store_ok`): `flagSetter` stores a `byte` to a `boolean` field, which is
fine, and is rejected because it then returns it.
-/

namespace BytecodeVerifier

/-- The least and the greatest value of a type that is narrower than `int`. -/
def Primitive.range? : Primitive → Option (Int32 × Int32)
  | .boolean => some (0, 1)
  | .byte => some (-128, 127)
  | .short => some (-32768, 32767)
  | .char => some (0, 65535)
  | _ => none

/-- The instruction that stores a value of the type to a field. -/
def Primitive.elementForm : Primitive → ElementForm
  | .boolean => .boolean
  | .byte => .byte
  | .char => .char
  | .short => .short
  | .int | .float => .single
  | .long | .double => .wide

/-- The bounds that are known of an integral value. Nothing is known of an `int`. -/
def RegType.bounds? : RegType → Option (Int32 × Int32)
  | .boolean => Primitive.range? .boolean
  | .byte => Primitive.range? .byte
  | .short => Primitive.range? .short
  | .char => Primitive.range? .char
  | .constant lo hi _ => some (lo, hi)
  | _ => none

/-- The bounds that are known of the value reach out of the narrow type. -/
def RegType.exceeds (t : RegType) (type : Primitive) : Bool :=
  t.bounds?.any fun known => type.range?.any fun r => !(r.1 ≤ known.1 && known.2 ≤ r.2)

namespace RegType

theorem ofDescriptor_of_kind {p : ClassPool} {d : Descriptor} {type : Primitive} {precise : Bool}
    (h : d.kind? = some (.primitive type)) : ofDescriptor p d precise = ofPrimitive type := by
  simp [ofDescriptor, h]

/-- A value can be returned if it can be stored and is not known to reach out of the type. -/
private theorem returnable_iff (p : ClassPool) {type : Primitive} (hsingle : type.isWide = false)
    (t : RegType) :
    (Environment.isNarrow (ofPrimitive type) = true ∧ t = .int ∨
        (ofPrimitive type).isAssignable p t = true) ↔
      Environment.canStore (ofPrimitive type) t = true ∧ t.exceeds type = false := by
  cases type <;> cases t <;>
    simp_all [ofPrimitive, Environment.isNarrow, Environment.canStore, isAssignable, exceeds,
      bounds?, Primitive.range?, Primitive.isWide, fitsBoolean, fitsByte, fitsShort, fitsChar,
      fitsInt.eq_def, fitsFloat, isConstantWithin, range?]

/-- A value of which bounds are known is integral, so that it can be stored. -/
private theorem canStore_of_exceeds {type : Primitive} {t : RegType} (h : t.exceeds type = true) :
    Environment.canStore (ofPrimitive type) t = true := by
  cases type <;> cases t <;>
    simp_all [ofPrimitive, Environment.canStore, exceeds, bounds?, Primitive.range?, fitsInt.eq_def]

end RegType

namespace Environment

open ReportT

/-- The reference is to a static field that can be found, may be used here and is not final. -/
structure CanAssign (env : Environment) (field : FieldRef) (found : FieldDef) : Prop where
  classAccess : env.checkClassAccess field.owner = pure ()
  resolved : env.pool.resolveField field.owner field.name field.type = some found
  static : found.flags.has .static = true
  access : env.canAccessMember found.owner found.flags = true
  notFinal : found.flags.has .final = false

variable {env : Environment} {type : Primitive} {f : Frame} {reg : Nat} {t : RegType}

private theorem read_eq_pure (ht : f.get? reg = some t) : ReportT.read f reg = pure t := by
  simp [ReportT.read, Frame.read_eq_ok.2 ht, ofFrame]

/-- The check of a returned value. A mismatch of primitive values is never left to run time. -/
private theorem checkReturnSingle_eq (ht : f.get? reg = some t) :
    env.checkReturnSingle f reg (.ofPrimitive type) =
      if isNarrow (.ofPrimitive type) = true ∧ t = .int ∨
          (RegType.ofPrimitive type).isAssignable env.pool t = true then pure ()
      else reject (.value (.mismatch reg t (.ofPrimitive type))) := by
  have hprimitive : (RegType.ofPrimitive type).isNonNullReference = false := by cases type <;> rfl
  unfold checkReturnSingle expectSingle isRecheckable
  rw [read_eq_pure ht, hprimitive]
  by_cases hint : t = .int <;> by_cases hnarrow : isNarrow (.ofPrimitive type) = true <;>
    by_cases hassign : (RegType.ofPrimitive type).isAssignable env.pool t = true <;>
    simp_all

/-- The check of a stored value. -/
private theorem writeField_eq {op : Opcode} {field : FieldRef} (hsingle : type.isWide = false)
    (ht : f.get? reg = some t) :
    env.writeField op type.elementForm reg field (.ofPrimitive type) f =
      if canStore (.ofPrimitive type) t = true then pure ()
      else reject (.field (.value op t field)) := by
  have hform : type.elementForm ≠ .object := by cases type <;> simp [Primitive.elementForm]
  have htouches : type.elementForm.touches (.ofPrimitive type) = true := by cases type <;> rfl
  have hlow : (RegType.ofPrimitive type).isLowHalf = false := by
    cases type <;> simp_all [Primitive.isWide, RegType.ofPrimitive, RegType.isLowHalf]
  unfold writeField
  rw [read_eq_pure ht, if_neg hform, htouches, hlow]
  by_cases hstore : canStore (.ofPrimitive type) t = true <;> simp_all

theorem CanAssign.fieldOwner_eq {field : FieldRef} {found : FieldDef}
    (h : env.CanAssign field found) :
    env.fieldOwner .put .staticField field = pure found.owner := by
  unfold fieldOwner
  simp [h.resolved, h.static, h.access, h.notFinal]

private theorem returnValue_ok_iff (hsingle : type.isWide = false)
    (hret : env.method.proto.ret.kind? = some (.primitive type)) (ht : f.get? reg = some t) :
    (env.returnValue .single reg f).outcome.1 = .ok f ↔
      isNarrow (.ofPrimitive type) = true ∧ t = .int ∨
        (RegType.ofPrimitive type).isAssignable env.pool t = true := by
  have hform : (RegType.ofPrimitive type).isSingle = true := by
    cases type <;> simp_all [Primitive.isWide, RegType.ofPrimitive, RegType.isSingle.eq_def]
  unfold returnValue
  simp only [RegType.ofDescriptor_of_kind hret, hform, Bool.not_true, Bool.false_eq_true, if_false,
    checkReturnSingle_eq ht]
  split
  · rename_i hreturn
    have hmonitors : (checkMonitors f >>= fun _ => (pure f : Report Frame)).outcome.1 = .ok f := by
      unfold checkMonitors
      split <;> rfl
    exact iff_of_true hmonitors hreturn
  · rename_i hreturn
    refine iff_of_false (fun h => ?_) hreturn
    cases h

private theorem accessField_ok_iff {field : FieldRef} {found : FieldDef}
    (hsingle : type.isWide = false) (hfield : field.type.kind? = some (.primitive type))
    (hassign : env.CanAssign field found) (ht : f.get? reg = some t) :
    (env.accessField .put type.elementForm reg none field f).outcome.1 = .ok f ↔
      canStore (.ofPrimitive type) t = true := by
  have hconflict : RegType.ofPrimitive type ≠ .conflict := by
    cases type <;> simp [RegType.ofPrimitive]
  unfold accessField
  simp only [hassign.classAccess, Option.isSome_none, Bool.false_eq_true, if_false,
    hassign.fieldOwner_eq, pure_bind, RegType.ofDescriptor_of_kind hfield, hconflict,
    writeField_eq hsingle ht]
  split
  · rename_i hstore
    exact iff_of_true rfl hstore
  · rename_i hstore
    refine iff_of_false (fun h => ?_) hstore
    cases h

/-- A method may return a value as a primitive type that takes one register if a store to a static
    field of that type takes it, unless the value is known to reach out of a narrow type. A store
    takes such a value, too. -/
theorem return_ok_iff_store_ok {field : FieldRef} {found : FieldDef} {pc pc' : Nat}
    (hsingle : type.isWide = false)
    (hret : env.method.proto.ret.kind? = some (.primitive type))
    (hfield : field.type.kind? = some (.primitive type)) (hassign : env.CanAssign field found)
    (ht : f.get? reg = some t) :
    ((env.transfer pc (.returnValue .single reg) f).outcome.1 = .ok f ↔
      (env.transfer pc' (.field .put type.elementForm reg none field) f).outcome.1 = .ok f ∧
        t.exceeds type = false) ∧
    (t.exceeds type = true →
      (env.transfer pc' (.field .put type.elementForm reg none field) f).outcome.1 = .ok f) := by
  have hreturn := returnValue_ok_iff hsingle hret ht
  have hstore := accessField_ok_iff hsingle hfield hassign ht
  constructor
  · exact hreturn.trans ((RegType.returnable_iff env.pool hsingle t).trans
      (and_congr_left fun _ => hstore.symm))
  · exact fun h => hstore.2 (RegType.canStore_of_exceeds h)

end Environment

/-- The static field `flag` of the class `LA;`. -/
def flagField : FieldRef where
  owner := ⟨"LA;"⟩
  name := "flag"
  type := ⟨"Z"⟩

/-- The declaration of the field. -/
def flagDef : FieldDef where
  owner := ⟨"LA;"⟩
  name := "flag"
  type := ⟨"Z"⟩
  flags := .ofModifiers [.publicAccess, .static]

/-- The class that declares the field. -/
def flagPool : ClassPool :=
  ClassPool.insert .core (ClassDef.declareField { desc := ⟨"LA;"⟩, superclass := some .object }
    flagDef.name flagDef.type flagDef.flags)

/-- Stores its parameter, declared with the given type, to the field and returns it as `boolean`. -/
def flagSetter (param : Descriptor) : Method where
  owner := ⟨"LA;"⟩
  name := "setFlag"
  proto := { params := [param], ret := ⟨"Z"⟩ }
  flags := .ofModifiers [.publicAccess, .static]
  locals := 0
  ins := 1
  body :=
    { code := [.label ⟨0⟩, .withConstant (.field .staticField .put .boolean) [0] (.field flagField),
        .plain (.returnValue .single) [0]]
      labelCount := 1 }

/-- What the method is looked at against. -/
def flagEnvironment (param : Descriptor) : Environment where
  pool := flagPool
  method := flagSetter param
  layout := { labels := ⟨#[]⟩, spans := [], sites := #[] }
  preciseConstants := true

/-- The frame with the parameter. -/
def flagFrame (t : RegType) : Frame := { Frame.blank 0 1 with params := [t] }

private theorem canAssign_flagField (param : Descriptor) :
    (flagEnvironment param).CanAssign flagField flagDef where
  classAccess := rfl
  resolved := rfl
  static := by decide +kernel
  access := rfl
  notFinal := by decide +kernel

/-- An `int` can be stored as well as returned. -/
theorem flagSetter_return_ok_iff_store_ok :
    (flagEnvironment ⟨"I"⟩).CanAssign flagField flagDef ∧
    (flagFrame .int).get? 0 = some .int ∧
    (((flagEnvironment ⟨"I"⟩).transfer 2 (.returnValue .single 0) (flagFrame .int)).outcome.1 =
        .ok (flagFrame .int) ↔
      ((flagEnvironment ⟨"I"⟩).transfer 1
          (.field .put Primitive.boolean.elementForm 0 none flagField)
          (flagFrame .int)).outcome.1 = .ok (flagFrame .int) ∧
        RegType.int.exceeds .boolean = false) ∧
    (RegType.int.exceeds .boolean = true →
      ((flagEnvironment ⟨"I"⟩).transfer 1
        (.field .put Primitive.boolean.elementForm 0 none flagField)
        (flagFrame .int)).outcome.1 = .ok (flagFrame .int)) := by
  have hassign := canAssign_flagField ⟨"I"⟩
  exact ⟨hassign, rfl, Environment.return_ok_iff_store_ok rfl rfl rfl hassign rfl⟩

/-- A `byte` can be stored, but not returned, and the method is rejected for that. -/
theorem flagSetter_byte_rejected :
    (flagEnvironment ⟨"B"⟩).CanAssign flagField flagDef ∧
    (flagFrame .byte).get? 0 = some .byte ∧
    ((flagEnvironment ⟨"B"⟩).transfer 1 (.field .put .boolean 0 none flagField)
      (flagFrame .byte)).outcome.1 = .ok (flagFrame .byte) ∧
    ((flagEnvironment ⟨"B"⟩).transfer 2 (.returnValue .single 0) (flagFrame .byte)).outcome.1 =
      .error (.violation (.value (.mismatch 0 .byte .boolean))) ∧
    (flagSetter ⟨"B"⟩).verify flagPool {} =
      .error (.hard (.value (.mismatch 0 .byte .boolean)) (some 2)) :=
  ⟨canAssign_flagField ⟨"B"⟩, rfl, by decide +kernel, by decide +kernel, by decide +kernel⟩

end BytecodeVerifier
