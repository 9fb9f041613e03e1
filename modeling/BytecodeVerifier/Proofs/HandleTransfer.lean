import BytecodeVerifier.Proofs.HandleSimulation

/-!
# Transfer by handles

An operation does to a frame of handles what it does to the frame of types that it shows
(`TableReport.simulates_transfer`), whatever the history of the table.
-/

namespace BytecodeVerifier

open TypeTable (Extends Reachable Denotes)

namespace TableReport

open HandleFrame (Shows)
open Lookup (Gives)
open ReportT (reject flag lift ofReport)

variable {t : TypeTable} {F : HandleFrame} {f : Frame} {h h' : Handle} {x y : RegType}
  (env : Environment)

private theorem agrees_expectInt (hF : Shows t F f) (reg : Nat) :
    Agrees t (Lookup.expectSingle env F reg (.fixed .int)) (env.expectSingle f reg .int) := by
  intro ht
  have hint := TypeTable.denotes_fixed ht (x := .int) (by simp [TypeTable.fixedTypes])
  exact agrees_expectSingle env hF hint reg ht

private theorem simulates_writeFixed (hF : Shows t F f) (hx : x ∈ TypeTable.fixedTypes)
    (reg : Nat) : Simulates t (write F reg (.fixed x)) (ReportT.write f reg x) := by
  intro ht
  exact simulates_write hF (TypeTable.denotes_fixed ht hx) reg ht

private theorem ite_bind_bind {m : Type → Type} [Monad m] [LawfulMonad m] {α β γ : Type} {c : Prop}
    [Decidable c] (a : m α) (k : α → m β) (r : m β) (l : β → m γ) :
    (if c then a >>= k else r) >>= l = if c then a >>= fun x => k x >>= l else r >>= l := by
  split
  · rw [bind_assoc]
  · rfl

/-! ## Values -/

theorem simulates_move (hF : Shows t F f) (form : ValueForm) (dst src : Nat) :
    Simulates t (Lookup.move form dst src F) (Environment.move form dst src f) := by
  unfold Lookup.move Environment.move
  cases form with
  | wide =>
    apply simulates_read_bind hF src
    intro lo x hx
    apply simulates_read_bind hF (src + 1)
    intro hi y hy
    apply simulates_typeOf_bind hx
    apply simulates_typeOf_bind hy
    apply simulates_guard fun _ => Iff.rfl
    exact simulates_ofAccess (HandleFrame.gives_writePair hF hx hy dst)
  | single | object =>
    apply simulates_read_bind hF src
    intro a x hx
    apply simulates_typeOf_bind hx
    apply simulates_guard fun _ => Iff.rfl
    exact simulates_writeSingle hF hx dst

theorem simulates_moveResult (hF : Shows t F f) (form : ValueForm) (dst : Nat) :
    Simulates t (ofAccess (F.consumeResult dst form)) (Environment.moveResult form dst f) := by
  have hmove : Environment.moveResult form dst f =
      ReportT.ofFrame (Prod.snd <$> f.consumeResult dst form) := by
    unfold Environment.moveResult
    cases f.consumeResult dst form <;> rfl
  rw [hmove]
  exact simulates_ofAccess (HandleFrame.gives_consumeResult hF dst form)

theorem simulates_caughtType (hx : t.Denotes h .throwable) (catches : Option Descriptor) :
    Simulates t (Lookup.caughtType env h catches) (env.caughtType catches) := by
  cases catches with
  | none => exact simulates_pure fun _ => hx
  | some d =>
    unfold Lookup.caughtType Environment.caughtType
    apply simulates_lift_bind (Lookup.gives_ofReference env.pool d false)
    intro t' a hext ha
    apply simulates_guard ha.eq_conflict_iff
    apply simulates_isAssignable_bind (hx.mono hext) ha
    apply simulates_guard fun _ => Iff.rfl
    exact simulates_pure fun _ => ha

/-- The merge of what was caught before and what is caught now. -/
private def alsoCaught (p : ClassPool) (caught : Option RegType) (x : RegType) : Option RegType :=
  match caught with
  | none => some x
  | some before => some (before.merge p x)

private theorem foldl_alsoCaught (p : ClassPool) (x : RegType) (xs : List RegType) :
    xs.foldl (alsoCaught p) (some x) = some (xs.foldl (RegType.merge p) x) := by
  induction xs generalizing x with
  | nil => rfl
  | cons y ys ih => exact ih (x.merge p y)

/-- The types of all handlers are checked one after another. They can be merged on the way. -/
private theorem simulates_catches (catches : List (Option Descriptor)) {caught : Option Handle}
    {before : Option RegType} (hx : t.Denotes h .throwable)
    (hcaught : Option.Rel t.Denotes caught before) :
    Simulates t (catches.foldlM (Lookup.alsoCaught env h) caught)
      (catches.mapM env.caughtType >>= fun xs => pure (xs.foldl (alsoCaught env.pool) before)) := by
  -- each handler may issue a handle for its class, so the table goes on with the induction
  induction catches generalizing t caught before with
  | nil => exact simulates_pure fun _ => hcaught
  | cons c catches ih =>
    rw [List.foldlM_cons, List.mapM_cons, bind_assoc, Lookup.alsoCaught, bind_assoc]
    apply (simulates_caughtType env hx c).bind
    intro t' a x hext ha
    rw [bind_assoc]
    have hx' := hx.mono hext
    cases hcaught with
    | none => exact ih hx' (.some ha)
    | some hb =>
      dsimp only
      rw [bind_assoc]
      apply simulates_lift_bind (Lookup.gives_merge env.pool (hb.mono hext) ha)
      intro t₂ m hext₂ hm
      exact ih (hx'.mono hext₂) (.some hm)

theorem simulates_moveException (hF : Shows t F f) (pc dst : Nat) :
    Simulates t (Lookup.moveException env pc dst F) (env.moveException pc dst f) := by
  unfold Lookup.moveException Environment.moveException
  cases pc with
  | zero => exact simulates_reject _
  | succ before =>
    apply (agrees_ofFault _).bind_simulates
    intro handler
    apply simulates_guard fun _ => Iff.rfl
    apply simulates_lift_bind (Lookup.gives_intern rfl)
    intro t' a hext ha
    apply (simulates_catches env handler.catches ha .none).bind_map
    intro t₂ caught xs hext₂ hcaught
    cases xs with
    | nil =>
      cases hcaught with
      | none => exact simulates_reject _
    | cons x xs =>
      change Option.Rel t₂.Denotes caught (xs.foldl (alsoCaught env.pool) (some x)) at hcaught
      rw [foldl_alsoCaught] at hcaught
      cases hcaught with
      | some hb => exact simulates_writeSingle (hF.mono (hext.trans hext₂)) hb dst

/-- A check that gives back the frame it looks at. -/
private theorem Agrees.simulates_frame {r : TableReport Frame} {s : Report Frame}
    (hr : Agrees t r s) (hs : s.Ensures fun g => g = f) (hF : Shows t F f) :
    Simulates t (r >>= fun _ => pure F) s := by
  rw [← bind_pure s]
  apply hr.bind_simulates_of_yields
  intro g hg
  rw [hs g hg]
  exact simulates_pure fun _ => hF

private theorem returnVoid_ensures (f : Frame) : (env.returnVoid f).Ensures fun g => g = f := by
  refine ReportT.ensures_guard.2 fun _ => ?_
  refine ReportT.ensures_guard.2 fun _ => ?_
  apply ReportT.Ensures.seq
  intro _
  exact ReportT.ensures_pure.2 rfl

theorem simulates_returnVoid (hF : Shows t F f) :
    Simulates t (Lookup.returnVoid env F) (env.returnVoid f) := by
  unfold Lookup.returnVoid
  apply simulates_lift_bind (Lookup.gives_ofDescriptor env.pool _ false)
  intro t' _ hext _
  have hF' := hF.mono hext
  exact (agrees_viewing hF' _).simulates_frame (returnVoid_ensures env f) hF'

private theorem agrees_checkReturnSingle (hF : Shows t F f) (hx : t.Denotes h x) (src : Nat) :
    Agrees t (Lookup.checkReturnSingle env F src h) (env.checkReturnSingle f src x) := by
  unfold Lookup.checkReturnSingle Environment.checkReturnSingle
  apply agrees_typeOf_bind hx
  apply (agrees_typeAt hF src).bind
  intro y
  split
  · exact agrees_pure ()
  · exact agrees_expectSingle env hF hx src

private theorem agrees_checkReturnObject (hF : Shows t F f) (hx : t.Denotes h x) (src : Nat) :
    Agrees t (Lookup.checkReturnObject env F src h) (env.checkReturnObject f src x) := by
  unfold Lookup.checkReturnObject Environment.checkReturnObject
  apply agrees_read_bind hF src
  intro a y hy
  apply agrees_typeOf_bind hy
  apply agrees_guard
  apply agrees_isAssignable_bind hx hy
  split
  · exact agrees_reject _
  · exact agrees_pure ()

theorem simulates_returnValue (hF : Shows t F f) (form : ValueForm) (src : Nat) :
    Simulates t (Lookup.returnValue env form src F) (env.returnValue form src f) := by
  unfold Lookup.returnValue Environment.returnValue
  apply simulates_lift_bind (Lookup.gives_ofDescriptor env.pool _ false)
  intro t' a hext ha
  have hF' := hF.mono hext
  apply simulates_typeOf_bind ha
  have hrest : Simulates t' (viewing Environment.checkMonitors F >>= fun _ => pure F)
      (Environment.checkMonitors f >>= fun _ => pure f) := by
    apply (agrees_viewing hF' _).bind_simulates
    intro _
    exact simulates_pure fun _ => hF'
  apply simulates_guard fun _ => Iff.rfl
  cases form with
  | single => exact (agrees_checkReturnSingle env hF' ha src).bind_simulates fun _ => hrest
  | wide => exact (agrees_expectPair env hF' ha src).bind_simulates fun _ => hrest
  | object => exact (agrees_checkReturnObject env hF' ha src).bind_simulates fun _ => hrest

/-- A type of which there may be no handle yet is written. -/
private theorem simulates_writeIssued (hF : Shows t F f) (hx : x.isNamed = true) (dst : Nat) :
    Simulates t (handleOf x >>= fun a => writeSingle F dst a) (ReportT.writeSingle f dst x) := by
  apply simulates_lift_bind (Lookup.gives_intern hx)
  intro t' a hext ha
  exact simulates_writeSingle (hF.mono hext) ha dst

theorem simulates_constWide (hF : Shows t F f) (dst : Nat) :
    Simulates t (ofAccess (F.writePair dst (.fixed (.low .constant)) (.fixed (.high .constant))))
      (ReportT.ofFrame (f.writePair dst (.low .constant) (.high .constant))) := by
  intro ht
  have hlo := TypeTable.denotes_fixed ht (x := .low .constant) (by simp [TypeTable.fixedTypes])
  have hhi := TypeTable.denotes_fixed ht (x := .high .constant) (by simp [TypeTable.fixedTypes])
  exact simulates_ofAccess (HandleFrame.gives_writePair hF hlo hhi dst) ht

theorem simulates_constClass (hF : Shows t F f) (dst : Nat) (type : Descriptor) :
    Simulates t (Lookup.constClass env dst type F) (env.constClass dst type f) := by
  unfold Lookup.constClass Environment.constClass
  apply simulates_guard fun _ => Iff.rfl
  apply (agrees_ofReport _).bind_simulates
  intro _
  exact simulates_writeIssued hF rfl dst

theorem simulates_monitorEnter (hF : Shows t F f) (object : Nat) :
    Simulates t (Lookup.monitorEnter object F) (Environment.monitorEnter object f) := by
  unfold Lookup.monitorEnter Environment.monitorEnter
  apply (agrees_viewing hF _).bind_simulates
  intro _
  exact simulates_pure fun _ => hF.enterMonitor

theorem simulates_monitorExit (hF : Shows t F f) (object : Nat) :
    Simulates t (Lookup.monitorExit object F) (Environment.monitorExit object f) := by
  unfold Lookup.monitorExit Environment.monitorExit
  apply (agrees_viewing hF _).bind_simulates
  intro _
  have hexit := hF.exitMonitor?
  revert hexit
  generalize F.exitMonitor? = left
  generalize f.exitMonitor? = right
  intro hexit
  cases hexit with
  | some hG => exact simulates_pure fun _ => hG
  | none => exact (agrees_flag _).bind_simulates fun _ => simulates_pure fun _ => hF

theorem simulates_throwException (hF : Shows t F f) (src : Nat) :
    Simulates t (Lookup.throwException env src F) (env.throwException src f) := by
  unfold Lookup.throwException Environment.throwException
  apply (agrees_typeAt hF src).bind_simulates
  intro x
  split
  · exact simulates_pure fun _ => hF
  apply simulates_guard fun _ => Iff.rfl
  apply simulates_lift_bind (Lookup.gives_intern rfl)
  intro t' a hext ha
  have hF' := hF.mono hext
  apply simulates_guard fun _ => Iff.rfl
  apply (agrees_expectSingle env hF' ha src).bind_simulates
  intro _
  exact simulates_pure fun _ => hF'

theorem simulates_ifPair (hF : Shows t F f) (test : Condition) (a b : Nat) :
    Simulates t (Lookup.ifPair env test a b F) (env.ifPair test a b f) := by
  have hend : Simulates t (pure F) (pure f) := simulates_pure fun _ => hF
  unfold Lookup.ifPair Environment.ifPair
  cases test with
  | eq | ne =>
    apply (agrees_typeAt hF a).bind_simulates
    intro x
    apply (agrees_typeAt hF b).bind_simulates
    intro y
    exact simulates_guard (fun _ => Iff.rfl) hend
  | lt | ge | gt | le =>
    apply (agrees_expectInt env hF a).bind_simulates
    intro _
    exact (agrees_expectInt env hF b).bind_simulates fun _ => hend

theorem simulates_ifZero (hF : Shows t F f) (test : Condition) (a : Nat) :
    Simulates t (Lookup.ifZero env test a F) (env.ifZero test a f) := by
  have hend : Simulates t (pure F) (pure f) := simulates_pure fun _ => hF
  unfold Lookup.ifZero Environment.ifZero
  cases test with
  | eq | ne =>
    apply (agrees_typeAt hF a).bind_simulates
    intro x
    exact simulates_guard (fun _ => Iff.rfl) hend
  | lt | ge | gt | le => exact (agrees_expectInt env hF a).bind_simulates fun _ => hend

theorem simulates_compare (hF : Shows t F f) (c : Comparison) (dst a b : Nat) :
    Simulates t (Lookup.compare env c dst a b F) (env.compare c dst a b f) := by
  unfold Lookup.compare Environment.compare
  apply (agrees_expectPrimitive env hF a _).bind_simulates
  intro _
  apply (agrees_expectPrimitive env hF b _).bind_simulates
  intro _
  exact simulates_writeFixed hF (by simp [TypeTable.fixedTypes]) dst

theorem simulates_unary (hF : Shows t F f) (op : UnaryOp) (dst src : Nat) :
    Simulates t (Lookup.unary env op dst src F) (env.unary op dst src f) := by
  unfold Lookup.unary Environment.unary
  apply (agrees_expectPrimitive env hF src _).bind_simulates
  intro _
  exact simulates_writeFixed hF (Lookup.ofPrimitive_mem_fixedTypes _) dst

private theorem binaryResult_mem_fixedTypes (op : BinaryOp) (a b : Nat) (f : Frame) :
    (Environment.binaryResult op a b f).Ensures fun x => x ∈ TypeTable.fixedTypes := by
  apply ReportT.Ensures.seq
  intro _
  apply ReportT.Ensures.seq
  intro _
  split
  · exact ReportT.ensures_pure.2 (by simp [TypeTable.fixedTypes])
  · exact ReportT.ensures_pure.2 (Lookup.ofPrimitive_mem_fixedTypes _)

theorem simulates_binary (hF : Shows t F f) (op : BinaryOp) (dst a b : Nat) :
    Simulates t (Lookup.binary env op dst a b F) (env.binary op dst a b f) := by
  unfold Lookup.binary Environment.binary
  apply (agrees_expectPrimitive env hF a _).bind_simulates
  intro _
  apply (agrees_expectPrimitive env hF b _).bind_simulates
  intro _
  apply (agrees_viewing hF _).bind_simulates_of_yields
  intro x hx
  exact simulates_writeFixed hF (binaryResult_mem_fixedTypes op a b f x hx) dst

theorem simulates_literal (hF : Shows t F f) (op : LiteralOp) (dst src : Nat) (value : Int32) :
    Simulates t (Lookup.literal env op dst src value F) (env.literal op dst src value f) := by
  unfold Lookup.literal Environment.literal
  apply (agrees_expectInt env hF src).bind_simulates
  intro _
  apply (agrees_typeAt hF src).bind_simulates
  intro x
  apply simulates_writeFixed hF
  split <;> simp [TypeTable.fixedTypes]

theorem simulates_shiftLiteral (hF : Shows t F f) (dst src : Nat) :
    Simulates t (Lookup.shiftLiteral env dst src F) (env.shiftLiteral dst src f) := by
  unfold Lookup.shiftLiteral Environment.shiftLiteral
  apply (agrees_expectInt env hF src).bind_simulates
  intro _
  exact simulates_writeFixed hF (by simp [TypeTable.fixedTypes]) dst

/-! ## Array elements -/

private theorem gives_elementOfNull (form : ElementForm) :
    Gives t (Lookup.elementOfNull env form) (env.elementOfNull form) := by
  cases form with
  | single => exact Lookup.gives_intern rfl
  | _ => exact Lookup.gives_fixed (by simp [Environment.elementOfNull, TypeTable.fixedTypes])

/-- What is read from an array is of the type of its elements. -/
private theorem elementRead_ensures (form : ElementForm) (array component : RegType) :
    (Environment.elementRead form array component).Ensures fun x => x = component := by
  unfold Environment.elementRead
  dsimp only
  split
  · split
    · exact ReportT.ensures_pure.2 rfl
    · exact ReportT.ensures_reject _
  split
  · exact ReportT.ensures_reject _
  split
  · exact ReportT.ensures_pure.2 rfl
  · exact ReportT.ensures_reject _

theorem simulates_arrayGet (hF : Shows t F f) (form : ElementForm) (dst array index : Nat) :
    Simulates t (Lookup.arrayGet env form dst array index F)
      (env.arrayGet form dst array index f) := by
  unfold Lookup.arrayGet Environment.arrayGet
  apply (agrees_viewing hF _).bind_simulates
  intro _
  apply simulates_read_bind hF array
  intro a x hx
  apply simulates_typeOf_bind hx
  split
  · apply simulates_lift_bind (gives_elementOfNull env form)
    intro t' b hext hb
    exact simulates_write (hF.mono hext) hb dst
  split
  · apply simulates_guard fun _ => Iff.rfl
    apply (agrees_flag _).bind_simulates
    intro _
    apply simulates_lift_bind (Lookup.gives_intern rfl)
    intro t' b hext hb
    exact simulates_write (hF.mono hext) hb dst
  apply simulates_guard fun _ => Iff.rfl
  apply simulates_lift_bind (Lookup.gives_component env.pool hx)
  intro t' c hext hc
  apply simulates_typeOf_bind hc
  apply (agrees_ofReport _).bind_simulates_of_yields
  intro y hy
  rw [elementRead_ensures form x _ y hy]
  exact simulates_write (hF.mono hext) hc dst

private theorem gives_storedToNull (form : ElementForm) (value : RegType) :
    Gives t (Lookup.storedToNull form value) (Environment.storedToNull form value) := by
  cases form with
  | object => exact Lookup.gives_intern rfl
  | single | wide =>
    apply Lookup.gives_fixed
    unfold Environment.storedToNull
    dsimp only
    split <;> simp [TypeTable.fixedTypes]
  | _ => exact Lookup.gives_fixed (by simp [Environment.storedToNull, TypeTable.fixedTypes])

private theorem simulates_storeObject (hF : Shows t F f) (hx : t.Denotes h x) (value : Nat)
    (array : RegType) :
    Simulates t (Lookup.storeObject env value array h F) (env.storeObject value array x f) := by
  unfold Lookup.storeObject Environment.storeObject
  apply simulates_typeOf_bind hx
  apply simulates_guard fun _ => Iff.rfl
  apply simulates_lift_bind (Lookup.gives_intern rfl)
  intro t' o hext ho
  have hF' := hF.mono hext
  apply (agrees_expectSingle env hF' ho value).bind_simulates
  intro _
  apply simulates_read_bind hF' value
  intro a y hy
  apply simulates_isAssignable_bind (hx.mono hext) hy
  split
  · exact simulates_typeOf_bind hy (agrees_flag _).simulates
  · exact (agrees_pure ()).simulates

private theorem agrees_storePrimitive (hF : Shows t F f) (hx : t.Denotes h x) (form : ElementForm)
    (value : Nat) (array : RegType) :
    Agrees t (Lookup.storePrimitive env form value array h F)
      (env.storePrimitive form value array x f) := by
  unfold Lookup.storePrimitive Environment.storePrimitive
  apply agrees_typeOf_bind hx
  apply agrees_guard
  apply (agrees_typeAt hF value).bind
  intro y
  split
  · exact agrees_expectPair env hF hx value
  split
  · exact agrees_reject _
  · exact agrees_pure ()

theorem simulates_arrayPut (hF : Shows t F f) (form : ElementForm) (value array index : Nat) :
    Simulates t (Lookup.arrayPut env form value array index F)
      (env.arrayPut form value array index f) := by
  unfold Lookup.arrayPut Environment.arrayPut
  apply (agrees_viewing hF _).bind_simulates
  intro _
  apply simulates_read_bind hF array
  intro a x hx
  apply simulates_typeOf_bind hx
  split
  · apply (agrees_typeAt hF value).bind_simulates
    intro y
    apply simulates_lift_bind (gives_storedToNull form y)
    intro t' b hext hb
    have hF' := hF.mono hext
    apply (agrees_expect env hF' hb value).bind_simulates
    intro _
    exact simulates_pure fun _ => hF'
  split
  · apply simulates_guard fun _ => Iff.rfl
    exact (agrees_flag _).bind_simulates fun _ => simulates_pure fun _ => hF
  apply simulates_guard fun _ => Iff.rfl
  apply simulates_lift_bind (Lookup.gives_component env.pool hx)
  intro t' c hext hc
  have hF' := hF.mono hext
  split
  · apply (simulates_storeObject env hF' hc value x).bind
    intro t₂ _ _ hext₂ _
    exact simulates_pure fun _ => hF'.mono hext₂
  · apply (agrees_storePrimitive env hF' hc form value x).bind_simulates
    intro _
    exact simulates_pure fun _ => hF'

/-! ## Fields -/

private theorem simulates_checkFieldObject (hF : Shows t F f) (field : FieldRef)
    (owner : Descriptor) (object : Nat) :
    Simulates t (Lookup.checkFieldObject env field owner object F)
      (env.checkFieldObject field owner object f) := by
  unfold Lookup.checkFieldObject Environment.checkFieldObject
  apply simulates_read_bind hF object
  intro a x hx
  apply simulates_typeOf_bind hx
  apply simulates_guard fun _ => Iff.rfl
  split
  · dsimp only
    split
    · exact simulates_reject _
    · exact (agrees_pure ()).simulates
  split
  · apply simulates_lift_bind (Lookup.gives_ofReference env.pool owner false)
    intro t' b hext hb
    apply simulates_isAssignable_bind hb (hx.mono hext)
    split
    · exact (agrees_flag _).simulates
    · exact (agrees_pure ()).simulates
  · exact (agrees_pure ()).simulates

/-- The type that an access names has a handle from the start. -/
private theorem regType?_mem_fixedTypes {form : ElementForm} (hx : form.regType? = some x) :
    x ∈ TypeTable.fixedTypes := by
  cases form <;> cases hx <;> simp [TypeTable.fixedTypes]

private theorem simulates_readField (hF : Shows t F f) (hx : t.Denotes h x) (op : Opcode)
    (form : ElementForm) (dst : Nat) (field : FieldRef) :
    Simulates t (Lookup.readField op form dst field h F)
      (Environment.readField op form dst field x f) := by
  unfold Lookup.readField Environment.readField
  apply simulates_typeOf_bind hx
  cases hnamed : form.regType? with
  | none =>
    apply simulates_guard fun _ => Iff.rfl
    exact simulates_write hF hx dst
  | some named =>
    dsimp only
    split
    · exact simulates_write hF hx dst
    apply simulates_guard fun _ => Iff.rfl
    apply (agrees_flag _).bind_simulates
    intro _
    exact simulates_writeFixed hF (regType?_mem_fixedTypes hnamed) dst

private theorem agrees_writeField (hF : Shows t F f) (hx : t.Denotes h x) (op : Opcode)
    (form : ElementForm) (value : Nat) (field : FieldRef) :
    Agrees t (Lookup.writeField env op form value field h F)
      (env.writeField op form value field x f) := by
  unfold Lookup.writeField Environment.writeField
  apply agrees_typeOf_bind hx
  split
  · apply agrees_guard
    exact agrees_expectSingle env hF hx value
  apply agrees_guard
  apply (agrees_typeAt hF value).bind
  intro y
  split
  · exact agrees_expectPair env hF hx value
  split
  · exact agrees_reject _
  · exact agrees_pure ()

private theorem simulates_putField (hF : Shows t F f) (hx : t.Denotes h x) (op : Opcode)
    (form : ElementForm) (value : Nat) (field : FieldRef) :
    Simulates t (Lookup.writeField env op form value field h F >>= fun _ => pure F)
      (env.writeField op form value field x f >>= fun _ => pure f) :=
  (agrees_writeField env hF hx op form value field).bind_simulates fun _ =>
    simulates_pure fun _ => hF

theorem simulates_accessField (hF : Shows t F f) (access : Access) (form : ElementForm)
    (value : Nat) (object : Option Nat) (field : FieldRef) :
    Simulates t (Lookup.accessField env access form value object field F)
      (env.accessField access form value object field f) := by
  unfold Lookup.accessField Environment.accessField
  apply (agrees_ofReport _).bind_simulates
  intro _
  apply (agrees_ofReport _).bind_simulates
  intro owner
  apply simulates_lift_bind (Lookup.gives_ofDescriptor env.pool field.type false)
  intro t' a hext ha
  have hF' := hF.mono hext
  apply simulates_guard ha.eq_conflict_iff
  cases object with
  | none =>
    cases access with
    | get => exact simulates_readField hF' ha _ form value field
    | put => exact simulates_putField env hF' ha _ form value field
  | some reg =>
    -- looking at the object may issue a handle for its class
    apply (simulates_checkFieldObject env hF' field owner reg).bind
    intro t₂ _ _ hext₂ _
    cases access with
    | get => exact simulates_readField (hF'.mono hext₂) (ha.mono hext₂) _ form value field
    | put => exact simulates_putField env (hF'.mono hext₂) (ha.mono hext₂) _ form value field

/-! ## Objects and whole arrays -/

/-- The type of a cast has a handle before its operand is looked at. -/
private theorem simulates_checkCastOperand_bind {k : Handle → TableReport HandleFrame}
    {l : Report Frame} (hF : Shows t F f) (op : Opcode) (src : Nat) (type : Descriptor)
    (hk : ∀ t' a, t.Extends t' → t'.Denotes a (RegType.ofReference env.pool type false) →
      Simulates t' (k a) l) :
    Simulates t (Lookup.checkCastOperand env op src type F >>= k)
      (env.checkCastOperand op src type f >>= fun _ => l) := by
  unfold Lookup.checkCastOperand Environment.checkCastOperand
  dsimp only
  rw [ite_bind_bind, ite_bind_bind]
  apply simulates_guard fun _ => Iff.rfl
  simp only [bind_assoc]
  apply (agrees_ofReport _).bind_simulates
  intro _
  apply simulates_lift_bind (Lookup.gives_ofReference env.pool type false)
  intro t' a hext ha
  apply (agrees_typeAt (hF.mono hext) src).bind_simulates
  intro x
  simp only [ite_bind_bind]
  apply simulates_guard fun _ => Iff.rfl
  split
  · exact fun ht _ _ => ⟨ht, .refl t', rfl, .error _⟩
  · exact hk t' a hext ha

theorem simulates_checkCast (hF : Shows t F f) (object : Nat) (type : Descriptor) :
    Simulates t (Lookup.checkCast env object type F) (env.checkCast object type f) := by
  apply simulates_checkCastOperand_bind env hF .checkCast object type
  intro t' a hext ha
  exact simulates_write (hF.mono hext) ha object

theorem simulates_instanceOf (hF : Shows t F f) (dst src : Nat) (type : Descriptor) :
    Simulates t (Lookup.instanceOf env dst src type F) (env.instanceOf dst src type f) := by
  apply simulates_checkCastOperand_bind env hF .instanceOf src type
  intro t' _ hext _
  exact simulates_writeFixed (hF.mono hext) (by simp [TypeTable.fixedTypes]) dst

theorem simulates_arrayLength (hF : Shows t F f) (dst array : Nat) :
    Simulates t (Lookup.arrayLength dst array F) (Environment.arrayLength dst array f) := by
  unfold Lookup.arrayLength Environment.arrayLength
  apply (agrees_typeAt hF array).bind_simulates
  intro x
  apply simulates_guard fun _ => Iff.rfl
  exact simulates_writeFixed hF (by simp [TypeTable.fixedTypes]) dst

theorem simulates_newInstance (hF : Shows t F f) (pc dst : Nat) (type : Descriptor) :
    Simulates t (Lookup.newInstance env pc dst type F) (env.newInstance pc dst type f) := by
  unfold Lookup.newInstance Environment.newInstance
  apply (agrees_ofReport _).bind_simulates
  intro _
  apply simulates_guard fun _ => Iff.rfl
  apply simulates_lift_bind (Lookup.gives_ofReference env.pool type true)
  intro t₁ a hext₁ ha
  apply simulates_lift_bind (Lookup.gives_asUninitialized ha pc)
  intro t₂ u hext₂ hu ht₂
  have hF₂ := (hF.mono hext₁).mono hext₂
  exact simulates_write (hF₂.invalidate ht₂ hu) hu dst ht₂

theorem simulates_newArray (hF : Shows t F f) (dst size : Nat) (type : Descriptor) :
    Simulates t (Lookup.newArray env dst size type F) (env.newArray dst size type f) := by
  unfold Lookup.newArray Environment.newArray
  apply simulates_guard fun _ => Iff.rfl
  apply (agrees_ofReport _).bind_simulates
  intro _
  apply (agrees_expectInt env hF size).bind_simulates
  intro _
  apply simulates_lift_bind (Lookup.gives_ofReference env.pool type true)
  intro t' a hext ha
  exact simulates_write (hF.mono hext) ha dst

private theorem agrees_expectAll (hF : Shows t F f) (hx : t.Denotes h x) (regs : List Nat) :
    Agrees t (regs.forM fun reg => Lookup.expectSingle env F reg h)
      (regs.forM fun reg => env.expectSingle f reg x) := by
  induction regs with
  | nil => exact agrees_pure ()
  | cons reg regs ih =>
    apply (agrees_expectSingle env hF hx reg).bind
    intro _
    exact ih

theorem simulates_filledNewArray (hF : Shows t F f) (args : List Nat) (type : Descriptor) :
    Simulates t (Lookup.filledNewArray env args type F) (env.filledNewArray args type f) := by
  unfold Lookup.filledNewArray Environment.filledNewArray
  cases type.component? with
  | none => exact simulates_reject _
  | some component =>
    apply simulates_guard fun _ => Iff.rfl
    apply (agrees_ofReport _).bind_simulates
    intro _
    apply simulates_lift_bind (Lookup.gives_ofDescriptor env.pool component false)
    intro t₁ e hext₁ he
    have hF₁ := hF.mono hext₁
    apply (agrees_expectAll env hF₁ he args).bind_simulates
    intro _
    apply simulates_lift_bind (Lookup.gives_ofReference env.pool type true)
    intro t₂ a hext₂ ha
    exact simulates_lift (HandleFrame.gives_setResult (hF₁.mono hext₂) ha)

private theorem fillArrayData_ensures (array : Nat) (width : UInt8) (f : Frame) :
    (Environment.fillArrayData array width f).Ensures fun g => g = f := by
  apply ReportT.Ensures.seq
  intro x
  split
  · exact ReportT.ensures_pure.2 rfl
  refine ReportT.ensures_guard.2 fun _ => ?_
  split
  · exact ReportT.ensures_reject _
  · apply ReportT.Ensures.seq
    intro _
    exact ReportT.ensures_pure.2 rfl

theorem simulates_fillArrayData (hF : Shows t F f) (array : Nat) (width : UInt8) :
    Simulates t (Lookup.fillArrayData array width F) (Environment.fillArrayData array width f) :=
  (agrees_viewing hF _).simulates_frame (fillArrayData_ensures array width f) hF

/-! ## Calls -/

/-- A constructor initializes nothing but the object that it is called on. -/
private theorem checkConstructed_ensures (method : MethodRef) (x : RegType) :
    (env.checkConstructed method x).Ensures fun o => o = none ∨ o = some x := by
  unfold Environment.checkConstructed
  dsimp only
  split
  · exact ReportT.ensures_pure.2 (.inl rfl)
  refine ReportT.ensures_guard.2 fun _ => ?_
  split
  · split
    · apply ReportT.Ensures.seq
      intro _
      exact ReportT.ensures_pure.2 (.inr rfl)
    · refine ReportT.ensures_guard.2 fun _ => ?_
      exact ReportT.ensures_pure.2 (.inr rfl)
  · refine ReportT.ensures_guard.2 fun _ => ?_
    exact ReportT.ensures_pure.2 (.inr rfl)

private theorem simulates_checkConstructed (hx : t.Denotes h x) (method : MethodRef) :
    Simulates t (Lookup.checkConstructed env method h) (env.checkConstructed method x) := by
  rw [← bind_pure (env.checkConstructed method x)]
  unfold Lookup.checkConstructed
  apply simulates_typeOf_bind hx
  apply (agrees_ofReport _).bind_simulates_of_yields
  intro o ho
  rcases checkConstructed_ensures env method x o ho with rfl | rfl
  · exact simulates_pure fun _ => .none
  · exact simulates_pure fun _ => .some hx

private theorem simulates_checkInstance (hx : t.Denotes h x) (op : Opcode) (method : MethodRef)
    (reg : Nat) :
    Simulates t (Lookup.checkInstance env op method reg h) (env.checkInstance op method reg x) := by
  unfold Lookup.checkInstance Environment.checkInstance
  apply simulates_typeOf_bind hx
  apply simulates_guard fun _ => Iff.rfl
  split
  · apply simulates_lift_bind (Lookup.gives_ofReference env.pool method.owner false)
    intro t' b hext hb
    apply simulates_isAssignable_bind hb (hx.mono hext)
    split
    · exact (agrees_flag _).simulates
    · exact (agrees_pure ()).simulates
  · exact (agrees_pure ()).simulates

private theorem simulates_checkReceiver (hF : Shows t F f) (op : Opcode) (method : MethodRef)
    (reg : Nat) :
    Simulates t (Lookup.checkReceiver env op method reg F) (env.checkReceiver op method reg f) := by
  unfold Lookup.checkReceiver Environment.checkReceiver
  apply simulates_read_bind hF reg
  intro a x hx
  apply simulates_typeOf_bind hx
  apply simulates_guard fun _ => Iff.rfl
  split
  · exact simulates_checkConstructed env hx method
  · apply (simulates_checkInstance env hx op method reg).bind
    intro t' _ _ _ _
    exact simulates_pure fun _ => .none

private theorem simulates_checkArgument (hF : Shows t F f) (method : MethodRef)
    (param : Descriptor) (regs : List Nat) :
    Simulates t (Lookup.checkArgument env method param regs F)
      (env.checkArgument method param regs f) := by
  unfold Lookup.checkArgument Environment.checkArgument
  cases regs with
  | nil => exact simulates_reject _
  | cons reg rest =>
    apply simulates_lift_bind (Lookup.gives_ofDescriptor env.pool param false)
    intro t' a hext ha
    have hF' := hF.mono hext
    apply simulates_guard ha.eq_conflict_iff
    apply simulates_typeOf_bind ha
    split
    · cases rest with
      | nil => exact simulates_reject _
      | cons hi rest =>
        apply simulates_guard fun _ => Iff.rfl
        exact (agrees_expectPair env hF' ha reg).simulates
    · exact (agrees_expectSingle env hF' ha reg).simulates

private theorem simulates_checkArguments (hF : Shows t F f) (method : MethodRef)
    (params : List Descriptor) (regs : List Nat) :
    Simulates t (Lookup.checkArguments env method F params regs)
      (env.checkArguments method f params regs) := by
  induction params generalizing t regs with
  | nil => exact (agrees_pure ()).simulates
  | cons param params ih =>
    unfold Lookup.checkArguments Environment.checkArguments
    apply (simulates_checkArgument env hF method param regs).bind
    intro t' _ _ hext _
    exact ih (hF.mono hext) _

private theorem simulates_checkRegisters (hF : Shows t F f) (kind : InvokeKind) (op : Opcode)
    (args : List Nat) (method : MethodRef) :
    Simulates t (Lookup.checkRegisters env kind op args method F)
      (env.checkRegisters kind op args method f) := by
  unfold Lookup.checkRegisters Environment.checkRegisters
  apply simulates_guard fun _ => Iff.rfl
  split
  · apply (simulates_checkArguments env hF method _ args).bind
    intro t' _ _ _ _
    exact simulates_pure fun _ => .none
  cases args with
  | nil => exact simulates_reject _
  | cons receiver args =>
    apply (simulates_checkReceiver env hF op method receiver).bind
    intro t₁ a x hext₁ ha
    apply (simulates_checkArguments env (hF.mono hext₁) method _ args).bind
    intro t₂ _ _ hext₂ _
    exact simulates_pure fun _ => Related.mono hext₂ ha

private theorem simulates_leaveResult (hF : Shows t F f) (method : MethodRef) :
    Simulates t (Lookup.leaveResult env method F) (env.leaveResult method f) := by
  unfold Lookup.leaveResult Environment.leaveResult
  dsimp only
  split
  · exact simulates_pure fun _ => hF
  apply simulates_lift_bind (Lookup.gives_ofDescriptor env.pool _ false)
  intro t' a hext ha
  apply simulates_guard ha.eq_conflict_iff
  exact simulates_lift (HandleFrame.gives_setResult (hF.mono hext) ha)

theorem simulates_invoke (hF : Shows t F f) (kind : InvokeKind) (form : ArgumentForm)
    (args : List Nat) (method : MethodRef) :
    Simulates t (Lookup.invoke env kind form args method F)
      (env.invoke kind form args method f) := by
  unfold Lookup.invoke Environment.invoke
  apply (agrees_ofReport _).bind_simulates
  intro _
  apply (agrees_ofReport _).bind_simulates
  intro _
  apply (simulates_checkRegisters env hF kind _ args method).bind
  intro t' initialized uninit hext hinit
  have hF' := hF.mono hext
  cases hinit with
  | none => exact simulates_leaveResult env hF' method
  | some hx =>
    apply simulates_lift_bind (HandleFrame.gives_markInitialized env.pool hF' hx)
    intro t₂ G hext₂ hG
    exact simulates_leaveResult env hG method

/-! ## Operations -/

/-- An operation does to a frame of handles what it does to the frame that it shows. -/
theorem simulates_transfer (hF : Shows t F f) (pc : Nat) (o : Operation) :
    Simulates t (Lookup.transfer env pc o F) (env.transfer pc o f) := by
  cases o with
  | nop | goto _ => exact simulates_pure fun _ => hF
  | move form dst src => exact simulates_move hF form dst src
  | moveResult form dst => exact simulates_moveResult hF form dst
  | moveException dst => exact simulates_moveException env hF pc dst
  | returnVoid => exact simulates_returnVoid env hF
  | returnValue form src => exact simulates_returnValue env hF form src
  | constInt dst v => exact simulates_writeIssued hF rfl dst
  | constWide dst => exact simulates_constWide hF dst
  | constString dst => exact simulates_writeIssued hF rfl dst
  | constClass dst d => exact simulates_constClass env hF dst d
  | monitorEnter object => exact simulates_monitorEnter hF object
  | monitorExit object => exact simulates_monitorExit hF object
  | checkCast object d => exact simulates_checkCast env hF object d
  | instanceOf dst src d => exact simulates_instanceOf env hF dst src d
  | arrayLength dst array => exact simulates_arrayLength hF dst array
  | newInstance dst d => exact simulates_newInstance env hF pc dst d
  | newArray dst size d => exact simulates_newArray env hF dst size d
  | filledNewArray _ args d => exact simulates_filledNewArray env hF args d
  | fillArrayData array width => exact simulates_fillArrayData hF array width
  | throwException src => exact simulates_throwException env hF src
  | switch _ key _ =>
    exact (agrees_expectInt env hF key).bind_simulates fun _ => simulates_pure fun _ => hF
  | compare c dst a b => exact simulates_compare env hF c dst a b
  | ifPair test a b _ => exact simulates_ifPair env hF test a b
  | ifZero test a _ => exact simulates_ifZero env hF test a
  | array access form value array index =>
    cases access with
    | get => exact simulates_arrayGet env hF form value array index
    | put => exact simulates_arrayPut env hF form value array index
  | field access form value object ref =>
    exact simulates_accessField env hF access form value object ref
  | invoke kind form args method => exact simulates_invoke env hF kind form args method
  | unary op dst src => exact simulates_unary env hF op dst src
  | binary op dst a b => exact simulates_binary env hF op dst a b
  | binaryInPlace op dst b => exact simulates_binary env hF op dst dst b
  | literal _ op dst src v => exact simulates_literal env hF op dst src v
  | shiftLiteral _ dst src _ => exact simulates_shiftLiteral env hF dst src

end TableReport

end BytecodeVerifier
