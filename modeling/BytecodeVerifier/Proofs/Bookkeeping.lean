import BytecodeVerifier.Proofs.Verified

/-!
# What a frame keeps beside its registers

Beside its registers a frame keeps the value that a call has left behind and the number of monitors
held. Most operations touch neither (`Frame.SameBooks`), and `Environment.transfer_books` says of
every operation what it does to them. On a path, a value is left behind by the last operation or not
at all (`Task.after_result`), and only the two operations on monitors change the number of those
held (`Task.after_monitors`).
-/

namespace BytecodeVerifier

namespace Operation

/-- The type of the value that the operation leaves behind. -/
def produced? : Operation → Option Descriptor
  | .invoke _ _ _ method => if method.proto.ret.isVoid then none else some method.proto.ret
  | .filledNewArray _ _ type => some type
  | _ => none

/-- The number of monitors held after the operation, given that before it. -/
def monitorsAfter (o : Operation) (before : Option Nat) : Option Nat :=
  match o with
  | .monitorEnter _ => before.bind fun n => if n < Frame.maxMonitors then some (n + 1) else none
  | .monitorExit _ => before.map (· - 1)
  | _ => before

/-- The operation leaves a value behind or fetches one, or it takes or leaves a monitor. -/
def touchesBooks : Operation → Bool
  | .moveResult _ _ | .filledNewArray _ _ _ | .invoke _ _ _ _ => true
  | .monitorEnter _ | .monitorExit _ => true
  | _ => false

end Operation

/-- A value of the type, given by its low half if it is wide, has the form. -/
def ValueForm.admits : ValueForm → RegType → Bool
  | .single, t => t.isSingle
  | .wide, t => t.isLowHalf
  | .object, t => t.isReference

theorem RegType.isLowHalf_of_pairsWith {t hi : RegType} (h : t.pairsWith hi = true) :
    t.isLowHalf = true := by
  cases t <;> simp_all [pairsWith, highHalf?, isLowHalf]

namespace Frame

/-- The two frames differ in their registers only. -/
def SameBooks (f f' : Frame) : Prop := f'.result = f.result ∧ f'.monitors = f.monitors

variable {f f' : Frame} {reg : Nat} {t hi : RegType}

theorem SameBooks.refl (f : Frame) : f.SameBooks f := ⟨rfl, rfl⟩

theorem SameBooks.trans {f'' : Frame} (h : f.SameBooks f') (h' : f'.SameBooks f'') :
    f.SameBooks f'' :=
  ⟨h'.1.trans h.1, h'.2.trans h.2⟩

private theorem sameBooks_put (f : Frame) (reg : Nat) (t : RegType) :
    f.SameBooks (f.put reg t) := by
  unfold put
  split <;> exact ⟨rfl, rfl⟩

theorem sameBooks_writeSingle (h : f.writeSingle reg t = .ok f') : f.SameBooks f' :=
  writeSingle_eq_ok h ▸ sameBooks_put f reg t

private theorem sameBooks_writePair (h : f.writePair reg t hi = .ok f') : f.SameBooks f' := by
  obtain ⟨-, rfl⟩ := writePair_eq_ok h
  exact (sameBooks_put f reg t).trans (sameBooks_put _ _ _)

theorem sameBooks_write (h : f.write reg t = .ok f') : f.SameBooks f' := by
  unfold write at h
  split at h
  · exact sameBooks_writePair h
  · exact sameBooks_writeSingle h

end Frame

namespace Environment

open ReportT
open BytecodeVerifier.Frame (SameBooks sameBooks_write sameBooks_writeSingle sameBooks_writePair)

variable (env : Environment) {f f' : Frame} {t : RegType}

/-! ## Operations on registers -/

private theorem keeps_pure (f : Frame) : (pure f : Report Frame).Ensures f.SameBooks :=
  ensures_pure.2 (.refl f)

private theorem keeps_write (f : Frame) (reg : Nat) (t : RegType) :
    (write f reg t).Ensures f.SameBooks :=
  ensures_ofFrame.2 fun _ => sameBooks_write

private theorem keeps_writeSingle (f : Frame) (reg : Nat) (t : RegType) :
    (writeSingle f reg t).Ensures f.SameBooks :=
  ensures_ofFrame.2 fun _ => sameBooks_writeSingle

private theorem keeps_move (form : ValueForm) (dst src : Nat) (f : Frame) :
    (move form dst src f).Ensures f.SameBooks := by
  unfold move
  cases form with
  | wide =>
    refine .seq fun lo => .seq fun hi => ensures_guard.2 fun _ => ?_
    exact ensures_ofFrame.2 fun _ => sameBooks_writePair
  | single | object => exact .seq fun t => ensures_guard.2 fun _ => keeps_writeSingle f dst t

private theorem keeps_moveException (pc dst : Nat) (f : Frame) :
    (env.moveException pc dst f).Ensures f.SameBooks := by
  unfold moveException
  split
  · exact ensures_reject _
  · refine .seq fun handler => ensures_guard.2 fun _ => .seq fun ts => ?_
    split
    · exact ensures_reject _
    · exact keeps_writeSingle f dst _

private theorem keeps_returnVoid (f : Frame) : (env.returnVoid f).Ensures f.SameBooks :=
  ensures_guard.2 fun _ => ensures_guard.2 fun _ => .seq fun _ => keeps_pure f

private theorem keeps_returnValue (form : ValueForm) (src : Nat) (f : Frame) :
    (env.returnValue form src f).Ensures f.SameBooks := by
  unfold returnValue
  refine ensures_guard.2 fun _ => ?_
  cases form <;> exact .seq fun _ => .seq fun _ => keeps_pure f

private theorem keeps_throwException (src : Nat) (f : Frame) :
    (env.throwException src f).Ensures f.SameBooks := by
  refine .seq fun t => ?_
  split
  · exact keeps_pure f
  · exact ensures_guard.2 fun _ => ensures_guard.2 fun _ => .seq fun _ => keeps_pure f

private theorem keeps_ifPair (test : Condition) (a b : Nat) (f : Frame) :
    (env.ifPair test a b f).Ensures f.SameBooks := by
  unfold ifPair
  cases test <;> first
    | exact .seq fun _ => .seq fun _ => ensures_guard.2 fun _ => keeps_pure f
    | exact .seq fun _ => .seq fun _ => keeps_pure f

private theorem keeps_ifZero (test : Condition) (a : Nat) (f : Frame) :
    (env.ifZero test a f).Ensures f.SameBooks := by
  unfold ifZero
  cases test <;> first
    | exact .seq fun _ => ensures_guard.2 fun _ => keeps_pure f
    | exact .seq fun _ => keeps_pure f

private theorem keeps_newInstance (pc dst : Nat) (d : Descriptor) (f : Frame) :
    (env.newInstance pc dst d f).Ensures f.SameBooks := by
  refine .seq fun _ => ensures_guard.2 fun _ f' hf' => ?_
  have hinvalidate (marker : RegType) : f.SameBooks (f.invalidate marker) := ⟨rfl, rfl⟩
  exact (hinvalidate _).trans (keeps_write _ dst _ f' hf')

private theorem keeps_fillArrayData (array : Nat) (width : UInt8) (f : Frame) :
    (fillArrayData array width f).Ensures f.SameBooks := by
  refine .seq fun t => ?_
  split
  · exact keeps_pure f
  · refine ensures_guard.2 fun _ => ?_
    split
    · exact ensures_reject _
    · exact .seq fun _ => keeps_pure f

private theorem keeps_arrayGet (form : ElementForm) (dst array index : Nat) (f : Frame) :
    (env.arrayGet form dst array index f).Ensures f.SameBooks := by
  refine .seq fun _ => .seq fun t => ?_
  split
  · exact keeps_write f dst _
  split
  · exact ensures_guard.2 fun _ => .seq fun _ => keeps_write f dst _
  · exact ensures_guard.2 fun _ => .seq fun t => keeps_write f dst t

private theorem keeps_arrayPut (form : ElementForm) (value array index : Nat) (f : Frame) :
    (env.arrayPut form value array index f).Ensures f.SameBooks := by
  refine .seq fun _ => .seq fun t => ?_
  split
  · exact .seq fun _ => .seq fun _ => keeps_pure f
  split
  · exact ensures_guard.2 fun _ => .seq fun _ => keeps_pure f
  · refine ensures_guard.2 fun _ => ?_
    split <;> exact .seq fun _ => keeps_pure f

private theorem keeps_readField (op : Opcode) (form : ElementForm) (dst : Nat) (field : FieldRef)
    (t : RegType) (f : Frame) : (readField op form dst field t f).Ensures f.SameBooks := by
  unfold readField
  split
  · exact ensures_guard.2 fun _ => keeps_write f dst t
  · split
    · exact keeps_write f dst t
    · exact ensures_guard.2 fun _ => .seq fun _ => keeps_write f dst _

private theorem keeps_accessField (access : Access) (form : ElementForm) (value : Nat)
    (object : Option Nat) (field : FieldRef) (f : Frame) :
    (env.accessField access form value object field f).Ensures f.SameBooks := by
  refine .seq fun _ => .seq fun owner => ensures_guard.2 fun _ => ?_
  have hput {r : Report Unit} : (do r; return f).Ensures f.SameBooks := .seq fun _ => keeps_pure f
  cases object with
  | none =>
    cases access with
    | get => exact keeps_readField _ form value field _ f
    | put => exact hput
  | some reg =>
    refine .seq fun _ => ?_
    cases access with
    | get => exact keeps_readField _ form value field _ f
    | put => exact hput

/-! ## Operations on the books -/

private theorem books_moveResult (form : ValueForm) (dst : Nat) (f : Frame) :
    (moveResult form dst f).Ensures fun f' => form.admits f.result.1 = true ∧
      f'.result = Frame.noResult ∧ f'.monitors = f.monitors := by
  refine .bind fun r hr => ensures_pure.2 ?_
  have hconsume := yields_ofFrame.1 hr
  unfold Frame.consumeResult at hconsume
  split at hconsume
  · cases hconsume
  obtain ⟨g, hwrite, hconsume⟩ := bind_eq_ok.1 hconsume
  cases hconsume
  unfold Frame.writeResult at hwrite
  have hadmits : form.admits f.result.1 = true ∧ f.SameBooks g := by
    cases form with
    | single | object =>
      dsimp only at hwrite
      split at hwrite
      · exact ⟨‹_›, sameBooks_writeSingle hwrite⟩
      · simp at hwrite
    | wide =>
      dsimp only at hwrite
      split at hwrite
      · exact ⟨RegType.isLowHalf_of_pairsWith ‹_›, sameBooks_writePair hwrite⟩
      · simp at hwrite
  exact ⟨hadmits.1, rfl, hadmits.2.2⟩

private theorem books_monitorExit (object : Nat) (f : Frame) :
    (monitorExit object f).Ensures fun f' => f'.result = f.result ∧
      f'.monitors = f.monitors.map (· - 1) := by
  refine .seq fun _ => ?_
  unfold Frame.exitMonitor?
  cases hheld : f.monitors with
  | none => exact ensures_pure.2 ⟨rfl, hheld⟩
  | some n =>
    cases n with
    | zero => exact .seq fun _ => ensures_pure.2 ⟨rfl, hheld⟩
    | succ n => exact ensures_pure.2 ⟨rfl, rfl⟩

private theorem books_filledNewArray (args : List Nat) (d : Descriptor) (f : Frame) :
    (env.filledNewArray args d f).Ensures fun f' =>
      f'.result.1 = .ofDescriptor env.pool d true ∧ f'.monitors = f.monitors := by
  unfold filledNewArray
  split
  · exact ensures_reject _
  · rename_i component hcomponent
    have harray : d.kind? = some .arrayType := by
      simpa [Descriptor.isArray] using (Descriptor.component?_eq_some_iff.1 hcomponent).1
    refine ensures_guard.2 fun _ => .seq fun _ => .seq fun _ => ensures_pure.2 ⟨?_, rfl⟩
    simp [Frame.setResult, RegType.ofDescriptor, harray]

/-- A call leaves behind a value of its return type, unless it returns nothing. -/
private theorem books_leaveResult (method : MethodRef) (f : Frame) :
    (env.leaveResult method f).Ensures fun f' => f'.monitors = f.monitors ∧
      if method.proto.ret.isVoid then f'.result = f.result
      else f'.result.1 = .ofDescriptor env.pool method.proto.ret false := by
  unfold leaveResult
  dsimp only
  split
  · exact ensures_pure.2 ⟨rfl, rfl⟩
  · exact ensures_guard.2 fun _ => ensures_pure.2 ⟨rfl, rfl⟩

/-- What an operation does to what stands beside the registers. -/
structure Books (o : Operation) (f f' : Frame) : Prop where
  /-- A value is left behind, or the one left behind before has been taken or is still there. -/
  result : (∃ d precise, o.produced? = some d ∧ f'.result.1 = .ofDescriptor env.pool d precise) ∨
    o.produced? = none ∧ f'.result = if o.opcode.isMoveResult then Frame.noResult else f.result
  monitors : f'.monitors = o.monitorsAfter f.monitors

private theorem books_invoke (kind : InvokeKind) (form : ArgumentForm) (args : List Nat)
    (method : MethodRef) (f : Frame) : (env.invoke kind form args method f).Ensures
      (env.Books (.invoke kind form args method) f) := by
  refine .seq fun _ => .seq fun _ => .seq fun initialized f' hf' => ?_
  -- initializing the receiver concerns registers only
  obtain ⟨g, hg, hf'⟩ : ∃ g, f.SameBooks g ∧ (env.leaveResult method g).Yields f' := by
    cases initialized with
    | none => exact ⟨f, .refl f, hf'⟩
    | some uninit => exact ⟨f.markInitialized env.pool uninit, ⟨rfl, rfl⟩, hf'⟩
  obtain ⟨hmonitors, hresult⟩ := env.books_leaveResult method g f' hf'
  refine ⟨?_, hmonitors.trans hg.2⟩
  by_cases hvoid : method.proto.ret.isVoid = true
  · rw [if_pos hvoid] at hresult
    exact .inr ⟨by simp [Operation.produced?, hvoid], hresult.trans hg.1⟩
  · rw [if_neg hvoid] at hresult
    exact .inl ⟨_, false, by simp [Operation.produced?, hvoid], hresult⟩

private theorem books_of_keeps {o : Operation} {r : Report Frame} (hproduced : o.produced? = none)
    (hfetches : o.opcode.isMoveResult = false) (hmonitors : ∀ n, o.monitorsAfter n = n)
    (h : r.Ensures f.SameBooks) : r.Ensures (env.Books o f) := by
  intro f' hf'
  obtain ⟨hresult, hheld⟩ := h f' hf'
  exact ⟨.inr ⟨hproduced, by rw [hresult, hfetches]; rfl⟩, hheld.trans (hmonitors _).symm⟩

/-- What the other operations do has nothing to do with the value left behind or with monitors. -/
private theorem keeps_transfer {pc : Nat} {o : Operation} (ho : o.touchesBooks = false) :
    (env.transfer pc o f).Ensures f.SameBooks := by
  have hwrite : ∀ reg t, (write f reg t).Ensures f.SameBooks := keeps_write f
  have hwriteSingle : ∀ reg t, (writeSingle f reg t).Ensures f.SameBooks := keeps_writeSingle f
  cases o with
  | moveResult | filledNewArray | invoke | monitorEnter | monitorExit => cases ho
  | nop | goto _ => exact keeps_pure f
  | move form dst src => exact keeps_move form dst src f
  | moveException dst => exact env.keeps_moveException pc dst f
  | returnVoid => exact env.keeps_returnVoid f
  | returnValue form src => exact env.keeps_returnValue form src f
  | constInt dst v => exact hwriteSingle dst _
  | constWide dst => exact ensures_ofFrame.2 fun _ => sameBooks_writePair
  | constString dst => exact hwriteSingle dst _
  | constClass dst d => exact ensures_guard.2 fun _ => .seq fun _ => hwriteSingle dst _
  | checkCast object d => exact .seq fun _ => hwrite object _
  | instanceOf dst src d => exact .seq fun _ => hwrite dst _
  | arrayLength dst array => exact .seq fun _ => ensures_guard.2 fun _ => hwrite dst _
  | newInstance dst d => exact env.keeps_newInstance pc dst d f
  | newArray dst size d =>
    exact ensures_guard.2 fun _ => .seq fun _ => .seq fun _ => hwrite dst _
  | fillArrayData array width => exact keeps_fillArrayData array width f
  | throwException src => exact env.keeps_throwException src f
  | switch kind key ls => exact .seq fun _ => keeps_pure f
  | compare c dst a b => exact .seq fun _ => .seq fun _ => hwrite dst _
  | ifPair test a b l => exact env.keeps_ifPair test a b f
  | ifZero test a l => exact env.keeps_ifZero test a f
  | array access form value array index =>
    cases access with
    | get => exact env.keeps_arrayGet form value array index f
    | put => exact env.keeps_arrayPut form value array index f
  | field access form value object ref =>
    exact env.keeps_accessField access form value object ref f
  | unary op dst src => exact .seq fun _ => hwrite dst _
  | binary op dst a b => exact .seq fun _ => .seq fun _ => .seq fun t => hwrite dst t
  | binaryInPlace op dst b => exact .seq fun _ => .seq fun _ => .seq fun t => hwrite dst t
  | literal width op dst src v => exact .seq fun _ => .seq fun _ => hwrite dst _
  | shiftLiteral op dst src v => exact .seq fun _ => hwrite dst _

/-- Every operation keeps the books. -/
theorem transfer_books {pc : Nat} {o : Operation} (h : (env.transfer pc o f).Yields f') :
    env.Books o f f' := by
  cases o with
  | moveResult form dst =>
    obtain ⟨-, hresult, hmonitors⟩ := books_moveResult form dst f f' h
    exact ⟨.inr ⟨rfl, hresult⟩, hmonitors⟩
  | filledNewArray form args d =>
    obtain ⟨hresult, hmonitors⟩ := env.books_filledNewArray args d f f' h
    exact ⟨.inl ⟨d, true, rfl, hresult⟩, hmonitors⟩
  | invoke kind form args method => exact env.books_invoke kind form args method f f' h
  | monitorEnter object =>
    obtain ⟨_, -, h⟩ := h.bind
    obtain rfl := yields_pure.1 h
    exact ⟨.inr ⟨rfl, rfl⟩, rfl⟩
  | monitorExit object =>
    obtain ⟨hresult, hmonitors⟩ := books_monitorExit object f f' h
    exact ⟨.inr ⟨rfl, hresult⟩, hmonitors⟩
  | field access form value object ref =>
    have hfetches : (Operation.field access form value object ref).opcode.isMoveResult = false := by
      cases object <;> rfl
    exact env.books_of_keeps rfl hfetches (fun _ => rfl) (env.keeps_transfer rfl) f' h
  | _ => exact env.books_of_keeps rfl rfl (fun _ => rfl) (env.keeps_transfer rfl) f' h

/-- A value is fetched only in the form that it has. -/
theorem admits_of_moveResult {pc : Nat} {form : ValueForm} {dst : Nat}
    (h : (env.transfer pc (.moveResult form dst) f).Yields f') :
    form.admits f.result.1 = true :=
  (books_moveResult form dst f f' h).1

end Environment

/-! ## Positions -/

namespace Task

variable {task : Task} {i : Nat} {o : Operation} {f g : Frame}

private theorem after_books (ho : task.operation? i = some o) (h : task.after i f = .ok g) :
    task.env.Books o (o.meets f) g := by
  rcases after_yields h with ⟨hnone, -⟩ | ⟨o', ho', hyields⟩
  · simp [hnone] at ho
  · cases ho.symm.trans ho'
    exact task.env.transfer_books hyields

/-- After an operation, a value is left behind only by the operation itself. -/
theorem after_result (ho : task.operation? i = some o) (h : task.after i f = .ok g) :
    (∃ d precise, o.produced? = some d ∧ g.result.1 = .ofDescriptor task.env.pool d precise) ∨
      g.result = Frame.noResult := by
  refine (after_books ho h).result.imp_right ?_
  rintro ⟨-, hresult⟩
  rw [hresult]
  by_cases hfetches : o.opcode.isMoveResult = true
  · rw [if_pos hfetches]
  · rw [if_neg hfetches, o.result_meets, if_neg hfetches]

theorem after_monitors (ho : task.operation? i = some o) (h : task.after i f = .ok g) :
    g.monitors = o.monitorsAfter f.monitors := by
  rw [(after_books ho h).monitors, o.monitors_meets]

end Task

namespace Method

variable {p : ClassPool} {m : Method} {entry : Frame}

private theorem sameBooks_writeParams {f f' : Frame} {reg : Nat} (params : List Descriptor)
    (h : writeParams p f reg params = .ok f') : f.SameBooks f' := by
  induction params generalizing f reg with
  | nil =>
    cases h
    exact .refl _
  | cons param params ih =>
    unfold writeParams at h
    dsimp only at h
    split at h
    · cases h
    · split at h
      · cases h
      · rename_i f₁ hwrite
        exact (Frame.sameBooks_write hwrite).trans (ih h)

/-- On entry no value has been left behind, and no monitor is held. -/
theorem entryFrame_books (h : m.entryFrame p (m.classType p) = .ok entry) :
    entry.result = Frame.noResult ∧ entry.monitors = some 0 := by
  have hblank {f : Frame} (hf : (Frame.blank m.locals m.ins).SameBooks f)
      (hentry : f.SameBooks entry) : entry.result = Frame.noResult ∧ entry.monitors = some 0 :=
    hf.trans hentry
  unfold entryFrame at h
  dsimp only at h
  split at h
  · exact hblank (.refl _) (sameBooks_writeParams _ h)
  · split at h
    · cases h
    · rename_i f hwrite
      have hreceiver := Frame.sameBooks_writeSingle hwrite
      exact hblank (f := { f with thisInitialized := !m.entersUninitialized }) hreceiver
        (sameBooks_writeParams _ h)

end Method

end BytecodeVerifier
