import BytecodeVerifier.Proofs.Transfer

/-!
# Access to registers

A frame refuses an access to a register that it does not have, and a write that would tear a wide
value apart. It grants every other one (`Frame.Has`): a value that takes one register can be written
to each register of the frame, and a wide value to each but the last.
-/

namespace BytecodeVerifier

/-- The access is to a register that the frame does not have, or tears a wide value apart. -/
def FrameError.isRegisterFault : FrameError → Bool
  | .outOfRange _ _ | .halfWrite _ | .badPair _ => true
  | .noResult | .resultMismatch _ => false

theorem forall_mem_extent {P : Nat → Prop} {wide : Bool} {reg : Nat} :
    (∀ r ∈ extent wide reg, P r) ↔ P reg ∧ (wide = true → P (reg + 1)) := by
  cases wide <;> simp

/-! ## Halves of wide values -/

namespace RegType

variable {p : ClassPool} {t u : RegType}

/-- The register holds one half of a wide value. -/
def isHalf (t : RegType) : Bool := t.isLowHalf || t.isHighHalf

theorem isHalf_of_isReference (h : t.isReference = true) : t.isHalf = false := by
  cases t <;> simp_all [isReference, isZero, range?, isNonNullReference, isHalf, isLowHalf,
    isHighHalf]

theorem isHalf_of_isSingle (h : t.isSingle = true) : t.isHalf = false := by
  cases t <;> simp_all [isSingle.eq_def, isHalf, isLowHalf, isHighHalf]

theorem isHalf_of_isConflict (h : t.isConflict = true) : t.isHalf = false := by
  cases t <;> simp_all [isConflict, isHalf, isLowHalf, isHighHalf]

theorem isHalf_ofReference (p : ClassPool) (d : Descriptor) (precise : Bool) :
    (ofReference p d precise).isHalf = false := by
  unfold ofReference
  repeat' split
  all_goals rfl

theorem isHalf_asUninitialized (t : RegType) (allocation : Nat) :
    (t.asUninitialized allocation).isHalf = false := by
  cases t <;> rfl

theorem isHalf_asUninitializedThis (t : RegType) : t.asUninitializedThis.isHalf = false := by
  cases t <;> rfl

theorem isHighHalf_of_isHalf (h : t.isHalf = false) : t.isHighHalf = false := by
  simp_all [isHalf]

theorem isLowHalf_of_isHalf (h : t.isHalf = false) : t.isLowHalf = false := by
  simp_all [isHalf]

theorem isHighHalf_ofPrimitive (t : Primitive) : (ofPrimitive t).isHighHalf = false := by
  cases t <;> rfl

theorem isHighHalf_ofDescriptor (p : ClassPool) (d : Descriptor) (precise : Bool) :
    (ofDescriptor p d precise).isHighHalf = false := by
  unfold ofDescriptor
  split
  · rfl
  · rfl
  · exact isHighHalf_ofPrimitive _
  all_goals exact isHighHalf_of_isHalf (isHalf_ofReference p d precise)

theorem isHighHalf_component (p : ClassPool) (t : RegType) :
    (t.component p).isHighHalf = false := by
  unfold component
  repeat' split
  all_goals first | exact isHighHalf_ofDescriptor _ _ _ | rfl

/-- What is merged with a whole value is none but a whole value. -/
theorem isHalf_merge (ha : t.isHalf = false) : (t.merge p u).isHalf = false := by
  have hfits : t.fitsLongLow = false ∧ t.fitsLongHigh = false ∧ t.fitsDoubleLow = false ∧
      t.fitsDoubleHigh = false := by
    cases t with
    | low | high => exact absurd ha (by simp [isHalf, isLowHalf, isHighHalf])
    | _ => exact ⟨rfl, rfl, rfl, rfl⟩
  unfold merge mergeWritten
  split
  · exact ha
  split
  · rfl
  split
  · rfl
  split
  · unfold mergeIntegral
    repeat (split; rfl)
    rfl
  split
  · rfl
  simp only [hfits, Bool.false_and, Bool.false_eq_true, if_false]
  split
  · rename_i hrefs
    simp only [Bool.and_eq_true] at hrefs
    unfold mergeReferences
    split
    · rfl
    split
    · exact isHalf_of_isReference hrefs.2
    split
    · exact ha
    repeat (split; rfl)
    rfl
  · rfl

theorem isHalf_foldl_merge (ts : List RegType) (ht : t.isHalf = false) :
    (ts.foldl (merge p) t).isHalf = false := by
  induction ts generalizing t with
  | nil => exact ht
  | cons u ts ih => exact ih (isHalf_merge ht)

end RegType

/-! ## Accesses to frames -/

namespace Frame

variable {f f' : Frame} {reg : Nat} {t lo hi : RegType}

/-- The frame has the register, whose number is not too large. -/
def Has (f : Frame) (reg : Nat) : Prop := reg < f.size ∧ reg ≤ maxRegister

theorem Has.of_shape (h : f.Has reg) (hshape : f'.shape = f.shape) : f'.Has reg :=
  ⟨size_eq_of_shape hshape ▸ h.1, h.2⟩

theorem shape_invalidate (f : Frame) (marker : RegType) :
    (f.invalidate marker).shape = f.shape := by
  simp [invalidate, mapRegisters, shape]

theorem Has.read (h : f.Has reg) : ∃ t, f.read reg = .ok t := by
  obtain ⟨t, ht⟩ := exists_get?_of_lt_size h.1
  exact ⟨t, read_eq_ok.2 ht⟩

theorem Has.next (h : f.Has (reg + 1)) : f.next reg = .ok (reg + 1) :=
  if_pos h.2

theorem Has.writeSingle (h : f.Has reg) (ht : t.isHalf = false) :
    ∃ f', f.writeSingle reg t = .ok f' := by
  obtain ⟨u, hu⟩ := h.read
  refine ⟨f.put reg t, ?_⟩
  have ht : (t.isLowHalf || t.isHighHalf) = false := ht
  simp [Frame.writeSingle, ht, hu, bind, Except.bind, pure, Except.pure]

theorem Has.writePair (h : f.Has (reg + 1)) (hpair : lo.pairsWith hi = true) :
    ∃ f', f.writePair reg lo hi = .ok f' := by
  obtain ⟨u, hu⟩ := h.read
  refine ⟨(f.put reg lo).put (reg + 1) hi, ?_⟩
  simp [Frame.writePair, hpair, h.next, hu, bind, Except.bind, pure, Except.pure]

theorem Has.write (h : f.Has reg) (hnext : t.isLowHalf = true → f.Has (reg + 1))
    (ht : t.isHighHalf = false) : ∃ f', f.write reg t = .ok f' := by
  unfold Frame.write
  cases t with
  | low k => exact (hnext rfl).writePair (by simp [RegType.pairsWith, RegType.highHalf?])
  | high k => exact absurd ht (by simp [RegType.isHighHalf])
  | _ => exact h.writeSingle rfl

theorem Has.holdsPair (h : f.Has reg) (hnext : f.Has (reg + 1)) (p : ClassPool)
    (expected : RegType) : ∃ b, f.holdsPair p reg expected = .ok b := by
  obtain ⟨lo, hlo⟩ := h.read
  obtain ⟨hi, hhi⟩ := hnext.read
  exact ⟨expected.isAssignable p lo && lo.pairsWith hi, by
    simp [Frame.holdsPair, hlo, hhi, hnext.next, bind, Except.bind, pure, Except.pure]⟩

/-- A value left behind is fetched, unless it is not there or not of the form asked for. -/
theorem isRegisterFault_consumeResult {form : ValueForm} {e : FrameError} (h : f.Has reg)
    (hnext : form.isWide = true → f.Has (reg + 1)) (he : f.consumeResult reg form = .error e) :
    e.isRegisterFault = false := by
  unfold consumeResult at he
  split at he
  · cases he
    rfl
  have hwrite : ∀ e, f.writeResult reg form = .error e → e.isRegisterFault = false := by
    intro e he
    unfold writeResult at he
    cases form with
    | single =>
      dsimp only at he
      split at he
      · obtain ⟨f', hf'⟩ := h.writeSingle (RegType.isHalf_of_isSingle ‹_›)
        simp [hf'] at he
      · cases he
        rfl
    | object =>
      dsimp only at he
      split at he
      · obtain ⟨f', hf'⟩ := h.writeSingle (RegType.isHalf_of_isReference ‹_›)
        simp [hf'] at he
      · cases he
        rfl
    | wide =>
      dsimp only at he
      split at he
      · obtain ⟨f', hf'⟩ := (hnext rfl).writePair ‹_›
        simp [hf'] at he
      · cases he
        rfl
  cases hresult : f.writeResult reg form with
  | ok f' => simp [hresult, bind, Except.bind, pure, Except.pure] at he
  | error e' =>
    simp only [hresult, bind, Except.bind] at he
    cases he
    exact hwrite _ hresult

end Frame

end BytecodeVerifier
