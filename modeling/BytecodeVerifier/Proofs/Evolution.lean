import BytecodeVerifier.Proofs.Registers

/-!
# How operations change frames

An operation moves types around in a frame, merges some, and adds fresh ones. `Frame.Evolves` says
that nothing else has happened: no register comes or goes, and the receiver is as it was.

What holds of all types of a frame and is stable under merging (`RegType.Stable`) therefore holds
after every operation.
-/

namespace BytecodeVerifier

namespace RegType

/-- Every handle number in the type stands for something. -/
def isNamed (t : RegType) : Bool :=
  match t with
  | .unissued _ => false
  | t => t.className?.all fun c => c.descriptor?.isSome

/-- A type that an operation writes of its own accord. The receiver of a constructor is never made
    by an operation. -/
structure IsFresh (t : RegType) : Prop where
  wellFormed : t.WellFormed
  notThis : t.isUninitializedThis = false
  named : t.isNamed = true

/-- Operations cannot break the property. -/
structure Stable (p : ClassPool) (Q : RegType → Prop) : Prop where
  fresh {t : RegType} : t.IsFresh → Q t
  merge {a b : RegType} : Q a → Q b → Q (a.merge p b)

theorem stable_wellFormed {p : ClassPool} (hp : p.Regular) : Stable p WellFormed :=
  ⟨IsFresh.wellFormed, fun ha hb => ha.merge hp hb⟩

/-- A type that an operation computes. Unlike the type of an object that has just been allocated, it
    is never that of an object on which no constructor has run. -/
structure IsComputed (t : RegType) : Prop extends t.IsFresh where
  initialized : t.isUninitialized = false

variable (p : ClassPool) (d : Descriptor)

theorem isComputed_reference {d : Descriptor} (hd : d.isReference = true) (precise : Bool) :
    (reference (.named d) precise).IsComputed :=
  ⟨⟨⟨d, rfl, hd⟩, rfl, rfl⟩, rfl⟩

theorem isComputed_undefined : undefined.IsComputed := ⟨⟨trivial, rfl, rfl⟩, rfl⟩

theorem isComputed_conflict : conflict.IsComputed := ⟨⟨trivial, rfl, rfl⟩, rfl⟩

theorem isComputed_constant (v : Int32) (precise : Bool) : (constant v v precise).IsComputed :=
  ⟨⟨Int32.le_refl v, rfl, rfl⟩, rfl⟩

theorem isComputed_object : object.IsComputed :=
  isComputed_reference (Descriptor.isReference_iff.2 (.inl Descriptor.isClass_object)) false

theorem isComputed_ofReference (precise : Bool) : (ofReference p d precise).IsComputed := by
  unfold ofReference
  split
  · exact isComputed_conflict
  · rename_i hd
    split
    · exact isComputed_reference (by simpa using hd) precise
    · exact ⟨⟨trivial, rfl, rfl⟩, rfl⟩

theorem isComputed_ofPrimitive (t : Primitive) : (ofPrimitive t).IsComputed := by
  cases t <;> exact ⟨⟨trivial, rfl, rfl⟩, rfl⟩

theorem isComputed_ofDescriptor (precise : Bool) : (ofDescriptor p d precise).IsComputed := by
  unfold ofDescriptor
  split
  · exact isComputed_conflict
  · exact isComputed_conflict
  · exact isComputed_ofPrimitive _
  · exact isComputed_ofReference p d precise
  · exact isComputed_ofReference p d precise

theorem isComputed_component (t : RegType) : (t.component p).IsComputed := by
  unfold component
  split
  · split
    · exact isComputed_ofDescriptor p _ false
    · exact isComputed_conflict
  · split
    · exact isComputed_ofDescriptor p _ false
    · exact isComputed_conflict
  · exact isComputed_conflict

theorem isComputed_initialized (t : RegType) : (t.initialized p).IsComputed := by
  unfold initialized
  split
  · exact isComputed_ofReference p _ true
  · exact isComputed_ofReference p _ false
  · exact isComputed_conflict

/-- A high half is as good as computed, wherever it comes from. -/
theorem isComputed_of_highHalf? {t hi : RegType} (h : t.highHalf? = some hi) : hi.IsComputed := by
  cases t with
  | low k =>
    cases h
    exact ⟨⟨trivial, rfl, rfl⟩, rfl⟩
  | _ => simp [highHalf?] at h

/-! ## Merging objects on which no constructor has run -/

private theorem initialized_mergeReferences (p : ClassPool) (a b : RegType) :
    (mergeReferences p a b).isUninitialized = false := by
  unfold mergeReferences
  split
  · rfl
  -- neither of the two is uninitialized, so that it does no harm to return one of them
  · rename_i hinit
    simp only [Bool.or_eq_true, not_or, Bool.not_eq_true] at hinit
    repeat' split
    · exact hinit.2
    · exact hinit.1
    all_goals rfl

private theorem initialized_mergeWritten (p : ClassPool) (a b : RegType) :
    (mergeWritten p a b).isUninitialized = false := by
  unfold mergeWritten
  split
  · unfold mergeIntegral
    repeat' split
    all_goals rfl
  · repeat' split
    on_goal 6 => exact initialized_mergeReferences p a b
    all_goals rfl

/-- Two objects of which one is uninitialized merge into an uninitialized one only if they have the
    same type. -/
theorem eq_of_isUninitialized_merge {p : ClassPool} {a b : RegType}
    (h : (a.merge p b).isUninitialized = true) : a = b := by
  unfold merge at h
  split at h
  · assumption
  · split at h
    · exact nomatch h
    · split at h
      · exact nomatch h
      · rw [initialized_mergeWritten] at h
        exact nomatch h

/-! ## Merging types without handle numbers -/

theorem isNamed_of_isFixed {t : RegType} (h : t.isFixed = true) : t.isNamed = true := by
  cases t <;> first | rfl | simp [isFixed] at h

/-- Merging adds no handle number that stands for nothing. -/
theorem stable_isNamed (p : ClassPool) : Stable p (·.isNamed = true) where
  fresh := IsFresh.named
  merge {a b} ha hb := by
    have hmerged := merged_merge p a b
    generalize a.merge p b = t at hmerged
    cases hmerged with
    | left => exact ha
    | right => exact hb
    | fixed ht => exact isNamed_of_isFixed ht
    | constant | object | join => rfl

end RegType

namespace Frame

/-- The type is fresh, or a merge of types of the frame and fresh ones. -/
def Supplies (p : ClassPool) (f : Frame) (t : RegType) : Prop :=
  ∀ Q : RegType → Prop, RegType.Stable p Q → f.All Q → Q t

/-- The frame `f'` has the registers of `f`, with types that `f` supplies. -/
structure Evolves (p : ClassPool) (f f' : Frame) : Prop where
  shape : f'.shape = f.shape
  types : f'.All (f.Supplies p)
  this : f'.thisInitialized = f.thisInitialized

variable {p : ClassPool} {f f' f'' : Frame} {t : RegType} {reg : Nat}

theorem supplies_of_mem (h : t ∈ f.types) : f.Supplies p t := fun _ _ hf => hf t h

theorem supplies_self (p : ClassPool) (f : Frame) : f.All (f.Supplies p) :=
  fun _ => supplies_of_mem

theorem supplies_of_isFresh (h : t.IsFresh) : f.Supplies p t := fun _ hQ _ => hQ.fresh h

theorem Supplies.merge {u : RegType} (ht : f.Supplies p t) (hu : f.Supplies p u) :
    f.Supplies p (t.merge p u) :=
  fun Q hQ hf => hQ.merge (ht Q hQ hf) (hu Q hQ hf)

theorem mem_types_of_get? (h : f.get? reg = some t) : t ∈ f.types := by
  unfold get? at h
  simp only [types, registers, List.mem_append]
  split at h
  · exact .inl (.inl (List.mem_of_getElem? h))
  · exact .inl (.inr (List.mem_of_getElem? h))

@[simp] theorem read_eq_ok : f.read reg = .ok t ↔ f.get? reg = some t := by
  unfold read
  cases f.get? reg <;> simp

/-! ## Parts of an evolution -/

namespace Evolves

theorem refl (p : ClassPool) (f : Frame) : f.Evolves p f :=
  ⟨rfl, fun _ => supplies_of_mem, rfl⟩

/-- What holds of all types and cannot be broken holds afterwards. -/
theorem all {Q : RegType → Prop} (h : f.Evolves p f') (hQ : RegType.Stable p Q) (hf : f.All Q) :
    f'.All Q :=
  fun t ht => h.types t ht Q hQ hf

theorem trans (h : f.Evolves p f') (h' : f'.Evolves p f'') : f.Evolves p f'' :=
  ⟨h'.shape.trans h.shape,
    fun t ht Q hQ hf => h'.types t ht Q hQ (h.all hQ hf), h'.this.trans h.this⟩

theorem mapRegisters {g : RegType → RegType} (hg : ∀ t ∈ f.types, f.Supplies p (g t)) :
    f.Evolves p (f.mapRegisters g) := by
  have hall := all_iff.1 hg
  have hresult := all_iff.1 (supplies_self p f)
  exact ⟨by simp [Frame.shape, Frame.mapRegisters], all_iff.2
    ⟨List.forall_mem_map.2 hall.1, List.forall_mem_map.2 hall.2.1, hresult.2.2⟩, rfl⟩

theorem invalidate (p : ClassPool) (f : Frame) (marker : RegType) :
    f.Evolves p (f.invalidate marker) := by
  refine mapRegisters fun u hu => ?_
  split
  · exact supplies_of_isFresh RegType.isComputed_conflict.toIsFresh
  · exact supplies_of_mem hu

end Evolves

/-- Only the registers that hold the object change when it is marked. -/
theorem evolves_mark (p : ClassPool) (f : Frame) (t : RegType) :
    f.Evolves p { f.markInitialized p t with thisInitialized := f.thisInitialized } := by
  refine .mapRegisters fun u hu => ?_
  split
  · exact supplies_of_isFresh (RegType.isComputed_initialized p t).toIsFresh
  · exact supplies_of_mem hu

end Frame

end BytecodeVerifier
