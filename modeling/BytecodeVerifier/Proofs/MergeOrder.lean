import BytecodeVerifier.Proofs.Widening

/-!
# The order behind merging

`RegType.Below` is the order in which merging goes up. The merge of two types is above both
(`below_merge_left`, `below_merge_right`), and a type absorbs exactly what is below it
(`merge_eq_left_iff`). Merging is not associative, but absorption survives further merges all
the same, because the order is transitive (`merge_absorbs`). For that the bounds of constants have
to be in order.

The merge of two well-formed types is well formed again (`WellFormed.merge`).
-/

namespace BytecodeVerifier

namespace RegType

/-- The bounds of a constant are in order, and a reference names a class or an array. -/
def WellFormed : RegType → Prop
  | .constant lo hi _ => lo ≤ hi
  | .reference c _ => ∃ d : Descriptor, c = .named d ∧ d.isReference = true
  | _ => True

/-- The bounds of a constant are in order. -/
def Ordered : RegType → Prop
  | .constant lo hi _ => lo ≤ hi
  | _ => True

instance : DecidablePred Ordered := fun t =>
  decidable_of_iff (t.range?.all fun r => r.1 ≤ r.2) (by cases t <;> simp [Ordered, range?])

/-- A value of type `t` is usable as one of the primitive type `u`. -/
def fits (t u : RegType) : Bool :=
  match u with
  | .boolean => t.fitsBoolean
  | .byte => t.fitsByte
  | .short => t.fitsShort
  | .char => t.fitsChar
  | .int => t.fitsInt
  | .float => t.fitsFloat
  | .low .long => t.fitsLongLow
  | .high .long => t.fitsLongHigh
  | .low .double => t.fitsDoubleLow
  | .high .double => t.fitsDoubleHigh
  | _ => false

/-- A reference to an object whose constructor has run, or null. -/
def isInitialized (t : RegType) : Bool := t.isReference && !t.isUninitialized

/-- `u` tells no more about a value than `t`. -/
inductive Below (p : ClassPool) : RegType → RegType → Prop
  | refl (t : RegType) : Below p t t
  | conflict (t : RegType) : Below p t .conflict
  | range {lo hi lo' hi' : Int32} (precise : Bool) : lo' ≤ lo → hi ≤ hi' →
      Below p (.constant lo hi precise) (.constant lo' hi' false)
  | primitive {t u : RegType} : t.fits u = true → Below p t u
  | null {t u : RegType} : t.isZero = true → u.isNonNullReference = true →
      u.isUninitialized = false → Below p t u
  | object {t : RegType} : t.isInitialized = true → Below p t .object
  | merged {t : RegType} : t.isInitialized = true → t.isObject = false →
      Below p t .unresolvedMerged
  | reference {d e : Descriptor} (precise : Bool) : p.Widens d e →
      Below p (.reference (.named d) precise) (.reference (.named e) false)

variable {p : ClassPool} {a b t u v : RegType}

/-! ## Constants -/

private theorem isConstantWithin_mono {min max min' max' : Int32} (hmin : min' ≤ min)
    (hmax : max ≤ max') (h : t.isConstantWithin min max = true) :
    t.isConstantWithin min' max' = true := by
  unfold isConstantWithin at h ⊢
  cases hr : t.range? with
  | none => simp [hr] at h
  | some r =>
    simp only [hr, Bool.and_eq_true, decide_eq_true_eq] at h ⊢
    exact ⟨Int32.le_trans hmin h.1, Int32.le_trans h.2 hmax⟩

/-- Where the wider range fits, the narrower one does. -/
theorem fits_of_range {lo hi lo' hi' : Int32} {precise precise' : Bool} (hlo : lo' ≤ lo)
    (hhi : hi ≤ hi') (h : fits (.constant lo' hi' precise') u = true) :
    fits (.constant lo hi precise) u = true := by
  have hwithin : ∀ min max, isConstantWithin (.constant lo' hi' precise') min max = true →
      isConstantWithin (.constant lo hi precise) min max = true := by
    intro min max h
    simp only [isConstantWithin, range?, Bool.and_eq_true, decide_eq_true_eq] at h ⊢
    exact ⟨Int32.le_trans h.1 hlo, Int32.le_trans hhi h.2⟩
  -- a primitive type only asks a constant for bounds that the wider range keeps
  cases u with
  | boolean => simpa [fits, fitsBoolean] using hwithin _ _ (by simpa [fits, fitsBoolean] using h)
  | byte => simpa [fits, fitsByte] using hwithin _ _ (by simpa [fits, fitsByte] using h)
  | short => simpa [fits, fitsShort] using hwithin _ _ (by simpa [fits, fitsShort] using h)
  | char => simpa [fits, fitsChar] using hwithin _ _ (by simpa [fits, fitsChar] using h)
  | int => rfl
  | float => rfl
  | low k => cases k <;> simp [fits, fitsLongLow, fitsDoubleLow] at h
  | high k => cases k <;> simp [fits, fitsLongHigh, fitsDoubleHigh] at h
  | _ => simp [fits] at h

private theorem fitsInt_of_isConstantWithin {min max : Int32}
    (h : t.isConstantWithin min max = true) : t.fitsInt = true := by
  cases t <;> simp_all [isConstantWithin, range?, fitsInt.eq_def]

private theorem fitsByte_of_fitsBoolean (h : t.fitsBoolean = true) : t.fitsByte = true := by
  simp only [fitsBoolean, fitsByte, Bool.or_eq_true] at h ⊢
  exact h.imp .inr (isConstantWithin_mono (by decide) (by decide))

private theorem fitsShort_of_fitsByte (h : t.fitsByte = true) : t.fitsShort = true := by
  simp only [fitsByte, fitsShort, Bool.or_eq_true] at h ⊢
  exact h.imp (.imp .inr id) (isConstantWithin_mono (by decide) (by decide))

private theorem fitsChar_of_fitsBoolean (h : t.fitsBoolean = true) : t.fitsChar = true := by
  simp only [fitsBoolean, fitsChar, Bool.or_eq_true] at h ⊢
  exact h.imp .inr (isConstantWithin_mono (by decide) (by decide))

private theorem fitsInt_of_fitsShort (h : t.fitsShort = true) : t.fitsInt = true := by
  simp only [fitsShort, Bool.or_eq_true, beq_iff_eq] at h
  rcases h with ((rfl | rfl) | rfl) | h
  · rfl
  · rfl
  · rfl
  · exact fitsInt_of_isConstantWithin h

private theorem fitsInt_of_fitsChar (h : t.fitsChar = true) : t.fitsInt = true := by
  simp only [fitsChar, Bool.or_eq_true, beq_iff_eq] at h
  rcases h with (rfl | rfl) | h
  · rfl
  · rfl
  · exact fitsInt_of_isConstantWithin h

/-- Nothing is usable as a constant. -/
private theorem fits_ne_true_of_isConstantWithin {min max : Int32}
    (h : u.isConstantWithin min max = true) : t.fits u ≠ true := by
  cases u <;> simp_all [isConstantWithin, range?, fits]

/-- The primitive types are ordered by what they can be used as. -/
theorem fits_trans (htu : t.fits u = true) (huv : u.fits v = true) : t.fits v = true := by
  -- `u` is not a constant, as nothing is usable as one
  cases v with
  | boolean =>
    simp only [fits, fitsBoolean, Bool.or_eq_true, beq_iff_eq] at huv
    rcases huv with rfl | h
    · exact htu
    · exact absurd htu (fits_ne_true_of_isConstantWithin h)
  | byte =>
    simp only [fits, fitsByte, Bool.or_eq_true, beq_iff_eq] at huv
    rcases huv with (rfl | rfl) | h
    · exact htu
    · exact fitsByte_of_fitsBoolean htu
    · exact absurd htu (fits_ne_true_of_isConstantWithin h)
  | short =>
    simp only [fits, fitsShort, Bool.or_eq_true, beq_iff_eq] at huv
    rcases huv with ((rfl | rfl) | rfl) | h
    · exact htu
    · exact fitsShort_of_fitsByte htu
    · exact fitsShort_of_fitsByte (fitsByte_of_fitsBoolean htu)
    · exact absurd htu (fits_ne_true_of_isConstantWithin h)
  | char =>
    simp only [fits, fitsChar, Bool.or_eq_true, beq_iff_eq] at huv
    rcases huv with (rfl | rfl) | h
    · exact htu
    · exact fitsChar_of_fitsBoolean htu
    · exact absurd htu (fits_ne_true_of_isConstantWithin h)
  | int =>
    cases u with
    | boolean => exact fitsInt_of_fitsShort (fitsShort_of_fitsByte (fitsByte_of_fitsBoolean htu))
    | byte => exact fitsInt_of_fitsShort (fitsShort_of_fitsByte htu)
    | short => exact fitsInt_of_fitsShort htu
    | char => exact fitsInt_of_fitsChar htu
    | int => exact htu
    | constant => simp [fits] at htu
    | _ => simp [fits, fitsInt.eq_def] at huv
  | float =>
    cases u with
    | float => exact htu
    | constant => simp [fits] at htu
    | _ => simp [fits, fitsFloat] at huv
  | low k =>
    cases k <;>
      simp only [fits, fitsLongLow, fitsDoubleLow, Bool.or_eq_true, beq_iff_eq,
        Bool.false_eq_true] at huv <;>
      rcases huv with rfl | rfl <;> first | exact htu | simp [fits] at htu
  | high k =>
    cases k <;>
      simp only [fits, fitsLongHigh, fitsDoubleHigh, Bool.or_eq_true, beq_iff_eq,
        Bool.false_eq_true] at huv <;>
      rcases huv with rfl | rfl <;> first | exact htu | simp [fits] at htu
  | _ => simp [fits] at huv

/-! ## The order -/

theorem WellFormed.ordered (ht : t.WellFormed) : t.Ordered := by
  cases t with
  | constant => exact ht
  | _ => trivial

theorem isInitialized_of_isZero (h : t.isZero = true) : t.isInitialized = true := by
  cases t <;> simp_all [isInitialized, isReference, isZero, range?, isUninitialized]

/-- What is below an initialized reference is one itself. -/
theorem Below.isInitialized (ht : t.Ordered) (h : Below p t u)
    (hu : u.isInitialized = true) : t.isInitialized = true := by
  cases h with
  | refl => exact hu
  | conflict => simp [RegType.isInitialized, isReference, isZero, range?, isNonNullReference] at hu
  | range precise hlo hhi =>
    -- between zero and zero there is only zero
    simp only [RegType.isInitialized, isReference, isZero, range?, isNonNullReference,
      isUninitialized, Bool.or_false, Bool.not_false, Bool.and_true, beq_iff_eq, Option.some.injEq,
      Prod.mk.injEq] at hu ⊢
    obtain ⟨rfl, rfl⟩ := hu
    have hle : _ ≤ _ := ht
    exact ⟨Int32.le_antisymm (Int32.le_trans hle hhi) hlo,
      Int32.le_antisymm hhi (Int32.le_trans hlo hle)⟩
  | primitive hfits =>
    cases u <;> simp_all [fits, RegType.isInitialized, isReference, isZero, range?,
      isNonNullReference]
  | null hzero => exact isInitialized_of_isZero hzero
  | object ht => exact ht
  | merged ht => exact ht
  | reference => rfl

/-- Only a number is usable as a primitive type. -/
theorem isNonNullReference_of_fits (h : t.fits u = true) :
    t.isNonNullReference = false ∧ t.isConflict = false := by
  have hint : t.fitsInt = true → t.isNonNullReference = false ∧ t.isConflict = false := by
    cases t <;> simp [fitsInt.eq_def, isNonNullReference, isConflict]
  -- the integral types are all usable as an `int`
  cases u with
  | boolean => exact hint (fits_trans h rfl : t.fits .int = true)
  | byte => exact hint (fits_trans h rfl : t.fits .int = true)
  | short => exact hint (fits_trans h rfl : t.fits .int = true)
  | char => exact hint (fits_trans h rfl : t.fits .int = true)
  | int => exact hint h
  | float => cases t <;> simp_all [fits, fitsFloat, isNonNullReference, isConflict]
  | low k => cases k <;> cases t <;> simp_all [fits, fitsLongLow, fitsDoubleLow,
      isNonNullReference, isConflict]
  | high k => cases k <;> cases t <;> simp_all [fits, fitsLongHigh, fitsDoubleHigh,
      isNonNullReference, isConflict]
  | _ => simp [fits] at h

/-- Only null is below null. -/
theorem Below.isZero (ht : t.Ordered) (h : Below p t u) (hu : u.isZero = true) :
    t.isZero = true := by
  have hinit := h.isInitialized ht (isInitialized_of_isZero hu)
  cases h with
  | refl => exact hu
  | range =>
    simpa [RegType.isInitialized, isReference, isNonNullReference, isUninitialized] using hinit
  | primitive hfits => cases u <;> simp_all [RegType.isZero, range?, fits]
  | null hzero => exact hzero
  | _ => simp [RegType.isZero, range?, RegType.object] at hu

/-- The root class is below no other class. -/
private theorem Below.isObject (hp : p.Rooted) (h : Below p t u) (hu : u.isInitialized = true)
    (hobject : u.isObject = false) : t.isObject = false := by
  cases h with
  | refl => exact hobject
  | conflict => simp [RegType.isInitialized, isReference, RegType.isZero, range?,
      isNonNullReference] at hu
  | range => rfl
  | primitive hfits =>
    have hnull := (isNonNullReference_of_fits hfits).1
    cases t <;> simp_all [isNonNullReference, RegType.isObject]
  | null hzero => cases t <;> simp_all [RegType.isZero, range?, RegType.isObject]
  | object => simp [RegType.isObject, RegType.object] at hobject
  | merged _ ht => exact ht
  | @reference d e precise hwidens =>
    simp only [RegType.isObject, beq_eq_false_iff_ne, ne_eq, ClassName.named.injEq] at hobject ⊢
    exact fun hd => hobject (hwidens.eq_object hp hd)

theorem Below.trans (hp : p.Regular) (ht : t.Ordered) (htu : Below p t u) (huv : Below p u v) :
    Below p t v := by
  -- each case says why what is below `u` can take the last step, too
  cases huv with
  | refl => exact htu
  | conflict => exact .conflict t
  | range precise hlo hhi =>
    cases htu with
    | refl => exact .range _ hlo hhi
    | range _ hlo' hhi' => exact .range _ (Int32.le_trans hlo hlo') (Int32.le_trans hhi' hhi)
    | primitive hfits => simp [fits] at hfits
    | null _ hnull => simp [isNonNullReference] at hnull
  | primitive huv =>
    obtain ⟨hnull, hconflict⟩ := isNonNullReference_of_fits huv
    cases htu with
    | refl => exact .primitive huv
    | range precise hlo hhi => exact .primitive (fits_of_range hlo hhi huv)
    | primitive htu => exact .primitive (fits_trans htu huv)
    | conflict => simp [isConflict] at hconflict
    | null _ hnull' => simp [hnull] at hnull'
    | _ => simp [isNonNullReference, RegType.object] at hnull
  | null hzero hnull hinit => exact .null (htu.isZero ht hzero) hnull hinit
  | object hu => exact .object (htu.isInitialized ht hu)
  | merged hu hobject =>
    exact .merged (htu.isInitialized ht hu) (htu.isObject hp.rooted hu hobject)
  | reference precise hwidens =>
    cases htu with
    | refl => exact .reference _ hwidens
    | primitive hfits => simp [fits] at hfits
    | null hzero _ hinit => exact .null hzero rfl rfl
    | object ht =>
      rw [hwidens.eq_object hp.rooted rfl]
      exact .object ht
    | reference precise' hwidens' => exact .reference _ (hwidens'.trans hp hwidens)

/-! ## Merging goes up -/

private theorem min_le_both (x y : Int32) : min x y ≤ x ∧ min x y ≤ y := by
  change (if x ≤ y then x else y) ≤ x ∧ (if x ≤ y then x else y) ≤ y
  split
  · exact ⟨Int32.le_refl x, ‹_›⟩
  · exact ⟨(Int32.le_total x y).resolve_left ‹_›, Int32.le_refl y⟩

private theorem le_max_both (x y : Int32) : x ≤ max x y ∧ y ≤ max x y := by
  change x ≤ (if x ≤ y then y else x) ∧ y ≤ (if x ≤ y then y else x)
  split
  · exact ⟨‹_›, Int32.le_refl y⟩
  · exact ⟨Int32.le_refl x, (Int32.le_total x y).resolve_left ‹_›⟩

/-- The merge of two integral types is above both. -/
private theorem fits_mergeIntegral (ha : a.fitsInt = true) (hb : b.fitsInt = true) :
    a.fits (mergeIntegral a b) = true ∧ b.fits (mergeIntegral a b) = true := by
  unfold mergeIntegral
  split
  · exact Bool.and_eq_true_iff.1 ‹_›
  split
  · exact Bool.and_eq_true_iff.1 ‹_›
  split
  · exact Bool.and_eq_true_iff.1 ‹_›
  split
  · exact Bool.and_eq_true_iff.1 ‹_›
  · exact ⟨ha, hb⟩

/-- Only a constant has bounds. -/
private theorem eq_constant_of_range? {lo hi : Int32} (h : t.range? = some (lo, hi)) :
    ∃ precise, t = .constant lo hi precise := by
  cases t <;> simp_all [range?]

/-- A reference that is neither null nor unresolved names its class. -/
theorem eq_reference_of_isInitialized (hinit : t.isInitialized = true)
    (hzero : t.isZero = false) (hknown : t.isUnresolved = false) :
    ∃ (c : ClassName) (precise : Bool), t = .reference c precise := by
  cases t with
  | reference c precise => exact ⟨c, precise, rfl⟩
  | _ => simp_all [isInitialized, isReference, isNonNullReference, isUninitialized, isUnresolved]

/-- The merge of two references, not both null, is above both. -/
private theorem below_mergeReferences (hbound : p.Bounded) (hnamed : p.Named)
    (haRef : a.isReference = true) (hbRef : b.isReference = true)
    (hnull : a.range? = none ∨ b.range? = none) :
    Below p a (mergeReferences p a b) ∧ Below p b (mergeReferences p a b) := by
  unfold mergeReferences
  split
  · exact ⟨.conflict a, .conflict b⟩
  rename_i huninit
  simp only [Bool.or_eq_true, not_or, Bool.not_eq_true] at huninit
  have haInit : a.isInitialized = true := by simp [isInitialized, haRef, huninit.1]
  have hbInit : b.isInitialized = true := by simp [isInitialized, hbRef, huninit.2]
  split
  -- the first is null and, as not both are constants, the second is not
  · rename_i hzero
    have hb' : b.isNonNullReference = true := by
      have : b.range? = none := hnull.resolve_left (by simp_all [isZero])
      simpa [isReference, isZero, this] using hbRef
    exact ⟨.null hzero hb' huninit.2, .refl b⟩
  split
  · rename_i hzero
    have ha' : a.isNonNullReference = true := by
      have : a.range? = none := hnull.resolve_right (by simp_all [isZero])
      simpa [isReference, isZero, this] using haRef
    exact ⟨.refl a, .null hzero ha' huninit.1⟩
  split
  · exact ⟨.object haInit, .object hbInit⟩
  rename_i hobject
  simp only [Bool.or_eq_true, not_or, Bool.not_eq_true] at hobject
  split
  · exact ⟨.merged haInit hobject.1, .merged hbInit hobject.2⟩
  -- two known classes, and their join is above both unless a name stands for nothing
  · rename_i haZero hbZero hknown
    simp only [Bool.or_eq_true, not_or, Bool.not_eq_true] at hknown
    obtain ⟨ca, pa, rfl⟩ := eq_reference_of_isInitialized haInit (by simpa using haZero) hknown.1
    obtain ⟨cb, pb, rfl⟩ := eq_reference_of_isInitialized hbInit (by simpa using hbZero) hknown.2
    cases ca with
    | unissued n => exact ⟨.conflict _, .conflict _⟩
    | named da =>
      cases cb with
      | unissued n => exact ⟨.conflict _, .conflict _⟩
      | named db =>
        exact ⟨.reference _ (ClassPool.widens_join_left hbound hnamed da db),
          .reference _ (ClassPool.widens_join_right hbound hnamed da db)⟩

/-- The merge of two types is above both. -/
private theorem below_merge (hbound : p.Bounded) (hnamed : p.Named) (a b : RegType) :
    Below p a (a.merge p b) ∧ Below p b (a.merge p b) := by
  unfold merge
  split
  · rename_i heq
    exact ⟨.refl a, heq ▸ .refl a⟩
  split
  · exact ⟨.conflict a, .conflict b⟩
  split
  · rename_i alo ahi blo bhi hra hrb
    obtain ⟨pa, rfl⟩ := eq_constant_of_range? hra
    obtain ⟨pb, rfl⟩ := eq_constant_of_range? hrb
    obtain ⟨hminA, hminB⟩ := min_le_both alo blo
    obtain ⟨hmaxA, hmaxB⟩ := le_max_both ahi bhi
    exact ⟨.range _ hminA hmaxA, .range _ hminB hmaxB⟩
  · rename_i hranges
    have hnull : a.range? = none ∨ b.range? = none := by
      by_contra hno
      simp only [not_or, ← ne_eq, Option.ne_none_iff_exists'] at hno
      obtain ⟨⟨⟨alo, ahi⟩, hra⟩, ⟨blo, bhi⟩, hrb⟩ := hno
      exact hranges alo ahi blo bhi hra hrb
    -- not both are constants; the cases follow the order in which they are tried
    unfold mergeWritten
    split
    · rename_i hint
      obtain ⟨haInt, hbInt⟩ := Bool.and_eq_true_iff.1 hint
      obtain ⟨hleft, hright⟩ := fits_mergeIntegral haInt hbInt
      exact ⟨.primitive hleft, .primitive hright⟩
    split
    · exact (Bool.and_eq_true_iff.1 ‹_›).imp (.primitive (u := .float)) (.primitive (u := .float))
    split
    · exact (Bool.and_eq_true_iff.1 ‹_›).imp (.primitive (u := .low .long))
        (.primitive (u := .low .long))
    split
    · exact (Bool.and_eq_true_iff.1 ‹_›).imp (.primitive (u := .high .long))
        (.primitive (u := .high .long))
    split
    · exact (Bool.and_eq_true_iff.1 ‹_›).imp (.primitive (u := .low .double))
        (.primitive (u := .low .double))
    split
    · exact (Bool.and_eq_true_iff.1 ‹_›).imp (.primitive (u := .high .double))
        (.primitive (u := .high .double))
    split
    · rename_i hrefs
      obtain ⟨haRef, hbRef⟩ := Bool.and_eq_true_iff.1 hrefs
      exact below_mergeReferences hbound hnamed haRef hbRef hnull
    · exact ⟨.conflict a, .conflict b⟩

theorem below_merge_left (hbound : p.Bounded) (hnamed : p.Named) (a b : RegType) :
    Below p a (a.merge p b) :=
  (below_merge hbound hnamed a b).1

theorem below_merge_right (hbound : p.Bounded) (hnamed : p.Named) (a b : RegType) :
    Below p b (a.merge p b) :=
  (below_merge hbound hnamed a b).2

/-! ## Absorption -/

/-- A type that is usable as `a` is integral if `a` is, and then `a` is the least integral type as
    which both are usable. -/
private theorem mergeIntegral_of_fits (ha : a.fitsInt = true) (h : b.fits a = true) :
    b.fitsInt = true ∧ mergeIntegral a b = a := by
  refine ⟨(fits_trans h ha : b.fits .int = true), ?_⟩
  -- the types that are tried before `a` are those that `a` itself does not fit
  cases a with
  | boolean =>
    have hself : boolean.fitsBoolean = true := rfl
    have h : b.fitsBoolean = true := h
    simp [mergeIntegral, hself, h]
  | byte =>
    have hself : byte.fitsBoolean = false ∧ byte.fitsByte = true := ⟨rfl, rfl⟩
    have h : b.fitsByte = true := h
    simp [mergeIntegral, hself, h]
  | short =>
    have hself : short.fitsBoolean = false ∧ short.fitsByte = false ∧ short.fitsShort = true :=
      ⟨rfl, rfl, rfl⟩
    have h : b.fitsShort = true := h
    simp [mergeIntegral, hself, h]
  | char =>
    have hself : char.fitsBoolean = false ∧ char.fitsByte = false ∧ char.fitsShort = false ∧
        char.fitsChar = true := ⟨rfl, rfl, rfl, rfl⟩
    have h : b.fitsChar = true := h
    simp [mergeIntegral, hself, h]
  | int => rfl
  | constant => simp [fits] at h
  | _ => simp [fitsInt.eq_def] at ha

/-- A primitive type absorbs whatever is usable as it. -/
private theorem merge_of_fits (h : b.fits a = true) : a.merge p b = a := by
  by_cases heq : a = b
  · simp [merge, heq]
  by_cases hint : a.fitsInt = true
  · obtain ⟨hb, hmerge⟩ := mergeIntegral_of_fits hint h
    cases a <;> cases b <;>
      simp_all [fits, fitsInt.eq_def, merge, isConflict, isUndefined, range?, mergeWritten]
  · cases a with
    | float =>
      cases b <;> simp_all [fits, fitsFloat, fitsInt.eq_def, merge, isConflict, isUndefined, range?,
        mergeWritten]
    | low k =>
      cases k with
      | constant => simp [fits] at h
      | _ =>
        simp only [fits, fitsLongLow, fitsDoubleLow, Bool.or_eq_true, beq_iff_eq] at h
        rcases h with rfl | rfl
        · exact absurd rfl heq
        · rfl
    | high k =>
      cases k with
      | constant => simp [fits] at h
      | _ =>
        simp only [fits, fitsLongHigh, fitsDoubleHigh, Bool.or_eq_true, beq_iff_eq] at h
        rcases h with rfl | rfl
        · exact absurd rfl heq
        · rfl
    | boolean | byte | char | short | int | constant => exact absurd rfl hint
    | _ => simp [fits] at h

/-- References are merged as such, unless both are null. -/
private theorem merge_eq_mergeReferences (hne : a ≠ b) (ha : a.isNonNullReference = true)
    (hb : b.isReference = true) : a.merge p b = mergeReferences p a b := by
  have haRef : a.isReference = true := by simp [isReference, ha]
  have hbUsable : b.isConflict = false ∧ b.isUndefined = false := by
    cases b <;> simp_all [isReference, isZero, range?, isNonNullReference, isConflict, isUndefined]
  have haUsable : a.isConflict = false ∧ a.isUndefined = false ∧ a.range? = none := by
    cases a <;> simp_all [isNonNullReference, isConflict, isUndefined, range?]
  -- nothing but a number is usable as a primitive type
  have hfits : a.fitsInt = false ∧ a.fitsFloat = false ∧ a.fitsLongLow = false ∧
      a.fitsLongHigh = false ∧ a.fitsDoubleLow = false ∧ a.fitsDoubleHigh = false := by
    cases a with
    | reference | unresolved | unresolvedMerged | uninitialized | uninitializedThis =>
      exact ⟨rfl, rfl, rfl, rfl, rfl, rfl⟩
    | _ => simp [isNonNullReference] at ha
  simp [merge, hne, haUsable, hbUsable, mergeWritten, hfits, haRef, hb]

/-- An initialized reference absorbs null. -/
private theorem merge_of_isZero (hzero : b.isZero = true) (hnull : a.isNonNullReference = true)
    (hinit : a.isUninitialized = false) : a.merge p b = a := by
  have hne : a ≠ b := by
    rintro rfl
    cases a <;> simp_all [isZero, range?, isNonNullReference]
  have hb : b.isUninitialized = false := by
    cases b <;> simp_all [isZero, range?, isUninitialized]
  have ha : a.isZero = false := by
    cases a <;> simp_all [isZero, range?, isNonNullReference]
  rw [merge_eq_mergeReferences hne hnull (by simp [isReference, hzero])]
  simp [mergeReferences, hinit, hb, ha, hzero]

/-- A type absorbs what is below it. -/
theorem merge_eq_left (hp : p.Rooted) (h : Below p b a) : a.merge p b = a := by
  by_cases heq : a = b
  · simp [merge, heq]
  cases h with
  | refl => simp [merge]
  | conflict => simp [merge, isConflict]
  | @range lo hi lo' hi' precise hlo hhi =>
    have hmin : min lo' lo = lo' := if_pos hlo
    have hmax : max hi' hi = hi' := by
      change (if hi' ≤ hi then hi else hi') = hi'
      split
      · exact Int32.le_antisymm hhi ‹_›
      · rfl
    simp [merge, heq, isConflict, isUndefined, range?, hmin, hmax]
  | primitive hfits => exact merge_of_fits hfits
  | null hzero hnull hinit => exact merge_of_isZero hzero hnull hinit
  -- null is absorbed as such, any other reference because this is the root class
  | object hb =>
    by_cases hzero : b.isZero = true
    · exact merge_of_isZero hzero rfl rfl
    simp only [isInitialized, Bool.and_eq_true, Bool.not_eq_true'] at hb
    rw [merge_eq_mergeReferences heq rfl hb.1]
    have hself : object.isUninitialized = false ∧ object.isZero = false ∧ object.isObject = true :=
      ⟨rfl, rfl, by simp [object, isObject]⟩
    simp [mergeReferences, hb.2, hzero, hself]
  | merged hb hobject =>
    by_cases hzero : b.isZero = true
    · exact merge_of_isZero hzero rfl rfl
    simp only [isInitialized, Bool.and_eq_true, Bool.not_eq_true'] at hb
    rw [merge_eq_mergeReferences heq rfl hb.1]
    have hself : unresolvedMerged.isUninitialized = false ∧ unresolvedMerged.isZero = false ∧
        unresolvedMerged.isObject = false ∧ unresolvedMerged.isUnresolved = true :=
      ⟨rfl, rfl, rfl, rfl⟩
    simp [mergeReferences, hb.2, hzero, hobject, hself]
  | @reference d e precise hwidens =>
    rw [merge_eq_mergeReferences heq rfl rfl]
    have hjoin := ClassPool.join_eq_left hp hwidens
    by_cases hroot : e = .object
    · simp [mergeReferences, isUninitialized, isZero, range?, isObject, hroot, object]
    · have hd : d ≠ .object := fun hd => hroot (hwidens.eq_object hp hd)
      simp [mergeReferences, isUninitialized, isZero, range?, isObject, hroot, hd, isUnresolved,
        descriptor?, className?, ClassName.descriptor?, hjoin]

/-- A type absorbs exactly what is below it. -/
theorem merge_eq_left_iff (hp : p.Regular) : a.merge p b = a ↔ Below p b a := by
  constructor
  · intro h
    have := below_merge_right hp.bounded hp.named a b
    rwa [h] at this
  · exact merge_eq_left hp.rooted

/-! ## What a merge can be -/

/-- The type has no bounds and names no class. -/
def isFixed : RegType → Bool
  | .unissued _ | .constant _ _ _ | .reference _ _ | .unresolved _ => false
  | .uninitialized _ _ | .uninitializedThis _ => false
  | _ => true

/-- `t` can come of merging `a` with `b`. -/
inductive Merged (p : ClassPool) (a b : RegType) : RegType → Prop
  | left : Merged p a b a
  | right : Merged p a b b
  | fixed {t : RegType} : t.isFixed = true → Merged p a b t
  | constant {alo ahi blo bhi : Int32} {pa pb : Bool} : a = .constant alo ahi pa →
      b = .constant blo bhi pb → Merged p a b (.constant (min alo blo) (max ahi bhi) false)
  | object : a.isInitialized = true → b.isInitialized = true → Merged p a b .object
  | join {da db : Descriptor} {pa pb : Bool} : a = .reference (.named da) pa →
      b = .reference (.named db) pb → Merged p a b (.reference (.named (p.join da db)) false)

private theorem merged_mergeReferences (p : ClassPool) (ha : a.isReference = true)
    (hb : b.isReference = true) : Merged p a b (mergeReferences p a b) := by
  unfold mergeReferences
  split
  · exact .fixed rfl
  rename_i huninit
  simp only [Bool.or_eq_true, not_or, Bool.not_eq_true] at huninit
  have haInit : a.isInitialized = true := by simp [isInitialized, ha, huninit.1]
  have hbInit : b.isInitialized = true := by simp [isInitialized, hb, huninit.2]
  split
  · exact .right
  split
  · exact .left
  split
  · exact .object haInit hbInit
  split
  · exact .fixed rfl
  · rename_i haZero hbZero _ hknown
    simp only [Bool.or_eq_true, not_or, Bool.not_eq_true] at hknown
    obtain ⟨ca, pa, rfl⟩ := eq_reference_of_isInitialized haInit (by simpa using haZero) hknown.1
    obtain ⟨cb, pb, rfl⟩ := eq_reference_of_isInitialized hbInit (by simpa using hbZero) hknown.2
    cases ca with
    | unissued n => exact .fixed rfl
    | named da =>
      cases cb with
      | unissued n => exact .fixed rfl
      | named db => exact .join rfl rfl

theorem isFixed_mergeIntegral (a b : RegType) : (mergeIntegral a b).isFixed = true := by
  unfold mergeIntegral
  repeat' split
  all_goals rfl

theorem merged_merge (p : ClassPool) (a b : RegType) : Merged p a b (a.merge p b) := by
  unfold merge
  split
  · exact .left
  split
  · exact .fixed rfl
  split
  · rename_i hra hrb
    obtain ⟨pa, ha⟩ := eq_constant_of_range? hra
    obtain ⟨pb, hb⟩ := eq_constant_of_range? hrb
    exact .constant ha hb
  · unfold mergeWritten
    split
    · exact .fixed (isFixed_mergeIntegral a b)
    repeat (split; exact .fixed rfl)
    split
    · obtain ⟨ha, hb⟩ := Bool.and_eq_true_iff.1 ‹_›
      exact merged_mergeReferences p ha hb
    · exact .fixed rfl

/-- The bounds of a merged constant are in order. -/
theorem Ordered.merge (ha : a.Ordered) (hb : b.Ordered) : (a.merge p b).Ordered := by
  have hmerged := merged_merge p a b
  generalize a.merge p b = t at hmerged
  cases hmerged with
  | left => exact ha
  | right => exact hb
  | fixed ht =>
    cases t with
    | constant => simp [isFixed] at ht
    | _ => trivial
  | @constant alo ahi blo bhi pa pb hconstant =>
    subst hconstant
    have hle : alo ≤ ahi := ha
    exact Int32.le_trans (min_le_both alo blo).1 (Int32.le_trans hle (le_max_both ahi bhi).1)
  | object | join => trivial

/-- The merge of two types is well formed if both are. -/
theorem WellFormed.merge (hp : p.Regular) (ha : a.WellFormed) (hb : b.WellFormed) :
    (a.merge p b).WellFormed := by
  have hordered := ha.ordered.merge (p := p) hb.ordered
  have hmerged := merged_merge p a b
  generalize a.merge p b = t at hmerged hordered
  cases hmerged with
  | left => exact ha
  | right => exact hb
  | fixed ht =>
    cases t with
    | constant | reference => simp [isFixed] at ht
    | _ => trivial
  | constant => exact hordered
  | object => exact ⟨.object, rfl, Descriptor.isReference_iff.2 (.inl Descriptor.isClass_object)⟩
  | @join da db pa pb haRef hbRef =>
    subst haRef hbRef
    obtain ⟨_, hda, hrefA⟩ := ha
    obtain ⟨_, hdb, hrefB⟩ := hb
    cases hda
    cases hdb
    exact ⟨p.join da db, rfl, ClassPool.isReference_join hp hrefA hrefB⟩

/-! ## Further merges -/

/-- What has been absorbed stays so when the type is merged further. -/
theorem merge_absorbs (hp : p.Regular) (hb : b.Ordered) (h : a.merge p b = a) (c : RegType) :
    (a.merge p c).merge p b = a.merge p c := by
  have hbelow := (merge_eq_left_iff hp).1 h
  exact merge_eq_left hp.rooted
    (hbelow.trans hp hb (below_merge_left hp.bounded hp.named a c))

/-- What has just been merged is absorbed. -/
theorem merge_merge_right (hp : p.Regular) (a b : RegType) :
    (a.merge p b).merge p b = a.merge p b :=
  merge_eq_left hp.rooted (below_merge_right hp.bounded hp.named a b)

end RegType

end BytecodeVerifier
