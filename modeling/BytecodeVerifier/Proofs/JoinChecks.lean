import BytecodeVerifier.Proofs.UpperBound

/-!
# Checks at a join

What takes the merge of two types takes both of them (`Lookup.isAssignable_of_merge`), so that a
check made where two paths meet stands for a check on each path. As in `Lookup.isAssignable_merge`
the argument is about the order of `RegType.Below`: what takes a type takes whatever is below it
(`RegType.Below.isAssignable_of_isAssignable`).

Two kinds of types are lenient and left out. An interface takes the root class, and with it the
merge of an array and a class, but no array. A class that is not known may be anything, and so may a
merge with it. As elsewhere, every class has to be known under the descriptor of a class: in
`misnamedPool` an array of `int` takes the merge of two arrays of objects and neither of the two
(`misnamed_not_isAssignable_of_merge`).
-/

namespace BytecodeVerifier

namespace ClassPool

variable {p : ClassPool} {a b l : Descriptor}

/-- An interface is its own element type. -/
private theorem element_of_isInterface (hnamed : p.Named) (h : p.isInterface l = true) :
    l.element = l := by
  unfold isInterface at h
  cases hc : p.find? l with
  | none => simp [hc] at h
  | some c =>
    obtain ⟨hmem, hdesc⟩ := find?_spec hc
    exact (Descriptor.isClass_spec (hdesc ▸ hnamed c hmem)).2.2

/-- What takes a type that is no array, other than an interface, is a class above it. -/
private theorem eq_object_or_isSubclass (hnamed : p.Named) (hl : p.isInterface l.element = false)
    (hb : b.isArray = false) (h : p.isAssignable l b = true) :
    l = .object ∨ l.isArray = false ∧ p.isSubclass b l = true := by
  have hinterface : p.isInterface l = false := by
    rw [← Bool.not_eq_true]
    intro hinterface
    simp [element_of_isInterface hnamed hinterface, hinterface] at hl
  rw [← Descriptor.component?_eq_none_iff] at hb
  unfold isAssignable at h
  rw [isAssignableUpTo.eq_def] at h
  split at h
  · rename_i hsame
    simp only [Bool.or_eq_true, decide_eq_true_eq] at hsame
    rcases hsame with rfl | rfl
    · exact .inr ⟨Descriptor.component?_eq_none_iff.1 hb, isSubclass_refl p l⟩
    · exact .inl rfl
  · rw [hb] at h
    cases hcl : l.component? with
    | some cl => simp [hcl] at h
    | none =>
      simp only [hcl, hinterface, Bool.false_or] at h
      exact .inr ⟨Descriptor.component?_eq_none_iff.1 hcl, h⟩

/-- What takes a type takes whatever is below it, unless its elements are interfaces. -/
theorem Widens.isAssignable_of_isAssignable (hroot : p.Rooted) (hbound : p.Bounded)
    (hnamed : p.Named) (h : p.Widens a b) (hl : p.isInterface l.element = false)
    (hb : p.isAssignable l b = true) : p.isAssignable l a = true := by
  induction h generalizing l with
  | refl => exact hb
  | object a =>
    -- only the root class takes the root class
    have : l = .object := by
      rcases eq_object_or_isSubclass hnamed hl isArray_object hb with rfl | ⟨-, hsub⟩
      · rfl
      · exact eq_object_of_isSubclass hroot hsub
    subst this
    exact (Widens.object a).isAssignable
  | @element a b ha hbArray hsub =>
    rcases eq_object_or_isSubclass hnamed hl hbArray hb with rfl | ⟨hlArray, hsub'⟩
    · exact (Widens.object a).isAssignable
    · exact (Widens.element ha hlArray (isSubclass_trans hbound hsub hsub')).isAssignable
  | @array a b ha hbArray haRef hbRef hwidens ih =>
    by_cases hsame : l = b.arrayOf
    · subst hsame
      exact (Widens.array ha hbArray haRef hbRef hwidens).isAssignable
    by_cases hobject : l = .object
    · subst hobject
      exact (Widens.object _).isAssignable
    unfold ClassPool.isAssignable at hb ⊢
    rw [isAssignableUpTo.eq_def, Descriptor.component?_arrayOf hbArray] at hb
    rw [isAssignableUpTo.eq_def, Descriptor.component?_arrayOf ha]
    split
    · rfl
    cases hcl : l.component? with
    | none => simpa [hcl, hsame, hobject] using hb
    | some cl =>
      -- an array of `cl` takes both arrays just if `cl` takes their elements
      obtain ⟨-, rfl⟩ := Descriptor.component?_eq_some_iff.1 hcl
      have hprimitive : cl.isPrimitive = false := by
        rw [← Bool.not_eq_true]
        intro hprimitive
        have : cl = b := by simpa [hcl, hsame, hobject, hprimitive] using hb
        simp [this, Descriptor.isPrimitive_of_isReference hbRef] at hprimitive
      rw [Descriptor.element_arrayOf] at hl
      simp only [hcl, hsame, hobject, Descriptor.dimensions_arrayOf, hprimitive,
        Descriptor.isPrimitive_of_isReference haRef, Descriptor.isPrimitive_of_isReference hbRef,
        Bool.or_self, Bool.false_eq_true, if_false, decide_false] at hb ⊢
      exact ih hl hb

end ClassPool

namespace RegType

variable {p : ClassPool} {e t u : RegType}

/-- What a type takes: itself, and apart from that as its kind of type demands. -/
private theorem isAssignable_iff : e.isAssignable p t = true ↔ e = t ∨ t.fits e = true ∨
    (∃ lo hi, e.range? = some (lo, hi) ∧ t.isConstantWithin lo hi = true) ∨
    (e = .unresolvedMerged ∧ t.isReference = true) ∨
    (e.isNonNullReference = true ∧ e ≠ .unresolvedMerged ∧
      isReferenceAssignable p e t = true) := by
  by_cases hsame : e = t
  · simp [RegType.isAssignable, hsame]
  cases e with
  | low k | high k =>
    cases k <;> simp [RegType.isAssignable, hsame, fits, range?, isNonNullReference]
  | _ => simp [RegType.isAssignable, hsame, fits, range?, isNonNullReference]

/-- What it takes to take a reference to a known class. -/
private theorem isReferenceAssignable_reference_iff {d : Descriptor} {precise : Bool} :
    isReferenceAssignable p e (.reference (.named d) precise) = true ↔
      e.isUninitialized = false ∧
        (e.isUnresolved = true ∨ ∃ l, e.descriptor? = some l ∧ p.isAssignable l d = true) := by
  have hself : isZero (.reference (.named d) precise) = false ∧
      isReference (.reference (.named d) precise) = true ∧
      isUninitialized (.reference (.named d) precise) = false ∧
      isUnresolved (.reference (.named d) precise) = false ∧
      descriptor? (.reference (.named d) precise) = some d := ⟨rfl, rfl, rfl, rfl, rfl⟩
  unfold isReferenceAssignable
  cases e.isUninitialized <;> cases e.isUnresolved <;> cases e.descriptor? <;> simp [hself]

private theorem isReference_of_isReferenceAssignable
    (h : isReferenceAssignable p e u = true) : u.isReference = true := by
  unfold isReferenceAssignable at h
  split at h
  · simp_all [isReference]
  split at h
  · exact absurd h Bool.false_ne_true
  · rename_i href
    simpa using href

/-- What is below a reference is one itself. -/
private theorem Below.isReference (ht : t.Ordered) (h : Below p t u)
    (hu : u.isReference = true) : t.isReference = true := by
  cases h with
  | refl => exact hu
  | conflict => simp [RegType.isReference, RegType.isZero, range?, isNonNullReference] at hu
  | range precise hlo hhi =>
    -- of the constants only zero is a reference
    have hzero := Below.isZero (p := p) ht (.range precise hlo hhi)
      (by simpa [RegType.isReference, isNonNullReference] using hu)
    simp [RegType.isReference, hzero]
  | primitive hfits => cases u <;> simp_all [fits, RegType.isReference, RegType.isZero, range?,
      isNonNullReference]
  | null hzero => simp [RegType.isReference, hzero]
  | object hinit | merged hinit =>
    simp only [RegType.isInitialized, Bool.and_eq_true] at hinit
    exact hinit.1
  | reference => rfl

/-- A reference type that takes a reference takes whatever is below that. -/
private theorem Below.isReferenceAssignable (hroot : p.Rooted) (hbound : p.Bounded)
    (hnamed : p.Named) (ht : t.Ordered) (hname : ∀ n, t.className? ≠ some (.unissued n))
    (h : Below p t u) (hu : u ≠ .unresolvedMerged)
    (he : ∀ l, e.descriptor? = some l → p.isInterface l.element = false)
    (htake : RegType.isReferenceAssignable p e u = true) :
    RegType.isReferenceAssignable p e t = true := by
  by_cases hzero : t.isZero = true
  · simp [RegType.isReferenceAssignable, hzero]
  rw [Bool.not_eq_true] at hzero
  -- the class of `u` has that of `t` below it
  have hwiden : ∀ {d d' : Descriptor} {precise precise' : Bool}, p.Widens d d' →
      RegType.isReferenceAssignable p e (.reference (.named d') precise') = true →
      RegType.isReferenceAssignable p e (.reference (.named d) precise) = true := by
    intro d d' precise precise' hwidens htake
    rw [isReferenceAssignable_reference_iff] at htake ⊢
    refine ⟨htake.1, htake.2.imp id ?_⟩
    rintro ⟨l, hl, htake⟩
    exact ⟨l, hl, hwidens.isAssignable_of_isAssignable hroot hbound hnamed (he l hl) htake⟩
  have href := isReference_of_isReferenceAssignable htake
  have hself := h.isReference ht href
  cases h with
  | refl => exact htake
  | conflict => simp [RegType.isReference, RegType.isZero, range?, isNonNullReference] at href
  | range => simp [RegType.isReference, hzero, isNonNullReference] at hself
  | primitive hfits => simp [RegType.isReference, hzero, isNonNullReference_of_fits hfits] at hself
  | null hnull => simp [hnull] at hzero
  | object hinit =>
    cases hknown : t.isUnresolved with
    | false =>
      obtain ⟨c, precise, rfl⟩ := eq_reference_of_isInitialized hinit hzero hknown
      cases c with
      | named d => exact hwiden (.object d) htake
      | unissued n => exact absurd rfl (hname n)
    | true =>
      have huninit := (isReferenceAssignable_reference_iff.1 htake).1
      simp only [RegType.isInitialized, Bool.and_eq_true, Bool.not_eq_true'] at hinit
      simp [RegType.isReferenceAssignable, hinit, huninit, hknown]
  | merged => exact absurd rfl hu
  | reference precise hwidens => exact hwiden hwidens htake

/-- What takes a type takes whatever is below it, unless it is a conflict, its elements are
    interfaces, or the type stands for classes that are not known. -/
theorem Below.isAssignable_of_isAssignable (hroot : p.Rooted) (hbound : p.Bounded)
    (hnamed : p.Named) (ht : t.Ordered) (hname : ∀ n, t.className? ≠ some (.unissued n))
    (h : Below p t u) (hu : u ≠ .unresolvedMerged) (hconflict : e ≠ .conflict)
    (he : ∀ l, e.descriptor? = some l → p.isInterface l.element = false)
    (htake : e.isAssignable p u = true) : e.isAssignable p t = true := by
  rcases isAssignable_iff.1 htake with rfl | hfits | ⟨lo, hi, hrange, hwithin⟩ | ⟨rfl, href⟩ |
    ⟨hnull, hmerged, href⟩
  · exact h.isAssignable hconflict hname
  -- `e` is primitive
  · obtain ⟨hnull, hdefined⟩ := isNonNullReference_of_fits hfits
    refine isAssignable_iff.2 (.inr (.inl ?_))
    cases h with
    | refl => exact hfits
    | conflict => simp [isConflict] at hdefined
    | range precise hlo hhi => exact fits_of_range hlo hhi hfits
    | primitive hfits' => exact fits_trans hfits' hfits
    | null _ hnull' => simp [hnull] at hnull'
    | object | merged | reference => simp [isNonNullReference, RegType.object] at hnull
  -- `e` is a range of constants
  · refine isAssignable_iff.2 (.inr (.inr (.inl ⟨lo, hi, hrange, ?_⟩)))
    cases h with
    | refl => exact hwithin
    | range precise hlo hhi =>
      simp only [isConstantWithin, range?, Bool.and_eq_true, decide_eq_true_eq] at hwithin ⊢
      exact ⟨Int32.le_trans hwithin.1 hlo, Int32.le_trans hhi hwithin.2⟩
    | primitive | null => cases u <;> simp_all [isConstantWithin, range?, fits, isNonNullReference]
    | _ => simp [isConstantWithin, range?, RegType.object] at hwithin
  · exact isAssignable_iff.2 (.inr (.inr (.inr (.inl ⟨rfl, h.isReference ht href⟩))))
  · exact isAssignable_iff.2 (.inr (.inr (.inr (.inr ⟨hnull, hmerged,
      h.isReferenceAssignable hroot hbound hnamed ht hname hu he href⟩))))

/-- Merging known classes leads to no unknown ones. -/
private theorem isUnresolved_merge {a b : RegType} (ha : a.isUnresolved = false)
    (hb : b.isUnresolved = false) : (a.merge p b).isUnresolved = false := by
  have hreferences : (mergeReferences p a b).isUnresolved = false := by
    unfold mergeReferences
    split
    · rfl
    split
    · exact hb
    split
    · exact ha
    split
    · rfl
    rw [ha, hb]
    cases a.descriptor? <;> cases b.descriptor? <;> rfl
  unfold merge
  split
  · exact ha
  split
  · rfl
  split
  · rfl
  unfold mergeWritten
  split
  · unfold mergeIntegral
    repeat (split; rfl)
    rfl
  repeat (split; rfl)
  split
  · exact hreferences
  · rfl

end RegType

/-- What takes the merge of two types takes both of them, unless it is a conflict, its elements are
    interfaces, or one of the classes is not known. -/
theorem Lookup.isAssignable_of_merge {p : ClassPool} {t t' : TypeTable} {a b e m : Handle}
    (hroot : p.Rooted) (hbound : p.Bounded) (hnamed : p.Named) (ht : t.Reachable)
    (ha : (t.type a.index).Ordered) (hb : (t.type b.index).Ordered)
    (haName : ∀ n, (t.type a.index).className? ≠ some (.unissued n))
    (hbName : ∀ n, (t.type b.index).className? ≠ some (.unissued n))
    (haKnown : (t.type a.index).isUnresolved = false)
    (hbKnown : (t.type b.index).isUnresolved = false)
    (hm : merge p a b t = (m, t')) (hconflict : e ≠ .fixed .conflict)
    (he : ∀ d, (t'.type e.index).descriptor? = some d → p.isInterface d.element = false)
    (htake : isAssignable p e m t' = (true, t')) :
    isAssignable p e a t' = (true, t') ∧ isAssignable p e b t' = (true, t') := by
  have ht' := reachable_merge ht hm
  have hdefined : t'.type e.index ≠ .conflict := by
    intro heq
    have hfixed : t'.Denotes (.fixed .conflict) .conflict :=
      TypeTable.denotes_fixed ht' (by simp [TypeTable.fixedTypes])
    exact hconflict (ht'.eq_of_type_eq (by rw [heq, hfixed.type_eq]))
  have hmerged : (t.type a.index).merge p (t.type b.index) ≠ .unresolvedMerged := by
    intro heq
    have := RegType.isUnresolved_merge (p := p) haKnown hbKnown
    simp [heq, RegType.isUnresolved] at this
  have hleft := RegType.below_merge_left hbound hnamed (t.type a.index) (t.type b.index)
  have hright := RegType.below_merge_right hbound hnamed (t.type a.index) (t.type b.index)
  rw [isAssignable_run, type_merge ht hm, Prod.mk.injEq] at htake
  constructor
  · rw [isAssignable_run, type_merge_left ht hm, hleft.isAssignable_of_isAssignable hroot hbound
      hnamed ha haName hmerged hdefined he htake.1]
  · rw [isAssignable_run, type_merge_right ht hm, hright.isAssignable_of_isAssignable hroot hbound
      hnamed hb hbName hmerged hdefined he htake.1]

/-- The table with handles for arrays of `B` and of `C`, and for what is exactly an array of `A`. -/
def exactTable : TypeTable := (diamondTable.intern (.reference (.named ⟨"[LA;"⟩) true)).2

/-- What is an array of `A` or of a subclass has its handle, too. -/
def mergedTable : TypeTable := (exactTable.intern (.reference (.named ⟨"[LA;"⟩) false)).2

/-- What takes the merge of an array of `B` with one of `C` takes both. -/
theorem diamond_isAssignable_of_merge : diamondPool.Regular ∧ exactTable.Reachable ∧
    exactTable.type 18 = .reference (.named ⟨"[LA;"⟩) true ∧
    Lookup.merge diamondPool ⟨16⟩ ⟨17⟩ exactTable = (⟨19⟩, mergedTable) ∧
    Lookup.isAssignable diamondPool ⟨18⟩ ⟨19⟩ mergedTable = (true, mergedTable) ∧
    Lookup.isAssignable diamondPool ⟨18⟩ ⟨16⟩ mergedTable = (true, mergedTable) ∧
    Lookup.isAssignable diamondPool ⟨18⟩ ⟨17⟩ mergedTable = (true, mergedTable) := by
  have hp := diamondPool_regular
  have ht : exactTable.Reachable := .intern _ (.intern _ (.intern _ .initial))
  have hB : exactTable.type 16 = .reference (.named ⟨"[LB;"⟩) true := by decide +kernel
  have hC : exactTable.type 17 = .reference (.named ⟨"[LC;"⟩) false := by decide +kernel
  have hm : Lookup.merge diamondPool ⟨16⟩ ⟨17⟩ exactTable = (⟨19⟩, mergedTable) :=
    Prod.ext (by decide +kernel) (by decide +kernel)
  have htake : Lookup.isAssignable diamondPool ⟨18⟩ ⟨19⟩ mergedTable = (true, mergedTable) :=
    Prod.ext (by decide +kernel) (by decide +kernel)
  have he : (mergedTable.type 18).descriptor? = some ⟨"[LA;"⟩ := by decide +kernel
  have hA : diamondPool.isInterface (Descriptor.element ⟨"[LA;"⟩) = false := by decide +kernel
  refine ⟨hp, ht, by decide +kernel, hm, htake, ?_⟩
  refine Lookup.isAssignable_of_merge hp.rooted hp.bounded hp.named ht ?_ ?_ ?_ ?_ ?_ ?_ hm
    (by decide +kernel) (fun d hd => ?_) htake
  · simp [hB, RegType.Ordered]
  · simp [hC, RegType.Ordered]
  · simp [hB, RegType.className?]
  · simp [hC, RegType.className?]
  · simp [hB, RegType.isUnresolved]
  · simp [hC, RegType.isUnresolved]
  · cases he.symm.trans hd
    exact hA

/-- The table with handles for arrays of `A`, of `B` and of `int`. -/
def numbersTable : TypeTable := (arraysTable.intern (.reference (.named ⟨"[I"⟩) true)).2

/-- If `A` and `B` extend a class by the name of the primitive type `int`, what is exactly an array
    of `int` takes the merge of an array of `A` and one of `B`, and neither of the two. -/
theorem misnamed_not_isAssignable_of_merge : misnamedPool.Rooted ∧ misnamedPool.Bounded ∧
    numbersTable.Reachable ∧
    numbersTable.type 16 = .reference (.named ⟨"[LA;"⟩) false ∧
    numbersTable.type 17 = .reference (.named ⟨"[LB;"⟩) false ∧
    numbersTable.type 18 = .reference (.named ⟨"[I"⟩) true ∧
    misnamedPool.isInterface (Descriptor.element ⟨"[I"⟩) = false ∧
    ∃ m t', Lookup.merge misnamedPool ⟨16⟩ ⟨17⟩ numbersTable = (m, t') ∧
      (Lookup.isAssignable misnamedPool ⟨18⟩ m t').1 = true ∧
      (Lookup.isAssignable misnamedPool ⟨18⟩ ⟨16⟩ t').1 = false ∧
      (Lookup.isAssignable misnamedPool ⟨18⟩ ⟨17⟩ t').1 = false :=
  ⟨by decide +kernel, misnamedPool_bounded, .intern _ (.intern _ (.intern _ .initial)),
    by decide +kernel, by decide +kernel, by decide +kernel, by decide +kernel,
    _, _, rfl, by decide +kernel, by decide +kernel, by decide +kernel⟩

end BytecodeVerifier
