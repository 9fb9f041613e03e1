import BytecodeVerifier.Proofs.Commutativity
import BytecodeVerifier.Proofs.PostFixpoint

/-!
# Assigning to a merged type

A value of either type may be used where their merge is expected (`Lookup.isAssignable_merge`).
Merging goes up the order of `RegType.Below`, and a type takes values of whatever is below it,
unless it is a conflict.

Here, too, every class has to be known under the descriptor of a class. The merge of two arrays in
`misnamedPool` takes neither of them (`misnamed_not_isAssignable_merge`).
-/

namespace BytecodeVerifier

theorem Descriptor.isPrimitive_of_isReference {d : Descriptor}
    (h : d.isReference = true) : d.isPrimitive = false := by
  unfold Descriptor.isPrimitive
  split
  · rename_i hkind
    simp [Descriptor.isReference, hkind, DescriptorKind.isReference] at h
  · rfl

/-- A type takes the objects of whatever is below it. -/
theorem ClassPool.Widens.isAssignable {p : ClassPool} {a b : Descriptor} (h : p.Widens a b) :
    p.isAssignable b a = true := by
  induction h with
  | refl a => simp [ClassPool.isAssignable, isAssignableUpTo.eq_def]
  | object a => simp [ClassPool.isAssignable, isAssignableUpTo.eq_def]
  | @element a b ha hb hsub =>
    rw [← Descriptor.component?_eq_none_iff] at ha hb
    simp [ClassPool.isAssignable, isAssignableUpTo.eq_def, ha, hb, hsub]
  | @array a b ha hb hrefA hrefB _ ih =>
    unfold ClassPool.isAssignable at ih ⊢
    rw [isAssignableUpTo.eq_def]
    split
    · rfl
    · rw [Descriptor.component?_arrayOf ha, Descriptor.component?_arrayOf hb,
        Descriptor.dimensions_arrayOf]
      simp [Descriptor.isPrimitive_of_isReference hrefA,
        Descriptor.isPrimitive_of_isReference hrefB, ih]

namespace RegType

variable {p : ClassPool} {t u : RegType}

/-- A type takes values of whatever is below it, if it is no conflict and the class of the value is
    known. -/
theorem Below.isAssignable (h : Below p t u) (hu : u ≠ .conflict)
    (ht : ∀ n, t.className? ≠ some (.unissued n)) : u.isAssignable p t = true := by
  cases h with
  | refl => simp [RegType.isAssignable]
  | conflict => exact absurd rfl hu
  | range precise hlo hhi => simp [RegType.isAssignable, isConstantWithin, range?, hlo, hhi]
  | primitive hfits =>
    cases u with
    | low k | high k => cases k <;> simp_all [RegType.isAssignable, fits]
    | _ => simp_all [RegType.isAssignable, fits]
  | null hzero hnull hinit =>
    have href : t.isReference = true := by simp [isReference, hzero]
    cases u <;> simp_all [RegType.isAssignable, isReferenceAssignable, isNonNullReference]
  | object hinit =>
    simp only [RegType.isInitialized, Bool.and_eq_true, Bool.not_eq_true'] at hinit
    cases t with
    | reference c precise =>
      cases c with
      | named d =>
        have hobject := (ClassPool.Widens.object (p := p) d).isAssignable
        simp [RegType.isAssignable, RegType.object, isReferenceAssignable, RegType.isZero, range?,
          isReference, isNonNullReference, isUninitialized, isUnresolved, descriptor?, className?,
          ClassName.descriptor?, hobject]
      | unissued n => exact absurd rfl (ht n)
    | _ => simp_all [RegType.isAssignable, RegType.object, isReferenceAssignable, isReference,
        isNonNullReference, isUninitialized, isUnresolved]
  | merged hinit hobject =>
    simp only [RegType.isInitialized, Bool.and_eq_true] at hinit
    simp [RegType.isAssignable, hinit.1]
  | reference precise hwidens =>
    simp [RegType.isAssignable, isReferenceAssignable, RegType.isZero, range?, isReference,
      isNonNullReference, isUninitialized, isUnresolved, descriptor?, className?,
      ClassName.descriptor?, hwidens.isAssignable]

end RegType

/-- A value of either type may be used where their merge is expected, if it is no conflict. -/
theorem Lookup.isAssignable_merge {p : ClassPool} {t t' : TypeTable} {a b m : Handle}
    (hbound : p.Bounded) (hnamed : p.Named) (ht : t.Reachable)
    (ha : ∀ n, (t.type a.index).className? ≠ some (.unissued n))
    (hb : ∀ n, (t.type b.index).className? ≠ some (.unissued n))
    (hm : merge p a b t = (m, t')) (hne : m ≠ .fixed .conflict) :
    isAssignable p m a t' = (true, t') ∧ isAssignable p m b t' = (true, t') := by
  have hconflict : (t.type a.index).merge p (t.type b.index) ≠ .conflict := by
    intro heq
    have ht' := reachable_merge ht hm
    have hfixed : t'.Denotes (.fixed .conflict) .conflict :=
      TypeTable.denotes_fixed ht' (by simp [TypeTable.fixedTypes])
    refine hne (ht'.eq_of_type_eq ?_)
    rw [type_merge ht hm, heq, hfixed.type_eq]
  have hleft := RegType.below_merge_left hbound hnamed (t.type a.index) (t.type b.index)
  have hright := RegType.below_merge_right hbound hnamed (t.type a.index) (t.type b.index)
  constructor
  · rw [isAssignable_run, type_merge ht hm, type_merge_left ht hm,
      hleft.isAssignable hconflict ha]
  · rw [isAssignable_run, type_merge ht hm, type_merge_right ht hm,
      hright.isAssignable hconflict hb]

/-- An array of `A` takes an array of `B` and one of `C`. -/
theorem diamond_isAssignable_merge : diamondPool.Bounded ∧ diamondPool.Named ∧
    diamondTable.Reachable ∧ ∃ m t', Lookup.merge diamondPool ⟨16⟩ ⟨17⟩ diamondTable = (m, t') ∧
      t'.type m.index = .reference (.named ⟨"[LA;"⟩) false ∧
      Lookup.isAssignable diamondPool m ⟨16⟩ t' = (true, t') ∧
      Lookup.isAssignable diamondPool m ⟨17⟩ t' = (true, t') := by
  have hbound := diamondPool_regular.bounded
  have hnamed := diamondPool_regular.named
  have ht : diamondTable.Reachable := .intern _ (.intern _ .initial)
  have hB : (diamondTable.type 16).className? = some (.named ⟨"[LB;"⟩) := by decide +kernel
  have hC : (diamondTable.type 17).className? = some (.named ⟨"[LC;"⟩) := by decide +kernel
  have hassignable := Lookup.isAssignable_merge (a := ⟨16⟩) (b := ⟨17⟩) hbound hnamed ht
    (fun n => by simp [hB]) (fun n => by simp [hC]) rfl (by decide +kernel)
  exact ⟨hbound, hnamed, ht, _, _, rfl, by decide +kernel, hassignable⟩

theorem misnamedPool_bounded : misnamedPool.Bounded :=
  ClassPool.bounded_of_links (by decide +kernel)

/-- The table with handles for arrays of `A` and of `B`. -/
def arraysTable : TypeTable :=
  ((TypeTable.initial.intern (.reference (.named ⟨"[LA;"⟩) false)).2.intern
    (.reference (.named ⟨"[LB;"⟩) false)).2

/-- If `A` and `B` extend a class by the name of the primitive type `int`, an array of `A` and one
    of `B` merge into an array of `int`, which takes neither. -/
theorem misnamed_not_isAssignable_merge : misnamedPool.Bounded ∧ arraysTable.Reachable ∧
    arraysTable.type 16 = .reference (.named ⟨"[LA;"⟩) false ∧
    arraysTable.type 17 = .reference (.named ⟨"[LB;"⟩) false ∧
    ∃ m t', Lookup.merge misnamedPool ⟨16⟩ ⟨17⟩ arraysTable = (m, t') ∧ m ≠ .fixed .conflict ∧
      t'.type m.index = .reference (.named ⟨"[I"⟩) false ∧
      (Lookup.isAssignable misnamedPool m ⟨16⟩ t').1 = false ∧
      (Lookup.isAssignable misnamedPool m ⟨17⟩ t').1 = false :=
  ⟨misnamedPool_bounded, .intern _ (.intern _ .initial), by decide +kernel, by decide +kernel,
    _, _, rfl, by decide +kernel, by decide +kernel, by decide +kernel, by decide +kernel⟩

end BytecodeVerifier
