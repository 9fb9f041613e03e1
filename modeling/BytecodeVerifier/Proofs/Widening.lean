import BytecodeVerifier.Proofs.Ancestry
import BytecodeVerifier.Proofs.ArrayType
import BytecodeVerifier.RegType.Lattice

/-!
# Widening of reference types

`ClassPool.Widens` orders the reference types: a class below its ancestors, arrays as their
elements, everything below the root class. It is a preorder and not an order, since classes
on a cycle of superclass links are below each other.

`ClassPool.join` is an upper bound in this order (`widens_join_left`, `widens_join_right`)
and a type absorbs exactly what is below it (`join_eq_left`). Along the order `height`
decreases, so that no type can be widened for ever.
-/

namespace BytecodeVerifier

namespace ClassPool

/-- Every class is known under the descriptor of a class. -/
def Named (p : ClassPool) : Prop := ∀ c ∈ p.classes, c.desc.isClass = true

instance (p : ClassPool) : Decidable p.Named :=
  inferInstanceAs (Decidable (∀ c ∈ p.classes, c.desc.isClass = true))

/-- What the theory of joins asks of a pool. -/
structure Regular (p : ClassPool) : Prop where
  /-- The root class is nobody's subclass. -/
  rooted : p.Rooted
  /-- No class has too many ancestors. -/
  bounded : p.Bounded
  /-- Every class is known under the descriptor of a class. -/
  named : p.Named

/-- A value of type `a` is also one of type `b`. -/
inductive Widens (p : ClassPool) : Descriptor → Descriptor → Prop
  | refl (a : Descriptor) : Widens p a a
  | object (a : Descriptor) : Widens p a .object
  | element {a b : Descriptor} : a.isArray = false → b.isArray = false →
      p.isSubclass a b = true → Widens p a b
  | array {a b : Descriptor} : a.arrayOf.isArray = true → b.arrayOf.isArray = true →
      a.isReference = true → b.isReference = true → Widens p a b →
      Widens p a.arrayOf b.arrayOf

variable {p : ClassPool} {a b c : Descriptor}

theorem isArray_object : Descriptor.object.isArray = false :=
  (Descriptor.isClass_spec Descriptor.isClass_object).1

theorem dimensions_object : Descriptor.object.dimensions = 0 :=
  (Descriptor.isClass_spec Descriptor.isClass_object).2.1

/-- Nothing but the root class is above the root class. -/
theorem Widens.eq_object (hp : p.Rooted) (h : p.Widens a b) (ha : a = .object) :
    b = .object := by
  cases h with
  | refl => exact ha
  | object => rfl
  | element _ _ hsub => exact eq_object_of_isSubclass hp (ha ▸ hsub)
  | array harray =>
    rw [ha, isArray_object] at harray
    exact absurd harray (by simp)

theorem Widens.trans (hp : p.Regular) (hab : p.Widens a b) (hbc : p.Widens b c) :
    p.Widens a c := by
  induction hab generalizing c with
  | refl => exact hbc
  | object a => exact hbc.eq_object hp.rooted rfl ▸ .object a
  | @element a b ha hb hsub =>
    cases hbc with
    | refl => exact .element ha hb hsub
    | object => exact .object a
    | element _ hc hsub' => exact .element ha hc (isSubclass_trans hp.bounded hsub hsub')
    | array harray => simp [hb] at harray
  | @array a b ha hb harefs hbrefs hab ih =>
    -- above an array there are only arrays and the root class
    generalize hx : b.arrayOf = x at hbc
    cases hbc with
    | refl => exact hx ▸ .array ha hb harefs hbrefs hab
    | object => exact .object _
    | element hx' => simp [← hx, hb] at hx'
    | array _ hc _ hcrefs hbc =>
      obtain rfl := Descriptor.arrayOf_inj hx
      exact .array ha hc harefs hcrefs (ih hbc)

/-! ## Joins -/

/-- The first class on the superclass chain of `b` that is also on that of `a`. -/
def firstCommon? (p : ClassPool) (a b : Descriptor) : Option Descriptor :=
  ((p.superclasses b).map ClassDef.desc).find? ((p.superclasses a).map ClassDef.desc).contains

/-- `r` can come of joining `a` and `b`, neither of them an array. -/
inductive Joined (p : ClassPool) (a b : Descriptor) : Descriptor → Prop
  | left : p.isSubclass b a = true → Joined p a b a
  | right : p.isSubclass a b = true → Joined p a b b
  | interface : (p.isInterface a || p.isInterface b) = true → Joined p a b .object
  | common {r : Descriptor} : p.firstCommon? a b = some r → Joined p a b r
  | root : p.firstCommon? a b = none → Joined p a b .object

theorem joined_joinElements (p : ClassPool) (a b : Descriptor) :
    p.Joined a b (p.joinElements a b) := by
  unfold joinElements
  split
  · exact .left ‹_›
  split
  · exact .right ‹_›
  split
  · exact .interface ‹_›
  · show p.Joined a b ((p.firstCommon? a b).getD .object)
    cases hcommon : p.firstCommon? a b with
    | none => exact .root hcommon
    | some r => exact .common hcommon

/-- The join of two types that are no arrays is above both, and a class if both are. -/
private theorem joinElements_spec (hbound : p.Bounded) (hnamed : p.Named) (ha : a.isArray = false)
    (hb : b.isArray = false) :
    p.Widens a (p.joinElements a b) ∧ p.Widens b (p.joinElements a b) ∧
      (a.isClass = true → b.isClass = true → (p.joinElements a b).isClass = true) := by
  have hobject : p.Widens a .object ∧ p.Widens b .object ∧
      (a.isClass = true → b.isClass = true → Descriptor.object.isClass = true) :=
    ⟨.object a, .object b, fun _ _ => Descriptor.isClass_object⟩
  have hjoined := p.joined_joinElements a b
  generalize p.joinElements a b = r at hjoined
  cases hjoined with
  | left hsub => exact ⟨.refl a, .element hb ha hsub, fun ha _ => ha⟩
  | right hsub => exact ⟨.element ha hb hsub, .refl b, fun _ hb => hb⟩
  | interface | root => exact hobject
  | common hfind =>
    -- the class that was found stands on both superclass chains
    obtain ⟨e, he, hed⟩ := List.mem_map.1 (List.mem_of_find?_eq_some hfind)
    obtain ⟨f, hf, hfd⟩ := List.mem_map.1
      (List.contains_iff_mem.1 (List.find?_some hfind : List.contains _ r = true))
    obtain ⟨hfound, hsubB⟩ := isSubclass_of_mem_chain hbound he
    obtain ⟨-, hsubA⟩ := isSubclass_of_mem_chain hbound hf
    have hclass := hnamed e (find?_spec hfound).1
    rw [hed] at hsubB hclass
    rw [hfd] at hsubA
    have hr := (Descriptor.isClass_spec hclass).1
    exact ⟨.element ha hr hsubA, .element hb hr hsubB, fun _ _ => hclass⟩

/-- The join of two types is above both. If both are reference types, then so is their join, and it
    has no more dimensions. -/
private theorem joinUpTo_spec (hbound : p.Bounded) (hnamed : p.Named) (dims : Nat)
    (a b : Descriptor) :
    p.Widens a (p.joinUpTo dims a b) ∧ p.Widens b (p.joinUpTo dims a b) ∧
      (a.isReference = true → b.isReference = true → (p.joinUpTo dims a b).isReference = true ∧
        (p.joinUpTo dims a b).dimensions ≤ a.dimensions) := by
  have hobject : ∀ a b : Descriptor, p.Widens a .object ∧ p.Widens b .object ∧
      (a.isReference = true → b.isReference = true → Descriptor.object.isReference = true ∧
        Descriptor.object.dimensions ≤ a.dimensions) := fun a b =>
    ⟨.object a, .object b, fun _ _ =>
      ⟨Descriptor.isReference_iff.2 (.inl Descriptor.isClass_object), by simp [dimensions_object]⟩⟩
  fun_induction p.joinUpTo dims a b with
  | case1 => exact ⟨.refl _, .refl _, fun ha _ => ⟨ha, Nat.le_refl _⟩⟩
  | case2 a b _ ca cb dims hcb hca hrefs ih =>
    obtain ⟨haArray, rfl⟩ := Descriptor.component?_eq_some_iff.1 hca
    obtain ⟨hbArray, rfl⟩ := Descriptor.component?_eq_some_iff.1 hcb
    simp only [Bool.and_eq_true] at hrefs
    obtain ⟨hleft, hright, href⟩ := ih
    obtain ⟨hreference, hdims⟩ := href hrefs.1 hrefs.2
    -- the join has no more dimensions than `ca`, so that there can be an array of it
    have hspare := Descriptor.dimensions_lt_of_isArray haArray
    have harray := Descriptor.isArray_arrayOf hreference (by omega)
    exact ⟨.array haArray harray hrefs.1 hreference hleft,
      .array hbArray harray hrefs.2 hreference hright,
      fun _ _ => ⟨Descriptor.isReference_iff.2 (.inr harray), by simpa using hdims⟩⟩
  | case3 => exact hobject _ _
  | case4 dims a b _ hcb hca =>
    rw [Descriptor.component?_eq_none_iff] at hca hcb
    obtain ⟨hleft, hright, hjoin⟩ := joinElements_spec hbound hnamed hca hcb
    refine ⟨hleft, hright, fun ha hb => ?_⟩
    -- a reference type without a component is a class
    have hclass := hjoin ((Descriptor.isReference_iff.1 ha).resolve_right (by simp [hca]))
      ((Descriptor.isReference_iff.1 hb).resolve_right (by simp [hcb]))
    exact ⟨Descriptor.isReference_iff.2 (.inl hclass),
      by simp [(Descriptor.isClass_spec hclass).2.1]⟩
  | case5 => exact hobject _ _

theorem widens_join_left (hbound : p.Bounded) (hnamed : p.Named) (a b : Descriptor) :
    p.Widens a (p.join a b) :=
  (joinUpTo_spec hbound hnamed _ a b).1

theorem widens_join_right (hbound : p.Bounded) (hnamed : p.Named) (a b : Descriptor) :
    p.Widens b (p.join a b) :=
  (joinUpTo_spec hbound hnamed _ a b).2.1

theorem isReference_join (hp : p.Regular) (ha : a.isReference = true) (hb : b.isReference = true) :
    (p.join a b).isReference = true :=
  ((joinUpTo_spec hp.bounded hp.named _ a b).2.2 ha hb).1

/-- The root class has no other class in common with anything. -/
private theorem joinElements_object (hp : p.Rooted) (b : Descriptor) :
    p.joinElements .object b = .object := by
  unfold joinElements
  split
  · rfl
  split
  · exact eq_object_of_isSubclass hp ‹_›
  split
  · rfl
  · dsimp only
    cases hfind : ((p.superclasses b).map ClassDef.desc).find?
        ((p.superclasses .object).map ClassDef.desc).contains with
    | none => rfl
    | some d =>
      obtain ⟨c, hc, rfl⟩ := List.mem_map.1
        (List.contains_iff_mem.1 (List.find?_some hfind : List.contains _ d = true))
      -- the superclass chain of the root class ends where it begins
      cases hroot : p.find? .object with
      | none => simp [superclasses, walkLimit, chain, hroot] at hc
      | some r =>
        have hsuper := (hp r hroot).1
        have : c = r := by simpa [superclasses, walkLimit, chain, hroot, hsuper] using hc
        exact this ▸ (find?_spec hroot).2

/-- A type absorbs what is below it. -/
theorem join_eq_left (hp : p.Rooted) (h : p.Widens b a) : p.join a b = a := by
  induction h with
  | refl a =>
    unfold join joinUpTo
    rw [if_pos rfl]
  | object b =>
    unfold join joinUpTo
    split
    · rfl
    have hroot : Descriptor.object.component? = none :=
      Descriptor.component?_eq_none_iff.2 isArray_object
    rw [hroot]
    cases b.component? with
    | none => exact joinElements_object hp b
    | some c => rfl
  | @element b a hb ha hsub =>
    unfold join joinUpTo
    split
    · rfl
    rw [Descriptor.component?_eq_none_iff.2 ha, Descriptor.component?_eq_none_iff.2 hb]
    simp [joinElements, hsub]
  | @array b a hb ha hbrefs harefs _ ih =>
    unfold join joinUpTo
    split
    · rfl
    rw [Descriptor.component?_arrayOf ha, Descriptor.component?_arrayOf hb]
    simp only [Descriptor.dimensions_arrayOf, harefs, hbrefs, Bool.and_self, if_true]
    exact congrArg _ ih

/-! ## Heights -/

/-- Every descriptor under which the pool knows a class. -/
def descriptors (p : ClassPool) : List Descriptor := p.classes.map ClassDef.desc

/-- How far an element type is from the root class. -/
def elementHeight (p : ClassPool) (d : Descriptor) : Nat :=
  if d = .object then 0 else p.descriptors.countP (p.isSubclass d) + 1

/-- How far a reference type is from the root class. A dimension counts for more than any way up
    the hierarchy. -/
def height (p : ClassPool) (d : Descriptor) : Nat :=
  d.dimensions * (p.descriptors.length + 2) + p.elementHeight d.element

theorem elementHeight_lt (p : ClassPool) (d : Descriptor) :
    p.elementHeight d < p.descriptors.length + 2 := by
  unfold elementHeight
  have : p.descriptors.countP (p.isSubclass d) ≤ p.descriptors.length := List.countP_le_length
  split <;> omega

theorem height_object (p : ClassPool) : p.height .object = 0 := by
  simp [height, dimensions_object, elementHeight,
    (Descriptor.isClass_spec Descriptor.isClass_object).2.2]

theorem height_arrayOf (p : ClassPool) (d : Descriptor) :
    p.height d.arrayOf = p.height d + (p.descriptors.length + 2) := by
  simp only [height, Descriptor.dimensions_arrayOf, Descriptor.element_arrayOf, Nat.succ_mul]
  omega

theorem height_pos (ha : a.isReference = true) (hne : a ≠ .object) : 0 < p.height a := by
  rcases Descriptor.isReference_iff.1 ha with hclass | harray
  · obtain ⟨-, -, helement⟩ := Descriptor.isClass_spec hclass
    simp only [height, helement, elementHeight, hne, if_false]
    omega
  · obtain ⟨c, rfl, -⟩ := Descriptor.isArray_iff.1 harray
    rw [height_arrayOf]
    omega

/-- Fewer satisfy a stronger property, if one that satisfies the weaker one does not. -/
theorem countP_lt_countP {q r : Descriptor → Bool} {l : List Descriptor} (hmem : a ∈ l)
    (hmono : ∀ x ∈ l, q x = true → r x = true) (hr : r a = true) (hq : q a = false) :
    l.countP q < l.countP r := by
  -- the count drops by at least one, at the place of `a`
  obtain ⟨before, after, rfl⟩ := List.append_of_mem hmem
  have hbefore := List.countP_mono_left (l := before) fun x hx => hmono x (by simp [hx])
  have hafter := List.countP_mono_left (l := after) fun x hx => hmono x (by simp [hx])
  simp only [List.countP_append, List.countP_cons, hr, hq, if_true, Bool.false_eq_true, if_false]
  omega

/-- A class that is not the root has more descriptors above it than one of its ancestors, unless
    that is below it too. -/
private theorem elementHeight_le (hp : p.Regular) (hsub : p.isSubclass a b = true) :
    p.elementHeight b ≤ p.elementHeight a ∧
      (p.isSubclass b a = false → p.elementHeight b < p.elementHeight a) := by
  by_cases hb : b = .object
  · have ha : p.isSubclass b a = false → a ≠ .object := by
      rintro hback rfl
      rw [hb, isSubclass_refl] at hback
      exact absurd hback (by simp)
    subst hb
    simp only [elementHeight, if_true, Nat.zero_le, true_and]
    intro hback
    simp [ha hback]
  · have ha : a ≠ .object := by
      rintro rfl
      exact hb (eq_object_of_isSubclass hp.rooted hsub)
    have hmono : ∀ x ∈ p.descriptors, p.isSubclass b x = true → p.isSubclass a x = true :=
      fun x _ hx => isSubclass_trans hp.bounded hsub hx
    simp only [elementHeight, ha, hb, if_false, Nat.add_le_add_iff_right, Nat.add_lt_add_iff_right]
    refine ⟨List.countP_mono_left hmono, fun hback => ?_⟩
    -- `a` itself is known, above `a` and not above `b`
    have hmem : a ∈ p.descriptors := by
      rcases eq_or_ancestor_of_isSubclass hsub with rfl | hanc
      · simp [isSubclass_refl] at hback
      · obtain ⟨_, ⟨c, hc, -⟩, -⟩ := Relation.TransGen.head'_iff.1 hanc
        obtain ⟨hmem, hdesc⟩ := find?_spec hc
        exact List.mem_map.2 ⟨c, hmem, hdesc⟩
    exact countP_lt_countP hmem hmono (isSubclass_refl p a) hback

/-- The height decreases along the order, strictly where there is no way back. -/
theorem Widens.height_le (hp : p.Regular) (ha : a.isReference = true) (hb : b.isReference = true)
    (h : p.Widens a b) :
    p.height b ≤ p.height a ∧ (¬p.Widens b a → p.height b < p.height a) := by
  induction h with
  | refl a => exact ⟨Nat.le_refl _, fun hback => absurd (.refl a) hback⟩
  | object a =>
    rw [height_object]
    refine ⟨Nat.zero_le _, fun hback => height_pos ha ?_⟩
    rintro rfl
    exact hback (.refl _)
  | @element a b haArray hbArray hsub =>
    -- neither has dimensions, and the heights are those of the classes themselves
    have haClass := (Descriptor.isReference_iff.1 ha).resolve_right (by simp [haArray])
    have hbClass := (Descriptor.isReference_iff.1 hb).resolve_right (by simp [hbArray])
    obtain ⟨-, haDims, haElement⟩ := Descriptor.isClass_spec haClass
    obtain ⟨-, hbDims, hbElement⟩ := Descriptor.isClass_spec hbClass
    obtain ⟨hle, hlt⟩ := elementHeight_le hp hsub
    simp only [height, haDims, hbDims, haElement, hbElement, Nat.zero_mul, Nat.zero_add]
    refine ⟨hle, fun hback => hlt ?_⟩
    rw [← Bool.not_eq_true]
    exact fun hsub' => hback (.element hbArray haArray hsub')
  | @array a b haArray hbArray haRef hbRef _ ih =>
    obtain ⟨hle, hlt⟩ := ih haRef hbRef
    rw [height_arrayOf, height_arrayOf]
    refine ⟨by omega, fun hback => ?_⟩
    have := hlt fun hback' => hback (.array hbArray haArray hbRef haRef hback')
    omega

/-- No reference type is higher than this. -/
def maxHeight (p : ClassPool) : Nat :=
  (Descriptor.maxDimensions + 1) * (p.descriptors.length + 2)

theorem height_lt_maxHeight (ha : a.isReference = true) : p.height a < p.maxHeight := by
  have hdims := Descriptor.dimensions_le_of_isReference ha
  have helement := p.elementHeight_lt a.element
  have hmul := Nat.mul_le_mul_right (p.descriptors.length + 2) hdims
  unfold height maxHeight
  rw [Nat.succ_mul]
  omega

end ClassPool

end BytecodeVerifier
