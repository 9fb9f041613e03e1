import BytecodeVerifier.Proofs.Termination
import Mathlib.Order.WellFounded

/-!
# Merging one reference after another

A register type that is merged with one reference type after another changes only finitely often
(`RegType.merges_settle`), and so no join point is queued forever. Every change uses up some of the
leeway of the type (`RegType.leeway_merge`): the leeway of an array counts its dimensions and what
can be reached from its innermost element.

This asks less of a pool than `ClassPool.Regular` does. Classes can have any number of ancestors,
as long as none of them is on a circle (`ClassPool.Steady`). What it does ask for cannot be left
out: if the root class extends a class that does not lead back to it, the merges of arrays can go
back and forth (`uprooted_merges_not_settle`).
-/

namespace BytecodeVerifier

namespace ClassPool

open Relation (TransGen)

/-- What keeps the joins of classes from leading in a circle. -/
structure Steady (p : ClassPool) : Prop where
  /-- No class is known under the descriptor of an array. -/
  named : ∀ c ∈ p.classes, c.desc.isArray = false
  /-- Whatever is above the root class is below it as well. -/
  rooted : ∀ d, p.Ancestor .object d → p.Ancestor d .object
  /-- A class on a circle is found from everywhere below it. -/
  circles : ∀ a b, p.Ancestor a b → p.Ancestor b b → p.isSubclass a b = true

variable {p : ClassPool} {a b x : Descriptor}

/-- Only circles need a bound on the number of ancestors. -/
theorem steady_of_bounded (hnamed : ∀ c ∈ p.classes, c.desc.isArray = false) (hroot : p.Rooted)
    (hbound : ∀ a b, p.Ancestor a b → p.Ancestor b b → ∀ ds : List Descriptor, ds.Nodup →
      (∀ d ∈ ds, p.Ancestor a d) → ds.length ≤ walkLimit) : p.Steady where
  named := hnamed
  rooted d h := by
    obtain ⟨_, ⟨c, hc, hmem⟩, -⟩ := TransGen.head'_iff.1 h
    obtain ⟨hsuper, hinterfaces⟩ := hroot c hc
    simp [ClassDef.parents, hsuper, hinterfaces] at hmem
  circles a b hab hbb := isSubclass_of_length_le hab (hbound a b hab hbb)

/-! ## Joins of classes -/

/-- The join of two classes is the first of them or the root class, or else an ancestor of the first
    that is the second or above it, and then the first is not above the second. -/
private theorem joinElements_cases (p : ClassPool) (a b : Descriptor) :
    p.joinElements a b = a ∨ p.joinElements a b = .object ∨
      p.isSubclass b a = false ∧ p.Ancestor a (p.joinElements a b) ∧
        (p.joinElements a b = b ∨ p.Ancestor b (p.joinElements a b)) ∧
        (p.joinElements a b = b ∨ p.joinElements a b ∈ p.descriptors) := by
  unfold joinElements
  by_cases hba : p.isSubclass b a = true
  · rw [if_pos hba]
    exact .inl rfl
  rw [if_neg hba]
  rw [Bool.not_eq_true] at hba
  by_cases hab : p.isSubclass a b = true
  · rw [if_pos hab]
    rcases eq_or_ancestor_of_isSubclass hab with rfl | hanc
    · exact .inl rfl
    · exact .inr (.inr ⟨hba, hanc, .inl rfl, .inl rfl⟩)
  rw [if_neg hab]
  split
  · exact .inr (.inl rfl)
  · dsimp only
    cases hfind : ((p.superclasses b).map ClassDef.desc).find?
        ((p.superclasses a).map ClassDef.desc).contains with
    | none => exact .inr (.inl rfl)
    | some d =>
      -- the class that was found stands on both superclass chains
      obtain ⟨e, he, rfl⟩ := List.mem_map.1 (List.mem_of_find?_eq_some hfind)
      obtain ⟨f, hf, hfe⟩ := List.mem_map.1
        (List.contains_iff_mem.1 (List.find?_some hfind : List.contains _ e.desc = true))
      obtain ⟨hfound, hbe⟩ := mem_chain he
      have hae := (mem_chain hf).2
      rw [hfe] at hae
      have hmem : e.desc ∈ p.descriptors := List.mem_map.2 ⟨e, (find?_spec hfound).1, rfl⟩
      rcases hae with hae | hae
      · exact .inl hae.symm
      · exact .inr (.inr ⟨hba, hae, hbe.imp_left Eq.symm, .inr hmem⟩)

/-- There is no way back from a join to the class that it replaces. -/
private theorem not_ancestor_of_above (hp : p.Steady) (hba : p.isSubclass b a = false)
    (hax : p.Ancestor a x) (hbx : x = b ∨ p.Ancestor b x) : ¬p.Ancestor x a := by
  intro hxa
  have hanc : p.Ancestor b a := by
    rcases hbx with rfl | hbx
    · exact hxa
    · exact hbx.trans hxa
  have := hp.circles b a hanc (hax.trans hxa)
  rw [hba] at this
  exact absurd this (by simp)

/-- The root class absorbs every other class. -/
private theorem joinElements_root (hp : p.Steady) (b : Descriptor) :
    p.joinElements .object b = .object := by
  rcases p.joinElements_cases .object b with h | h | ⟨hba, hax, hbx, -⟩
  · exact h
  · exact h
  · exact absurd (hp.rooted _ hax) (not_ancestor_of_above hp hba hax hbx)

private theorem isArray_joinElements (hp : p.Steady) (ha : a.isArray = false)
    (hb : b.isArray = false) : (p.joinElements a b).isArray = false := by
  rcases p.joinElements_cases a b with h | h | ⟨-, -, -, h | h⟩
  · rw [h, ha]
  · rw [h, isArray_object]
  · rw [h, hb]
  · obtain ⟨c, hc, hdesc⟩ := List.mem_map.1 h
    rw [← hdesc, hp.named c hc]

/-! ## Altitudes -/

open Classical in
/-- How much is above a class. Unlike the height of a class this counts all of its ancestors, and
    not only those that a bounded walk finds. -/
noncomputable def rank (p : ClassPool) (d : Descriptor) : Nat :=
  if d = .object then 0 else p.descriptors.countP (fun x => d = x ∨ p.Ancestor d x) + 1

/-- How much is above a type. A dimension counts for more than any way up the hierarchy. -/
noncomputable def altitude (p : ClassPool) (d : Descriptor) : Nat :=
  if d.isArray then d.dimensions * (p.descriptors.length + 2) + p.rank d.element else p.rank d

private theorem rank_lt (p : ClassPool) (d : Descriptor) : p.rank d < p.descriptors.length + 2 := by
  classical
  unfold rank
  split
  · omega
  · exact Nat.succ_lt_succ (Nat.lt_succ_of_le List.countP_le_length)

private theorem rank_lt_of_ancestor (hax : p.Ancestor a x) (hback : ¬p.Ancestor x a)
    (ha : a ≠ .object) : p.rank x < p.rank a := by
  classical
  unfold rank
  rw [if_neg ha]
  split
  · exact Nat.succ_pos _
  -- `a` itself is known, and it is above `a` and not above `x`
  · have hmem : a ∈ p.descriptors := by
      obtain ⟨_, ⟨c, hc, -⟩, -⟩ := TransGen.head'_iff.1 hax
      obtain ⟨hmem, hdesc⟩ := find?_spec hc
      exact List.mem_map.2 ⟨c, hmem, hdesc⟩
    apply Nat.succ_lt_succ
    apply countP_lt_countP hmem
    · intro d _ hd
      rw [decide_eq_true_eq] at hd ⊢
      rcases hd with rfl | hd
      · exact .inr hax
      · exact .inr (hax.trans hd)
    · simp
    · have hne : x ≠ a := by
        rintro rfl
        exact hback hax
      simp [hne, hback]

private theorem altitude_of_not_isArray (h : a.isArray = false) : p.altitude a = p.rank a := by
  simp [altitude, h]

private theorem altitude_object (p : ClassPool) : p.altitude .object = 0 := by
  rw [altitude_of_not_isArray isArray_object]
  simp [rank]

/-- The element type of an array has no brackets, unless it is an array as well. -/
private theorem altitude_arrayOf (h : a.arrayOf.isArray = true) :
    p.altitude a.arrayOf = p.altitude a + (p.descriptors.length + 2) := by
  unfold altitude
  rw [if_pos h, Descriptor.dimensions_arrayOf, Descriptor.element_arrayOf, Nat.succ_mul]
  by_cases ha : a.isArray = true
  · rw [if_pos ha]
    omega
  · rw [if_neg ha]
    have hplain : a.dimensions = 0 ∧ a.element = a := by
      apply Descriptor.dimensions_eq_zero_of_not_bracket
      intro cs hcs
      obtain ⟨c, hc, hdims, he⟩ := Descriptor.isArray_iff.1 h
      obtain rfl := Descriptor.arrayOf_inj hc
      have hbracket : a = (Descriptor.ofChars cs).arrayOf := Descriptor.chars_inj (by simp [hcs])
      rw [hbracket, Descriptor.dimensions_arrayOf] at hdims
      rw [hbracket, Descriptor.element_arrayOf] at he
      exact ha (Descriptor.isArray_iff.2 ⟨_, hbracket, by omega, he⟩)
    rw [hplain.1, hplain.2]
    omega

private theorem altitude_pos (h : a ≠ .object) : 0 < p.altitude a := by
  by_cases ha : a.isArray = true
  · obtain ⟨c, rfl, -⟩ := Descriptor.isArray_iff.1 ha
    rw [altitude_arrayOf ha]
    omega
  · rw [Bool.not_eq_true] at ha
    rw [altitude_of_not_isArray ha, rank, if_neg h]
    omega

/-- No type is higher up than this. -/
private theorem altitude_lt_maxHeight (p : ClassPool) (d : Descriptor) :
    p.altitude d < p.maxHeight := by
  unfold altitude maxHeight
  have hrank := p.rank_lt d.element
  have hrank' := p.rank_lt d
  split
  · rename_i h
    have hdims := Descriptor.dimensions_le_of_isReference (Descriptor.isReference_iff.2 (.inr h))
    have hmul := Nat.mul_le_mul_right (p.descriptors.length + 2) hdims
    rw [Nat.succ_mul]
    omega
  · rw [Nat.succ_mul]
    omega

/-- A join with the first type an array of something that changes: the brackets stay, or what is
    left is no array any more. -/
private theorem altitude_arrayOf_lt (ha : a.arrayOf.isArray = true)
    (h : p.altitude x < p.altitude a) : p.altitude x.arrayOf < p.altitude a.arrayOf := by
  rw [altitude_arrayOf ha]
  by_cases hx : x.arrayOf.isArray = true
  · rw [altitude_arrayOf hx]
    omega
  · rw [Bool.not_eq_true] at hx
    rw [altitude_of_not_isArray hx]
    have := p.rank_lt x.arrayOf
    omega

private theorem altitude_joinElements (hp : p.Steady) (ha : a.isArray = false)
    (hb : b.isArray = false) :
    p.joinElements a b = a ∨ p.altitude (p.joinElements a b) < p.altitude a := by
  by_cases hroot : a = .object
  · subst hroot
    exact .inl (joinElements_root hp b)
  · rcases p.joinElements_cases a b with h | h | ⟨hba, hax, hbx, -⟩
    · exact .inl h
    · rw [h, altitude_object]
      exact .inr (altitude_pos hroot)
    · right
      rw [altitude_of_not_isArray ha, altitude_of_not_isArray (isArray_joinElements hp ha hb)]
      exact rank_lt_of_ancestor hax (not_ancestor_of_above hp hba hax hbx) hroot

/-- A join changes nothing or leads up. -/
private theorem altitude_joinUpTo (hp : p.Steady) (dims : Nat) (a b : Descriptor) :
    p.joinUpTo dims a b = a ∨ p.altitude (p.joinUpTo dims a b) < p.altitude a := by
  have hobject : ∀ d : Descriptor, Descriptor.object = d ∨ p.altitude .object < p.altitude d := by
    intro d
    by_cases hd : d = .object
    · exact .inl hd.symm
    · rw [altitude_object]
      exact .inr (altitude_pos hd)
  fun_induction p.joinUpTo dims a b with
  | case1 => exact .inl rfl
  | case2 a b _ ca cb dims hcb hca _ ih =>
    obtain ⟨haArray, rfl⟩ := Descriptor.component?_eq_some_iff.1 hca
    rcases ih with h | h
    · exact .inl (congrArg _ h)
    · exact .inr (altitude_arrayOf_lt haArray h)
  | case3 a => exact hobject a
  | case4 dims a b _ hcb hca =>
    exact altitude_joinElements hp (Descriptor.component?_eq_none_iff.1 hca)
      (Descriptor.component?_eq_none_iff.1 hcb)
  | case5 a => exact hobject _

end ClassPool

/-! ## Leeway -/

namespace RegType

variable {p : ClassPool} {m t : RegType} {d : Descriptor}

/-- A bound on how often a type can change while references are merged into it. -/
noncomputable def leeway (p : ClassPool) : RegType → Nat
  | .conflict => 0
  | .reference (.named d) precise =>
    if d = .object then 1 + precise.toNat else 4 + 2 * p.altitude d + precise.toNat
  | .unresolvedMerged => 3
  | .reference (.unissued _) _ | .unresolved _ => 4
  -- the null reference can become any reference
  | .constant _ _ _ => 6 + 2 * p.maxHeight
  | _ => 1

private theorem leeway_pos (h : m ≠ .conflict) : 0 < m.leeway p := by
  unfold leeway
  split
  · exact absurd rfl h
  · split <;> omega
  all_goals omega

private theorem leeway_object (p : ClassPool) : object.leeway p = 1 := by
  simp [object, leeway]

private theorem leeway_ofReference_lt (p : ClassPool) (d : Descriptor) (precise : Bool) :
    (ofReference p d precise).leeway p < 6 + 2 * p.maxHeight := by
  have haltitude := p.altitude_lt_maxHeight d
  have hprecise := precise.toNat_le
  unfold ofReference
  split
  · simp [leeway]
  split
  · unfold leeway
    dsimp only
    split <;> omega
  · show 4 < _
    omega

/-- A merge with a reference is the merge of two references, or it fails. -/
private theorem merge_eq_conflict_or (ht : t.isNonNullReference = true) (hne : m ≠ t) :
    m.merge p t = .conflict ∨ m.isReference = true ∧ m.merge p t = mergeReferences p m t := by
  have hplain : t.fitsInt = false ∧ t.fitsFloat = false ∧ t.fitsLongLow = false ∧
      t.fitsLongHigh = false ∧ t.fitsDoubleLow = false ∧ t.fitsDoubleHigh = false ∧
      t.isReference = true ∧ t.range? = none := by
    cases t <;> first
      | exact ⟨rfl, rfl, rfl, rfl, rfl, rfl, rfl, rfl⟩
      | exact absurd ht Bool.false_ne_true
  obtain ⟨hint, hfloat, hlongLow, hlongHigh, hdoubleLow, hdoubleHigh, href, hrange⟩ := hplain
  have hwritten : mergeWritten p m t =
      if m.isReference then mergeReferences p m t else .conflict := by
    unfold mergeWritten
    simp only [hint, hfloat, hlongLow, hlongHigh, hdoubleLow, hdoubleHigh, href, Bool.and_false,
      Bool.and_true, Bool.false_eq_true, if_false]
  unfold merge
  rw [if_neg hne]
  split
  · exact .inl rfl
  · rw [hrange, hwritten]
    by_cases hm : m.isReference = true
    · simp [hm]
    · simp [hm]

/-- The join of two classes leaves the first as it is, or uses up leeway. -/
private theorem leeway_join (hp : p.Steady) (precise : Bool) (hd : d ≠ .object) (e : Descriptor) :
    reference (.named (p.join d e)) false = reference (.named d) precise ∨
      leeway p (reference (.named (p.join d e)) false) <
        leeway p (reference (.named d) precise) := by
  have hleeway : leeway p (reference (.named d) precise) =
      4 + 2 * p.altitude d + precise.toNat := by
    simp [leeway, hd]
  rw [hleeway]
  rcases p.altitude_joinUpTo hp d.dimensions d e with hsame | hdrop
  · rw [ClassPool.join, hsame]
    cases precise with
    | false => exact .inl rfl
    | true => simp [leeway, hd]
  · right
    unfold leeway ClassPool.join
    dsimp only
    split
    · simp
      omega
    · simp
      omega

/-- Of the initialized references only the root class has little leeway left. -/
private theorem lt_leeway (hm : m.isReference = true) (hinit : m.isUninitialized = false) :
    (m ≠ .object → 1 < m.leeway p) ∧
      (m.isObject = false → m ≠ .unresolvedMerged → 3 < m.leeway p) := by
  cases m with
  | constant lo hi precise =>
    have : leeway p (.constant lo hi precise) = 6 + 2 * p.maxHeight := rfl
    omega
  | reference name precise =>
    cases name with
    | unissued h => exact ⟨fun _ => by simp [leeway], fun _ _ => by simp [leeway]⟩
    | named d =>
      by_cases hd : d = .object
      · subst hd
        cases precise <;> simp [leeway, object, isObject]
      · simp only [leeway, hd, if_false]
        omega
  | unresolved name => exact ⟨fun _ => by simp [leeway], fun _ _ => by simp [leeway]⟩
  | unresolvedMerged => exact ⟨fun _ => by simp [leeway], fun _ h => absurd rfl h⟩
  | uninitialized | uninitializedThis => simp [isUninitialized] at hinit
  | _ => simp [isReference, isZero, range?, isNonNullReference] at hm

/-- A merge of two references leaves the first as it is, or uses up leeway. -/
private theorem leeway_mergeReferences (hp : p.Steady) (hm : m.isReference = true)
    (hplain : t.isUninitialized = false ∧ t.isZero = false)
    (hbound : t.leeway p < 6 + 2 * p.maxHeight) :
    mergeReferences p m t = m ∨ (mergeReferences p m t).leeway p < m.leeway p := by
  have hconflict : m.isReference = true → leeway p .conflict < m.leeway p := by
    intro hm
    apply leeway_pos
    rintro rfl
    simp [isReference, isZero, range?, isNonNullReference] at hm
  unfold mergeReferences
  rw [hplain.1, hplain.2, Bool.or_false]
  by_cases hinit : m.isUninitialized = true
  · rw [if_pos hinit]
    exact .inr (hconflict hm)
  rw [if_neg hinit]
  rw [Bool.not_eq_true] at hinit
  obtain ⟨hone, hthree⟩ := lt_leeway (p := p) hm hinit
  by_cases hzero : m.isZero = true
  -- null becomes the other reference
  · rw [if_pos hzero]
    right
    cases m with
    | constant => exact hbound
    | _ => simp [isZero, range?] at hzero
  rw [if_neg hzero, if_neg Bool.false_ne_true]
  by_cases hobject : (m.isObject || t.isObject) = true
  · rw [if_pos hobject, leeway_object]
    by_cases hm' : m = .object
    · exact .inl hm'.symm
    · exact .inr (hone hm')
  rw [if_neg hobject]
  have hmObject : m.isObject = false := by
    rw [Bool.or_eq_true, not_or, Bool.not_eq_true] at hobject
    exact hobject.1
  by_cases hunresolved : (m.isUnresolved || t.isUnresolved) = true
  · rw [if_pos hunresolved]
    by_cases hm' : m = .unresolvedMerged
    · exact .inl hm'.symm
    · exact .inr (hthree hmObject hm')
  rw [if_neg hunresolved]
  split
  · rename_i d e hd he
    cases m with
    | reference name precise =>
      have hname : name = .named d := by
        cases name <;> simp_all [descriptor?, className?, ClassName.descriptor?]
      subst hname
      apply leeway_join hp
      rintro rfl
      simp [isObject] at hmObject
    | unresolved => simp [isUnresolved] at hunresolved
    | uninitialized | uninitializedThis => simp [isUninitialized] at hinit
    | _ => simp [descriptor?, className?] at hd
  · exact .inr (hconflict hm)

/-- A merge with a reference changes nothing or uses up leeway. -/
theorem leeway_merge (hp : p.Steady) (m : RegType) (d : Descriptor) (precise : Bool) :
    m.merge p (ofReference p d precise) = m ∨
      (m.merge p (ofReference p d precise)).leeway p < m.leeway p := by
  have hbound := leeway_ofReference_lt p d precise
  have hconflict : ∀ x, x = conflict → x = m ∨ x.leeway p < m.leeway p := by
    rintro x rfl
    by_cases hm : m = .conflict
    · exact .inl hm.symm
    · exact .inr (leeway_pos hm)
  have hreference : ofReference p d precise = .conflict ∨
      (ofReference p d precise).isNonNullReference = true ∧
        (ofReference p d precise).isUninitialized = false ∧
        (ofReference p d precise).isZero = false := by
    unfold ofReference
    split
    · exact .inl rfl
    split
    · exact .inr ⟨rfl, rfl, rfl⟩
    · exact .inr ⟨rfl, rfl, rfl⟩
  rcases hreference with ht | ⟨ht, hplain⟩
  · apply hconflict
    rw [ht]
    unfold merge
    split
    · assumption
    · simp [isConflict]
  by_cases hsame : m = ofReference p d precise
  · left
    unfold merge
    rw [if_pos hsame]
  rcases merge_eq_conflict_or (p := p) ht hsame with h | ⟨hm, h⟩
  · exact hconflict _ h
  · rw [h]
    exact leeway_mergeReferences hp hm hplain hbound

/-! ## Sequences of merges -/

/-- The type `m` after `t 0`, `t 1` and so on have been merged into it, `n` of them. -/
def mergeFirst (p : ClassPool) (m : RegType) (t : Nat → RegType) : Nat → RegType
  | 0 => m
  | n + 1 => (mergeFirst p m t n).merge p (t n)

/-- Merging references into a type changes it only finitely often. -/
theorem merges_settle (hp : p.Steady) (m : RegType) (d : Nat → Descriptor)
    (precise : Nat → Bool) :
    ∃ n, ∀ i, n ≤ i →
      mergeFirst p m (fun i => ofReference p (d i) (precise i)) i =
        mergeFirst p m (fun i => ofReference p (d i) (precise i)) n := by
  generalize hseq : mergeFirst p m (fun i => ofReference p (d i) (precise i)) = seq
  have hstep : ∀ i, seq (i + 1) = seq i ∨ (seq (i + 1)).leeway p < (seq i).leeway p := by
    intro i
    subst hseq
    exact leeway_merge hp _ (d i) (precise i)
  -- where the leeway is least, none of it can be used up any more
  obtain ⟨n, hleast⟩ : ∃ n, ∀ i, (seq n).leeway p ≤ (seq i).leeway p :=
    ⟨_, fun i => Function.argmin_le (fun i => (seq i).leeway p) i⟩
  exists n
  intro i hi
  induction i, hi using Nat.le_induction with
  | base => rfl
  | succ i _ ih =>
    rcases hstep i with hsame | hdrop
    · rw [hsame, ih]
    · have := hleast (i + 1)
      rw [ih] at hdrop
      omega

/-- Two classes that extend each other are no obstacle. -/
theorem circular_merges_settle : cyclicPool.Steady ∧ ∃ n, ∀ i, n ≤ i →
    mergeFirst cyclicPool zero (fun i => ofReference cyclicPool
        (if i % 3 = 0 then ⟨"[LA;"⟩ else if i % 3 = 1 then ⟨"[LB;"⟩ else ⟨"[LC;"⟩) true) i =
      mergeFirst cyclicPool zero (fun i => ofReference cyclicPool
        (if i % 3 = 0 then ⟨"[LA;"⟩ else if i % 3 = 1 then ⟨"[LB;"⟩ else ⟨"[LC;"⟩) true) n := by
  have hbounded : cyclicPool.Bounded := ClassPool.bounded_of_links (by decide +kernel)
  have hp : cyclicPool.Steady := by
    apply ClassPool.steady_of_bounded
    · decide +kernel
    · decide +kernel
    · intro a b hab _
      obtain ⟨_, ⟨c, hc, -⟩, -⟩ := Relation.TransGen.head'_iff.1 hab
      obtain ⟨hmem, rfl⟩ := ClassPool.find?_spec hc
      exact hbounded c hmem
  exact ⟨hp, merges_settle hp zero _ fun _ => true⟩

end RegType

/-- A pool whose root class extends one of two classes that extend each other. -/
def uprootedPool : ClassPool :=
  extensionPool [(.object, ⟨"LA;"⟩), (⟨"LA;"⟩, ⟨"LB;"⟩), (⟨"LB;"⟩, ⟨"LA;"⟩)]
    |>.insert { desc := ⟨"LC;"⟩, superclass := none }

/-- An array of one of two classes, in turns. -/
def alternating (i : Nat) : RegType :=
  .ofReference uprootedPool (if i % 2 = 0 then ⟨"[LA;"⟩ else ⟨"[LC;"⟩) false

/-- Two elements that have nothing in common meet in the root class, from which the class that it
    extends leads away again. -/
private theorem mergeFirst_alternating (k : Nat) :
    RegType.mergeFirst uprootedPool .zero alternating (2 * k + 1) =
        .reference (.named ⟨"[LA;"⟩) false ∧
      RegType.mergeFirst uprootedPool .zero alternating (2 * k + 2) =
        .reference (.named Descriptor.object.arrayOf) false := by
  have hA : ∀ i, i % 2 = 0 → alternating i = .reference (.named ⟨"[LA;"⟩) false := by
    intro i hi
    rw [alternating, if_pos hi]
    decide +kernel
  have hC : ∀ i, i % 2 = 1 → alternating i = .reference (.named ⟨"[LC;"⟩) false := by
    intro i hi
    rw [alternating, if_neg (by omega)]
    decide +kernel
  induction k with
  | zero => decide +kernel
  | succ k ih =>
    have hback : RegType.mergeFirst uprootedPool .zero alternating (2 * (k + 1) + 1) =
        .reference (.named ⟨"[LA;"⟩) false := by
      rw [RegType.mergeFirst, Nat.mul_succ, ih.2, hA _ (by omega)]
      decide +kernel
    have hup : RegType.mergeFirst uprootedPool .zero alternating (2 * (k + 1) + 2) =
        .reference (.named Descriptor.object.arrayOf) false := by
      rw [RegType.mergeFirst, hback, hC _ (by omega)]
      decide +kernel
    exact ⟨hback, hup⟩

/-- The merges of two arrays can go back and forth. -/
theorem uprooted_merges_not_settle : ¬∃ n, ∀ i, n ≤ i →
    RegType.mergeFirst uprootedPool .zero alternating i =
      RegType.mergeFirst uprootedPool .zero alternating n := by
  intro ⟨n, hn⟩
  have hsame := (hn (2 * n + 1) (by omega)).trans (hn (2 * n + 2) (by omega)).symm
  rw [(mergeFirst_alternating n).1, (mergeFirst_alternating n).2] at hsame
  exact absurd hsame (by decide +kernel)

end BytecodeVerifier
