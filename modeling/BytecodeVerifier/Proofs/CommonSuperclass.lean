import BytecodeVerifier.Proofs.Commutativity
import Mathlib.Logic.Function.Iterate

/-!
# The closest common superclass

`ClassPool.Climbs` follows superclass links one by one and has no limit, unlike
`ClassPool.superclasses`. Where every class leads up to the root within the limit, the two agree
(`ClassPool.Orderly.inherits_iff_mem_superclasses`).

In such a pool interfaces do not get in the way of a join. A way up that takes an interface link
ends at an interface or at the root, so that a class which is no interface is found above another
one only if it stands on its superclass chain (`ClassPool.Orderly.inherits_of_ancestor`). Whichever
way the join of two classes is found, it is then the lowest class on both chains, and arrays are
joined as their elements are (`ClassPool.join_isLeastCommon`).
-/

namespace BytecodeVerifier

namespace ClassPool

open Relation (TransGen)

/-- Both classes are known, and `n` superclass links lead up from `a` to `b`. -/
inductive Climbs (p : ClassPool) : Nat → Descriptor → Descriptor → Prop
  | here {a : Descriptor} {c : ClassDef} : p.find? a = some c → Climbs p 0 a a
  | up {n : Nat} {a b s : Descriptor} {c : ClassDef} : p.find? a = some c →
      c.superclass = some s → Climbs p n s b → Climbs p (n + 1) a b

/-- The class `b` stands on the superclass chain of `a`, which begins with `a` itself. -/
def Inherits (p : ClassPool) (a b : Descriptor) : Prop := ∃ n, p.Climbs n a b

/-- A hierarchy as programs have it. -/
structure Orderly (p : ClassPool) : Prop where
  /-- No class is its own ancestor. -/
  acyclic : p.Acyclic
  /-- Every class leads up to the root, on a chain of no more than `walkLimit` classes. -/
  rooted {a : Descriptor} {c : ClassDef} : p.find? a = some c →
    ∃ n < walkLimit, p.Climbs n a .object
  /-- What a class names as an interface is one, right below the root, if it is known. -/
  interfaces {a i : Descriptor} {c e : ClassDef} : p.find? a = some c → i ∈ c.interfaces →
    p.find? i = some e → e.isInterface = true ∧ e.superclass = some .object

variable {p : ClassPool} {a b d e : Descriptor} {m n : Nat} {c : ClassDef}

/-! ## Superclass chains -/

theorem Climbs.exists_find? (h : p.Climbs n a b) : ∃ c, p.find? a = some c := by
  cases h with
  | here ha => exact ⟨_, ha⟩
  | up ha => exact ⟨_, ha⟩

/-- From one class there is only one way up, so that one of two ways continues the other. -/
theorem Climbs.of_le (hd : p.Climbs m a d) (he : p.Climbs n a e) (hle : m ≤ n) :
    p.Climbs (n - m) d e := by
  induction hd generalizing n with
  | here => exact he
  | @up m a d s c ha hs _ ih =>
    cases he with
    | here => omega
    | @up n _ _ s' c' ha' hs' he =>
      rw [ha] at ha'
      cases ha'
      rw [hs] at hs'
      cases hs'
      rw [Nat.add_sub_add_right]
      exact ih he (by omega)

theorem link_superclass {s : Descriptor} (ha : p.find? a = some c) (hs : c.superclass = some s) :
    p.Link ClassDef.parents a s :=
  ⟨c, ha, by simp [ClassDef.parents, hs]⟩

/-- A class further up is an ancestor. -/
theorem Climbs.ancestor (h : p.Climbs (n + 1) a b) : p.Ancestor a b := by
  induction n generalizing a with
  | zero =>
    cases h with
    | up ha hs h =>
      cases h with
      | here => exact .single (link_superclass ha hs)
  | succ n ih =>
    cases h with
    | up ha hs h => exact .head (link_superclass ha hs) (ih h)

/-- The chain as a list goes up link by link, as far as it may. -/
theorem getElem?_chain_iff {k : Nat} :
    ((p.chain n a).map ClassDef.desc)[k]? = some d ↔ k < n ∧ p.Climbs k a d := by
  induction n generalizing a k with
  | zero => simp [chain]
  | succ n ih =>
    constructor
    · intro h
      cases ha : p.find? a with
      | none => simp [chain, ha] at h
      | some c =>
        have hdesc := (find?_spec ha).2
        cases k with
        | zero =>
          have hd : c.desc = d := by
            cases hs : c.superclass <;> simpa [chain, ha, hs] using h
          rw [← hd, hdesc]
          exact ⟨Nat.succ_pos n, .here ha⟩
        | succ k =>
          cases hs : c.superclass with
          | none => simp [chain, ha, hs] at h
          | some s =>
            have hrest : ((p.chain n s).map ClassDef.desc)[k]? = some d := by
              simpa [chain, ha, hs] using h
            obtain ⟨hlt, hclimbs⟩ := ih.1 hrest
            exact ⟨Nat.succ_lt_succ hlt, .up ha hs hclimbs⟩
    · rintro ⟨hlt, h⟩
      cases h with
      | @here _ c ha =>
        have hdesc := (find?_spec ha).2
        cases hs : c.superclass <;> simp [chain, ha, hs, hdesc]
      | @up k _ _ s c ha hs h =>
        have hrest := ih.2 ⟨Nat.lt_of_succ_lt_succ hlt, h⟩
        simpa [chain, ha, hs] using hrest

namespace Orderly

variable (hp : p.Orderly)

include hp

/-- Nothing is above the root: it would lead up to the root again. -/
theorem not_climbs_object (h : p.Climbs (n + 1) .object d) : False := by
  cases h with
  | up hroot hs h =>
    obtain ⟨c, hc⟩ := h.exists_find?
    obtain ⟨k, -, hk⟩ := hp.rooted hc
    exact hp.acyclic .object (Climbs.up hroot hs hk).ancestor

theorem eq_object_of_inherits (h : p.Inherits .object d) : d = .object := by
  obtain ⟨n, h⟩ := h
  cases n with
  | zero =>
    cases h with
    | here => rfl
  | succ n => exact (hp.not_climbs_object h).elim

/-- No chain goes on behind the root. -/
theorem climbs_lt (h : p.Climbs n a d) : n < walkLimit := by
  obtain ⟨c, hc⟩ := h.exists_find?
  obtain ⟨m, hm, hroot⟩ := hp.rooted hc
  by_contra hn
  have hbehind := hroot.of_le h (by omega)
  obtain ⟨k, hk⟩ := Nat.exists_eq_add_one_of_ne_zero (by omega : n - m ≠ 0)
  rw [hk] at hbehind
  exact hp.not_climbs_object hbehind

/-- The list of superclasses is complete. -/
theorem inherits_iff_mem_superclasses :
    p.Inherits a d ↔ d ∈ (p.superclasses a).map ClassDef.desc := by
  simp only [List.mem_iff_getElem?, superclasses, getElem?_chain_iff]
  constructor
  · rintro ⟨n, h⟩
    exact ⟨n, hp.climbs_lt h, h⟩
  · rintro ⟨n, -, h⟩
    exact ⟨n, h⟩

/-- A link to something that inherits from a class is itself on the way to that class, even if it is
    a link to an interface: from there only the root can be reached. -/
theorem inherits_of_link (ha : p.find? a = some c) (hc : c.isInterface = false)
    (hlink : p.Link ClassDef.parents b e) (h : p.Inherits e a) : p.Inherits b a := by
  obtain ⟨f, hb, hmem⟩ := hlink
  obtain ⟨n, h⟩ := h
  rcases List.mem_append.1 hmem with hsuper | hinterface
  · exact ⟨n + 1, .up hb (by simpa using hsuper) h⟩
  · cases h with
    | here he =>
      rw [ha] at he
      cases he
      have htrue := (hp.interfaces hb hinterface ha).1
      rw [hc] at htrue
      exact absurd htrue Bool.false_ne_true
    | up he hs h =>
      -- right above the interface there is the root, and so `a` is the root
      rw [(hp.interfaces hb hinterface he).2] at hs
      cases hs
      obtain rfl := hp.eq_object_of_inherits ⟨_, h⟩
      obtain ⟨m, -, hm⟩ := hp.rooted hb
      exact ⟨m, hm⟩

/-- An ancestor that is a known class and no interface stands on the superclass chain. -/
theorem inherits_of_ancestor (ha : p.find? a = some c) (hc : c.isInterface = false)
    (h : p.Ancestor b a) : p.Inherits b a := by
  induction h using TransGen.head_induction_on with
  | single hlink => exact hp.inherits_of_link ha hc hlink ⟨0, .here ha⟩
  | head hlink _ ih => exact hp.inherits_of_link ha hc hlink ih

theorem inherits_of_isSubclass (ha : p.find? a = some c) (hc : c.isInterface = false)
    (h : p.isSubclass b a = true) : p.Inherits b a := by
  rcases eq_or_ancestor_of_isSubclass h with rfl | h
  · exact ⟨0, .here ha⟩
  · exact hp.inherits_of_ancestor ha hc h

end Orderly

/-! ## Joins -/

/-- The class `r` stands on the superclass chains of `a` and of `b`, and every class that stands on
    both stands on that of `r`. -/
structure IsLeastCommon (p : ClassPool) (a b r : Descriptor) : Prop where
  left : p.Inherits a r
  right : p.Inherits b r
  least {d : Descriptor} : p.Inherits a d → p.Inherits b d → p.Inherits r d

/-- The first class of one chain that stands on the other is the lowest one on both. -/
theorem Orderly.isLeastCommon_of_firstCommon? {r : Descriptor} (hp : p.Orderly)
    (h : p.firstCommon? a b = some r) : p.IsLeastCommon a b r := by
  have hmem : ((p.superclasses a).map ClassDef.desc).contains r = true := List.find?_some h
  obtain ⟨-, before, after, hsplit, hbefore⟩ := List.find?_eq_some_iff_append.1 h
  have hr : p.Climbs before.length b r := by
    refine (getElem?_chain_iff (n := walkLimit)).1 ?_ |>.2
    rw [← superclasses, hsplit]
    simp
  refine ⟨hp.inherits_iff_mem_superclasses.2 (List.contains_iff_mem.1 hmem), ⟨_, hr⟩, ?_⟩
  rintro d ha ⟨k, hk⟩
  -- a class on both chains does not come before `r`
  refine ⟨_, hr.of_le hk ?_⟩
  by_contra hlt
  have hd : ((p.superclasses b).map ClassDef.desc)[k]? = some d :=
    getElem?_chain_iff.2 ⟨hp.climbs_lt hk, hk⟩
  rw [hsplit, List.getElem?_append_left (by omega)] at hd
  have hnot := hbefore d (List.mem_of_getElem? hd)
  rw [List.contains_iff_mem.2 (hp.inherits_iff_mem_superclasses.1 ha)] at hnot
  exact absurd hnot (by simp)

/-- Each of the ways in which a join is found leads to the lowest class on both chains. -/
theorem Orderly.joinElements_isLeastCommon {ca cb : ClassDef} (hp : p.Orderly)
    (ha : p.find? a = some ca) (hb : p.find? b = some cb) (hca : ca.isInterface = false)
    (hcb : cb.isInterface = false) : p.IsLeastCommon a b (p.joinElements a b) := by
  have hjoined := p.joined_joinElements a b
  generalize p.joinElements a b = r at hjoined
  cases hjoined with
  | left hsub => exact ⟨⟨0, .here ha⟩, hp.inherits_of_isSubclass ha hca hsub, fun h _ => h⟩
  | right hsub => exact ⟨hp.inherits_of_isSubclass hb hcb hsub, ⟨0, .here hb⟩, fun _ h => h⟩
  | interface hinterface => simp [isInterface, ha, hb, hca, hcb] at hinterface
  | common hfind => exact hp.isLeastCommon_of_firstCommon? hfind
  | root hnone =>
    -- the root stands on both chains, so that the search does not end with nothing
    obtain ⟨m, -, hm⟩ := hp.rooted ha
    obtain ⟨n, -, hn⟩ := hp.rooted hb
    have hnot := List.find?_eq_none.1 hnone .object (hp.inherits_iff_mem_superclasses.1 ⟨n, hn⟩)
    exact absurd (List.contains_iff_mem.2 (hp.inherits_iff_mem_superclasses.1 ⟨m, hm⟩)) hnot

/-- Arrays of references are joined as their elements are. -/
theorem join_arrayOf (ha : a.arrayOf.isArray = true) (hb : b.arrayOf.isArray = true)
    (haRef : a.isReference = true) (hbRef : b.isReference = true) :
    p.join a.arrayOf b.arrayOf = (p.join a b).arrayOf := by
  unfold join
  by_cases heq : a = b
  · subst heq
    rw [joinUpTo.eq_def, if_pos rfl, joinUpTo.eq_def, if_pos rfl]
  · have hne : a.arrayOf ≠ b.arrayOf := fun h => heq (Descriptor.arrayOf_inj h)
    rw [joinUpTo.eq_def, if_neg hne, Descriptor.component?_arrayOf ha,
      Descriptor.component?_arrayOf hb, Descriptor.dimensions_arrayOf]
    simp [haRef, hbRef]

end ClassPool

/-- The array with `n` dimensions over a class. -/
theorem Descriptor.iterate_arrayOf {d : Descriptor} {n : Nat} (hd : d.isClass = true)
    (hn : n ≤ maxDimensions) :
    (arrayOf^[n] d).isReference = true ∧ (arrayOf^[n] d).dimensions = n := by
  induction n with
  | zero => exact ⟨isReference_iff.2 (.inl hd), (isClass_spec hd).2.1⟩
  | succ n ih =>
    obtain ⟨href, hdims⟩ := ih (by omega)
    rw [Function.iterate_succ_apply', dimensions_arrayOf, hdims]
    exact ⟨isReference_iff.2 (.inr (isArray_arrayOf href (by omega))), rfl⟩

namespace ClassPool

variable {p : ClassPool} {a b : Descriptor}

theorem join_iterate_arrayOf {n : Nat} (ha : a.isClass = true) (hb : b.isClass = true)
    (hn : n ≤ Descriptor.maxDimensions) :
    p.join (Descriptor.arrayOf^[n] a) (Descriptor.arrayOf^[n] b) =
      Descriptor.arrayOf^[n] (p.join a b) := by
  induction n with
  | zero => rfl
  | succ n ih =>
    obtain ⟨haRef, haDims⟩ := Descriptor.iterate_arrayOf ha (n := n) (by omega)
    obtain ⟨hbRef, hbDims⟩ := Descriptor.iterate_arrayOf hb (n := n) (by omega)
    have haArray := Descriptor.isArray_arrayOf haRef (by omega)
    have hbArray := Descriptor.isArray_arrayOf hbRef (by omega)
    rw [Function.iterate_succ_apply', Function.iterate_succ_apply', Function.iterate_succ_apply',
      join_arrayOf haArray hbArray haRef hbRef, ih (by omega)]

/-- In an orderly hierarchy the join of two classes is the lowest class from which both inherit, and
    that of two arrays over them, of any number of dimensions, is the array over it. -/
theorem join_isLeastCommon {ca cb : ClassDef} (hp : p.Orderly) (ha : p.find? a = some ca)
    (hb : p.find? b = some cb) (hca : ca.isInterface = false) (hcb : cb.isInterface = false)
    (haClass : a.isClass = true) (hbClass : b.isClass = true) :
    p.IsLeastCommon a b (p.join a b) ∧ ∀ n ≤ Descriptor.maxDimensions,
      p.join (Descriptor.arrayOf^[n] a) (Descriptor.arrayOf^[n] b) =
        Descriptor.arrayOf^[n] (p.join a b) := by
  refine ⟨?_, fun n hn => join_iterate_arrayOf haClass hbClass hn⟩
  have haNone := Descriptor.component?_eq_none_iff.2 (Descriptor.isClass_spec haClass).1
  have hbNone := Descriptor.component?_eq_none_iff.2 (Descriptor.isClass_spec hbClass).1
  unfold join
  rw [joinUpTo.eq_def, haNone, hbNone]
  split
  · rename_i heq
    subst heq
    exact ⟨⟨0, .here ha⟩, ⟨0, .here ha⟩, fun h _ => h⟩
  · exact hp.joinElements_isLeastCommon ha hb hca hcb

end ClassPool

theorem diamondPool_orderly : diamondPool.Orderly where
  acyclic := by
    apply ClassPool.acyclic_of_rank fun d =>
      [.object, .serializable, .cloneable, .string, .classObject, .throwable, ⟨"LI;"⟩, ⟨"LA;"⟩,
        ⟨"LB;"⟩, ⟨"LC;"⟩].idxOf d
    decide +kernel
  rooted := by
    intro a c ha
    have hroot : ∀ c ∈ diamondPool.classes,
        .object ∈ (diamondPool.superclasses c.desc).map ClassDef.desc := by decide +kernel
    obtain ⟨hmem, rfl⟩ := ClassPool.find?_spec ha
    obtain ⟨n, hn⟩ := List.mem_iff_getElem?.1 (hroot c hmem)
    exact ⟨n, ClassPool.getElem?_chain_iff.1 hn⟩
  interfaces := by
    intro a i c e ha hi he
    have hall : ∀ c ∈ diamondPool.classes, ∀ e ∈ diamondPool.classes, e.desc ∈ c.interfaces →
        e.isInterface = true ∧ e.superclass = some .object := by decide +kernel
    obtain ⟨hmem, rfl⟩ := ClassPool.find?_spec he
    exact hall c (ClassPool.find?_spec ha).1 e hmem hi

/-- The lowest class from which `B` and `C` inherit is `A`, and the deepest arrays over them have
    the deepest array over `A` as their join. -/
theorem diamond_isLeastCommon : diamondPool.Orderly ∧
    diamondPool.IsLeastCommon ⟨"LB;"⟩ ⟨"LC;"⟩ ⟨"LA;"⟩ ∧
    diamondPool.join (Descriptor.arrayOf^[255] ⟨"LB;"⟩) (Descriptor.arrayOf^[255] ⟨"LC;"⟩) =
      Descriptor.arrayOf^[255] ⟨"LA;"⟩ := by
  have hB : diamondPool.find? ⟨"LB;"⟩ = some
      { desc := ⟨"LB;"⟩, superclass := some ⟨"LA;"⟩, interfaces := [⟨"LI;"⟩] } := by decide +kernel
  have hC : diamondPool.find? ⟨"LC;"⟩ = some
      { desc := ⟨"LC;"⟩, superclass := some ⟨"LA;"⟩, interfaces := [⟨"LI;"⟩] } := by decide +kernel
  have hjoin : diamondPool.join ⟨"LB;"⟩ ⟨"LC;"⟩ = ⟨"LA;"⟩ := by decide +kernel
  obtain ⟨hleast, harrays⟩ := ClassPool.join_isLeastCommon diamondPool_orderly hB hC
    (by decide +kernel) (by decide +kernel) (by decide +kernel) (by decide +kernel)
  rw [hjoin] at hleast
  refine ⟨diamondPool_orderly, hleast, ?_⟩
  rw [harrays 255 (by decide), hjoin]

end BytecodeVerifier
