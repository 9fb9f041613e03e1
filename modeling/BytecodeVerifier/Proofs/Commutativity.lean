import BytecodeVerifier.Proofs.HandleLattice

/-!
# The order of a merge

Two types can be merged in either order (`RegType.merge_comm`), and so can two handles
(`Lookup.merge_order_irrelevant`), as long as no class is its own ancestor.

The join of two classes treats them differently. It looks for the second in the first before it
looks for the first in the second, and it takes the first class of one superclass chain that stands
on the other. On two chains without circles this is the same class either way, even if both have
been cut short: of two classes that stand on both chains, the lower one comes first on both.
-/

namespace BytecodeVerifier

namespace ClassPool

open Relation (TransGen)

/-- No class is its own ancestor. -/
def Acyclic (p : ClassPool) : Prop := ∀ d, ¬p.Ancestor d d

variable {p : ClassPool} {a b : Descriptor}

/-- A pool is acyclic if its classes can be ranked. -/
theorem acyclic_of_rank (rank : Descriptor → Nat)
    (h : ∀ c ∈ p.classes, ∀ d ∈ c.parents, rank d < rank c.desc) : p.Acyclic := by
  have hlt : ∀ {a b}, p.Ancestor a b → rank b < rank a := by
    intro a b hab
    induction hab with
    | single hlink =>
      obtain ⟨c, hc, hmem⟩ := hlink
      obtain ⟨hclass, rfl⟩ := find?_spec hc
      exact h c hclass _ hmem
    | tail _ hlink ih =>
      obtain ⟨c, hc, hmem⟩ := hlink
      obtain ⟨hclass, rfl⟩ := find?_spec hc
      exact Nat.lt_trans (h c hclass _ hmem) ih
  intro d hd
  exact Nat.lt_irrefl _ (hlt hd)

/-! ## Superclass chains -/

/-- Every class on a superclass chain has those behind it as ancestors. -/
theorem pairwise_chain (p : ClassPool) (n : Nat) (d : Descriptor) :
    ((p.chain n d).map ClassDef.desc).Pairwise p.Ancestor := by
  induction n generalizing d with
  | zero => exact .nil
  | succ n ih =>
    unfold chain
    cases hfind : p.find? d with
    | none => exact .nil
    | some c =>
      dsimp only
      cases hsuper : c.superclass with
      | none => exact List.pairwise_singleton _ _
      | some s =>
        refine .cons ?_ (ih s)
        intro e he
        obtain ⟨f, hf, rfl⟩ := List.mem_map.1 he
        have hlink : p.Link ClassDef.parents c.desc s :=
          ⟨c, (find?_spec hfind).2 ▸ hfind, by simp [ClassDef.parents, hsuper]⟩
        rcases (mem_chain hf).2 with rfl | hanc
        · exact .single hlink
        · exact .head hlink hanc

/-- The first match in a list in order is below every other match. -/
private theorem eq_or_rel_of_find? {α : Type} {R : α → α → Prop} {xs : List α} {q : α → Bool}
    {x y : α} (hxs : xs.Pairwise R) (hfind : xs.find? q = some x) (hy : y ∈ xs)
    (hq : q y = true) : x = y ∨ R x y := by
  obtain ⟨-, before, after, rfl, hbefore⟩ := List.find?_eq_some_iff_append.1 hfind
  rcases List.mem_append.1 hy with hy | hy
  · exact absurd hq (by simpa using hbefore y hy)
  · rcases List.mem_cons.1 hy with rfl | hy
    · exact .inl rfl
    · exact .inr ((List.pairwise_cons.1 (List.pairwise_append.1 hxs).2.1).1 y hy)

/-- The first element of one list that stands in the other, if both are in the same order. -/
private theorem find?_contains_comm {α : Type} [BEq α] [LawfulBEq α] {R : α → α → Prop}
    {xs ys : List α} (hxs : xs.Pairwise R) (hys : ys.Pairwise R) (hR : ∀ x y, R x y → ¬R y x) :
    xs.find? ys.contains = ys.find? xs.contains := by
  cases hx : xs.find? ys.contains with
  | none =>
    symm
    rw [List.find?_eq_none] at hx ⊢
    intro y hy hmem
    rw [List.contains_iff_mem] at hmem
    exact hx y hmem (List.contains_iff_mem.2 hy)
  | some x =>
    have hmem := List.mem_of_find?_eq_some hx
    have hmem' : x ∈ ys := List.contains_iff_mem.1 (List.find?_some hx : ys.contains x = true)
    cases hy : ys.find? xs.contains with
    | none =>
      rw [List.find?_eq_none] at hy
      exact absurd (List.contains_iff_mem.2 hmem) (hy x hmem')
    | some y =>
      have hmemY := List.mem_of_find?_eq_some hy
      have hmemY' : y ∈ xs := List.contains_iff_mem.1 (List.find?_some hy : xs.contains y = true)
      -- both stand in both lists, and each comes first in one of them
      rcases eq_or_rel_of_find? hxs hx hmemY' (List.contains_iff_mem.2 hmemY) with rfl | hxy
      · rfl
      rcases eq_or_rel_of_find? hys hy hmem' (List.contains_iff_mem.2 hmem) with rfl | hyx
      · rfl
      · exact absurd hyx (hR x y hxy)

/-! ## Joins -/

/-- Of two different classes at most one is a subclass of the other. -/
private theorem Acyclic.eq_of_isSubclass (hp : p.Acyclic) (hab : p.isSubclass a b = true)
    (hba : p.isSubclass b a = true) : a = b := by
  rcases eq_or_ancestor_of_isSubclass hab with h | hab
  · exact h
  rcases eq_or_ancestor_of_isSubclass hba with h | hba
  · exact h.symm
  · exact absurd (hab.trans hba) (hp a)

private theorem joinElements_comm (hp : p.Acyclic) (a b : Descriptor) :
    p.joinElements a b = p.joinElements b a := by
  unfold joinElements
  by_cases hab : p.isSubclass a b = true <;> by_cases hba : p.isSubclass b a = true
  · rw [if_pos hba, if_pos hab]
    exact hp.eq_of_isSubclass hab hba
  · rw [if_neg hba, if_pos hab, if_pos hab]
  · rw [if_pos hba, if_neg hab, if_pos hba]
  · rw [if_neg hba, if_neg hab, if_neg hab, if_neg hba, Bool.or_comm]
    have hR : ∀ x y, p.Ancestor x y → ¬p.Ancestor y x := fun x y hxy hyx => hp x (hxy.trans hyx)
    have hfind :=
      find?_contains_comm (p.pairwise_chain walkLimit b) (p.pairwise_chain walkLimit a) hR
    simp only [superclasses, hfind]

/-- Each side of a join has to leave room for its own dimensions only. -/
private theorem joinUpTo_comm (hp : p.Acyclic) (dims dims' : Nat) (a b : Descriptor)
    (ha : a.dimensions ≤ dims) (hb : b.dimensions ≤ dims') :
    p.joinUpTo dims a b = p.joinUpTo dims' b a := by
  rw [joinUpTo.eq_def p dims a b, joinUpTo.eq_def p dims' b a]
  by_cases heq : a = b
  · rw [if_pos heq, if_pos heq.symm, heq]
  rw [if_neg heq, if_neg (Ne.symm heq)]
  cases hca : a.component? with
  | none =>
    cases hcb : b.component? with
    | none => exact joinElements_comm hp a b
    | some cb => rfl
  | some ca =>
    cases hcb : b.component? with
    | none => rfl
    | some cb =>
      obtain ⟨-, rfl⟩ := Descriptor.component?_eq_some_iff.1 hca
      obtain ⟨-, rfl⟩ := Descriptor.component?_eq_some_iff.1 hcb
      rw [Descriptor.dimensions_arrayOf] at ha hb
      obtain ⟨dims, rfl⟩ := Nat.exists_eq_add_one_of_ne_zero (by omega : dims ≠ 0)
      obtain ⟨dims', rfl⟩ := Nat.exists_eq_add_one_of_ne_zero (by omega : dims' ≠ 0)
      have ih := joinUpTo_comm hp dims dims' ca cb (by omega) (by omega)
      simp only [ih, Bool.and_comm]
termination_by dims

theorem join_comm (hp : p.Acyclic) (a b : Descriptor) : p.join a b = p.join b a :=
  joinUpTo_comm hp _ _ a b (Nat.le_refl _) (Nat.le_refl _)

end ClassPool

namespace RegType

variable {p : ClassPool} {a b : RegType}

private theorem min_comm_int32 (x y : Int32) : min x y = min y x := by
  change (if x ≤ y then x else y) = if y ≤ x then y else x
  split <;> split
  · exact Int32.le_antisymm ‹_› ‹_›
  · rfl
  · rfl
  · exact absurd (Int32.le_total x y) (by simp_all)

private theorem max_comm_int32 (x y : Int32) : max x y = max y x := by
  change (if x ≤ y then y else x) = if y ≤ x then x else y
  split <;> split
  · exact Int32.le_antisymm ‹_› ‹_›
  · rfl
  · rfl
  · exact absurd (Int32.le_total x y) (by simp_all)

/-- The merge of two references that are not both null. -/
private theorem mergeReferences_comm (hp : p.Acyclic)
    (hnull : a.isZero = false ∨ b.isZero = false) :
    mergeReferences p a b = mergeReferences p b a := by
  unfold mergeReferences
  rw [Bool.or_comm a.isUninitialized, Bool.or_comm a.isObject, Bool.or_comm a.isUnresolved]
  cases ha : a.isZero with
  | true =>
    cases hb : b.isZero with
    | true => simp [ha, hb] at hnull
    | false => rfl
  | false =>
    cases hb : b.isZero with
    | true => rfl
    | false =>
      cases a.descriptor? with
      | none => cases b.descriptor? <;> rfl
      | some da =>
        cases b.descriptor? with
        | none => rfl
        | some db =>
          dsimp only
          rw [ClassPool.join_comm hp da db]
          rfl

private theorem mergeWritten_comm (hp : p.Acyclic) (hnull : a.isZero = false ∨ b.isZero = false) :
    mergeWritten p a b = mergeWritten p b a := by
  simp only [mergeWritten, mergeIntegral, mergeReferences_comm hp hnull, Bool.and_comm]

theorem merge_comm (hp : p.Acyclic) (a b : RegType) : a.merge p b = b.merge p a := by
  by_cases heq : a = b
  · rw [heq]
  have hunusable : (a.isConflict || b.isConflict || a.isUndefined || b.isUndefined) =
      (b.isConflict || a.isConflict || b.isUndefined || a.isUndefined) := by
    rw [Bool.or_comm a.isConflict, Bool.or_assoc, Bool.or_comm a.isUndefined, ← Bool.or_assoc]
  unfold merge
  rw [if_neg heq, if_neg (Ne.symm heq), hunusable]
  split
  · rfl
  cases ha : a.range? with
  | none =>
    have hwritten := mergeWritten_comm (a := a) (b := b) hp (.inl (by simp [isZero, ha]))
    cases b.range? with
    | none => exact hwritten
    | some r' => exact hwritten
  | some r =>
    cases hb : b.range? with
    | none => exact mergeWritten_comm hp (.inr (by simp [isZero, hb]))
    | some r' => simp only [min_comm_int32 r.1, max_comm_int32 r.2]

end RegType

/-! ## Handles -/

/-- Two handles of any table, issued or not, are merged into the same handle in either order. This
    is so whether both merges start from the table as it is or one comes after the other. -/
theorem Lookup.merge_order_irrelevant {p : ClassPool} {t : TypeTable} (hp : p.Acyclic)
    (ht : t.Reachable) (a b : Handle) :
    merge p a b t = merge p b a t ∧
      ∀ m t', merge p a b t = (m, t') → merge p b a t' = (m, t') := by
  constructor
  · rw [merge_run p ht, merge_run p ht, RegType.merge_comm hp]
  · intro m t' hm
    -- neither handle stands for anything else by now, and `m` stands for their merge
    have ht' := reachable_merge ht hm
    rw [merge_run p ht', type_merge_left ht hm, type_merge_right ht hm, RegType.merge_comm hp,
      ← type_merge ht hm]
    exact intern_type_run ht' m

/-- `B` and `C` extend `A` and implement the interface `I`. -/
def diamondPool : ClassPool :=
  [ { desc := ⟨"LA;"⟩, superclass := some .object },
    { desc := ⟨"LB;"⟩, superclass := some ⟨"LA;"⟩, interfaces := [⟨"LI;"⟩] },
    { desc := ⟨"LC;"⟩, superclass := some ⟨"LA;"⟩, interfaces := [⟨"LI;"⟩] },
    .ofInterface ⟨"LI;"⟩ ].foldl .insert .core

theorem diamondPool_regular : diamondPool.Regular :=
  ⟨by decide +kernel, ClassPool.bounded_of_links (by decide +kernel), by decide +kernel⟩

/-- The table with handles for arrays of `B` and of `C`. -/
def diamondTable : TypeTable :=
  ((TypeTable.initial.intern (.reference (.named ⟨"[LB;"⟩) true)).2.intern
    (.reference (.named ⟨"[LC;"⟩) false)).2

/-- An array of `B` and one of `C` merge into an array of `A`. -/
theorem diamond_merge_order_irrelevant : diamondPool.Acyclic ∧ diamondTable.Reachable ∧
    ∃ m t', Lookup.merge diamondPool ⟨16⟩ ⟨17⟩ diamondTable = (m, t') ∧
      t'.type m.index = .reference (.named ⟨"[LA;"⟩) false ∧
      Lookup.merge diamondPool ⟨17⟩ ⟨16⟩ diamondTable = (m, t') ∧
      Lookup.merge diamondPool ⟨17⟩ ⟨16⟩ t' = (m, t') := by
  have hp : diamondPool.Acyclic := by
    apply ClassPool.acyclic_of_rank fun d =>
      [.object, .serializable, .cloneable, .string, .classObject, .throwable, ⟨"LI;"⟩, ⟨"LA;"⟩,
        ⟨"LB;"⟩, ⟨"LC;"⟩].idxOf d
    decide +kernel
  have ht : diamondTable.Reachable := .intern _ (.intern _ .initial)
  obtain ⟨hswap, hagain⟩ := Lookup.merge_order_irrelevant hp ht ⟨16⟩ ⟨17⟩
  exact ⟨hp, ht, _, _, rfl, by decide +kernel, hswap.symm, hagain _ _ rfl⟩

end BytecodeVerifier
