import BytecodeVerifier.Frame
import BytecodeVerifier.Proofs.MergeOrder

/-!
# Merging frames

What holds of the merge of types, register by register: a merged frame has the types of both frames
or merges of them (`All.merge`), it absorbs the frame that was merged (`merge_merge_right`), and
whatever was absorbed before stays absorbed (`merge_absorbs`).
-/

namespace BytecodeVerifier

namespace Frame

/-- Every type in the frame, the value left behind included, satisfies `Q`. -/
def All (Q : RegType → Prop) (f : Frame) : Prop := ∀ t ∈ f.types, Q t

/-- The number of locals and of parameters. -/
def shape (f : Frame) : Nat × Nat := (f.locals.length, f.params.length)

attribute [ext] Frame

variable {p : ClassPool} {f g : Frame} {Q Q' : RegType → Prop}

theorem all_iff : f.All Q ↔
    (∀ t ∈ f.locals, Q t) ∧ (∀ t ∈ f.params, Q t) ∧ Q f.result.1 ∧ Q f.result.2 := by
  simp only [All, types, registers, List.mem_append, List.mem_cons, List.not_mem_nil, or_false,
    or_imp, forall_and, forall_eq]
  exact ⟨fun ⟨⟨hl, hp⟩, h1, h2⟩ => ⟨hl, hp, h1, h2⟩, fun ⟨hl, hp, h1, h2⟩ => ⟨⟨hl, hp⟩, h1, h2⟩⟩

/-! ## Rows -/

@[simp] theorem length_mergeRow (p : ClassPool) (as bs : List RegType) :
    (mergeRow p as bs).length = as.length := by
  fun_induction mergeRow p as bs with
  | case1 => rfl
  | case2 => rfl
  | case3 a as b bs ih => simp [ih]

private theorem mergeRow_all (hmerge : ∀ {a b : RegType}, Q a → Q' b → Q (a.merge p b))
    (as bs : List RegType) (ha : ∀ t ∈ as, Q t) (hb : ∀ t ∈ bs, Q' t) :
    ∀ t ∈ mergeRow p as bs, Q t := by
  fun_induction mergeRow p as bs with
  | case1 => simp
  | case2 => exact ha
  | case3 a as b bs ih =>
    simp only [List.mem_cons, forall_eq_or_imp] at ha hb ⊢
    exact ⟨hmerge ha.1 hb.1, ih ha.2 hb.2⟩

/-- In rows of the same length no type stays without a partner to merge with. -/
private theorem mergeRow_all_right (hmerge : ∀ {a b : RegType}, Q b → Q (a.merge p b))
    (as bs : List RegType) (hlength : as.length = bs.length) (hb : ∀ t ∈ bs, Q t) :
    ∀ t ∈ mergeRow p as bs, Q t := by
  fun_induction mergeRow p as bs with
  | case1 => simp
  | case2 row hne => cases row <;> simp_all
  | case3 a as b bs ih =>
    simp only [List.mem_cons, forall_eq_or_imp] at hb ⊢
    exact ⟨hmerge hb.1, ih (by simpa using hlength) hb.2⟩

private theorem mergeRow_self (p : ClassPool) (as : List RegType) : mergeRow p as as = as := by
  induction as with
  | nil => rfl
  | cons a as ih => simp [mergeRow, RegType.merge, ih]

private theorem mergeRow_mergeRow_right (hp : p.Regular) (as bs : List RegType) :
    mergeRow p (mergeRow p as bs) bs = mergeRow p as bs := by
  fun_induction mergeRow p as bs with
  | case1 => rfl
  | case2 row hne => cases row <;> rfl
  | case3 a as b bs ih => simp only [mergeRow, RegType.merge_merge_right hp, ih]

private theorem mergeRow_absorbs (hp : p.Regular) (as bs cs : List RegType)
    (hb : ∀ t ∈ bs, t.Ordered)
    (h : mergeRow p as bs = as) : mergeRow p (mergeRow p as cs) bs = mergeRow p as cs := by
  -- along the row that comes in later; where it ends, nothing has changed
  fun_induction mergeRow p as cs generalizing bs with
  | case1 => exact h
  | case2 => exact h
  | case3 a as c cs ih =>
    cases bs with
    | nil => rfl
    | cons b bs =>
      simp only [List.mem_cons, forall_eq_or_imp] at hb
      simp only [mergeRow, List.cons.injEq] at h ⊢
      exact ⟨RegType.merge_absorbs hp hb.1 h.1 c, ih bs hb.2 h.2⟩

/-! ## Frames -/

theorem All.merge (hmerge : ∀ {a b : RegType}, Q a → Q' b → Q (a.merge p b)) (hf : f.All Q)
    (hg : g.All Q') : (f.merge p g).All Q := by
  rw [all_iff] at hf hg ⊢
  exact ⟨mergeRow_all hmerge _ _ hf.1 hg.1, mergeRow_all hmerge _ _ hf.2.1 hg.2.1,
    hmerge hf.2.2.1 hg.2.2.1, hmerge hf.2.2.2 hg.2.2.2⟩

theorem All.merge_right (hmerge : ∀ {a b : RegType}, Q b → Q (a.merge p b))
    (hshape : f.shape = g.shape) (hg : g.All Q) : (f.merge p g).All Q := by
  obtain ⟨hlocals, hparams⟩ := Prod.mk.inj hshape
  rw [all_iff] at hg ⊢
  exact ⟨mergeRow_all_right hmerge _ _ hlocals hg.1, mergeRow_all_right hmerge _ _ hparams hg.2.1,
    hmerge hg.2.2.1, hmerge hg.2.2.2⟩

theorem shape_merge (p : ClassPool) (f g : Frame) : (f.merge p g).shape = f.shape := by
  simp [shape, merge]

theorem All.put {t : RegType} (reg : Nat) (hf : f.All Q) (ht : Q t) : (f.put reg t).All Q := by
  have hset : ∀ (row : List RegType) (n : Nat), (∀ u ∈ row, Q u) → ∀ u ∈ row.set n t, Q u := by
    intro row n hrow u hu
    rcases List.mem_or_eq_of_mem_set hu with hu | rfl
    · exact hrow u hu
    · exact ht
  rw [all_iff] at hf
  unfold Frame.put
  split
  · exact all_iff.2 ⟨hset _ _ hf.1, hf.2⟩
  · exact all_iff.2 ⟨hf.1, hset _ _ hf.2.1, hf.2.2⟩

theorem All.clearResult (hQ : Q .undefined) (hf : f.All Q) : f.clearResult.All Q := by
  rw [all_iff] at hf ⊢
  exact ⟨hf.1, hf.2.1, hQ, hQ⟩

/-- A frame absorbs another if its types do, register by register, and the other one promises no
    less about the receiver and the monitors. -/
theorem merge_eq_left_iff : f.merge p g = f ↔
    mergeRow p f.locals g.locals = f.locals ∧ mergeRow p f.params g.params = f.params ∧
      f.result.1.merge p g.result.1 = f.result.1 ∧ f.result.2.merge p g.result.2 = f.result.2 ∧
      (f.thisInitialized = true → g.thisInitialized = true) ∧
      (f.monitors = none ∨ f.monitors = g.monitors) := by
  have hthis : (f.thisInitialized && g.thisInitialized) = f.thisInitialized ↔
      (f.thisInitialized = true → g.thisInitialized = true) := by
    cases f.thisInitialized <;> simp
  have hmonitors : (if f.monitors = g.monitors then f.monitors else none) = f.monitors ↔
      (f.monitors = none ∨ f.monitors = g.monitors) := by
    by_cases hm : f.monitors = g.monitors
    · simp [hm]
    · simp [hm, eq_comm]
  rw [← hthis, ← hmonitors, merge, Frame.ext_iff, Prod.ext_iff, and_assoc]

/-- A frame absorbs itself. -/
theorem merge_self (p : ClassPool) (f : Frame) : f.merge p f = f :=
  merge_eq_left_iff.2 ⟨mergeRow_self p _, mergeRow_self p _, by simp [RegType.merge],
    by simp [RegType.merge], id, .inr rfl⟩

/-- The number of monitors held in a merged frame is unknown or that of both. -/
private theorem monitors_merge (p : ClassPool) (f g : Frame) :
    (f.merge p g).monitors = none ∨
      (f.merge p g).monitors = f.monitors ∧ f.monitors = g.monitors := by
  by_cases hm : f.monitors = g.monitors
  · exact .inr ⟨if_pos hm, hm⟩
  · exact .inl (if_neg hm)

/-- A frame that has just been merged is absorbed. -/
theorem merge_merge_right (hp : p.Regular) (f g : Frame) :
    (f.merge p g).merge p g = f.merge p g := by
  refine merge_eq_left_iff.2 ⟨mergeRow_mergeRow_right hp _ _, mergeRow_mergeRow_right hp _ _,
    RegType.merge_merge_right hp _ _, RegType.merge_merge_right hp _ _, ?_, ?_⟩
  · exact fun hthis => (Bool.and_eq_true_iff.1 hthis).2
  · exact (monitors_merge p f g).imp_right fun ⟨hmerged, heq⟩ => hmerged.trans heq

/-- What a frame has absorbed it still absorbs after any further merge. -/
theorem merge_absorbs (hp : p.Regular) (hg : g.All RegType.Ordered) (habs : f.merge p g = f)
    (h : Frame) : (f.merge p h).merge p g = f.merge p h := by
  rw [all_iff] at hg
  obtain ⟨hlocals, hparams, hlow, hhigh, hthis, hmonitors⟩ := merge_eq_left_iff.1 habs
  refine merge_eq_left_iff.2 ⟨mergeRow_absorbs hp _ _ _ hg.1 hlocals,
    mergeRow_absorbs hp _ _ _ hg.2.1 hparams, RegType.merge_absorbs hp hg.2.2.1 hlow _,
    RegType.merge_absorbs hp hg.2.2.2 hhigh _, ?_, ?_⟩
  · exact fun hmerged => hthis (Bool.and_eq_true_iff.1 hmerged).1
  · rcases monitors_merge p f h with hnone | ⟨heq, -⟩
    · exact .inl hnone
    · exact hmonitors.imp heq.trans heq.trans

end Frame

end BytecodeVerifier
