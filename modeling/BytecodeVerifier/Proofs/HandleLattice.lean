import BytecodeVerifier.Proofs.TableHistory
import Mathlib.Data.List.Forall2

/-!
# Types by their handles

The operations on handles do what the operations on types do. `Lookup.Gives` says so of one of them:
whatever the history of the table, the work ends with a value that the table, as it is then, reads
as the value expected. The work may have issued handles, but it has changed none.
-/

/-! ## Rows of related values -/

namespace List

variable {α β : Type} {R : α → β → Prop} {as : List α} {bs : List β}

theorem Forall₂.getElem? (h : Forall₂ R as bs) (i : Nat) : Option.Rel R as[i]? bs[i]? := by
  induction h generalizing i with
  | nil => exact .none
  | cons hab _ ih =>
    cases i with
    | zero => exact .some hab
    | succ i => exact ih i

theorem Forall₂.modify {f : α → α} {g : β → β} (h : Forall₂ R as bs) (i : Nat)
    (hfg : ∀ a b, R a b → R (f a) (g b)) : Forall₂ R (as.modify i f) (bs.modify i g) := by
  induction h generalizing i with
  | nil =>
    rw [modify_nil, modify_nil]
    exact .nil
  | cons hab hrest ih =>
    cases i with
    | zero => exact .cons (hfg _ _ hab) hrest
    | succ i => exact .cons hab (ih i)

theorem Forall₂.set {a : α} {b : β} (h : Forall₂ R as bs) (i : Nat) (hab : R a b) :
    Forall₂ R (as.set i a) (bs.set i b) := by
  rw [set_eq_modify, set_eq_modify]
  exact h.modify i fun _ _ _ => hab

theorem forall₂_replicate {a : α} {b : β} (n : Nat) (hab : R a b) :
    Forall₂ R (replicate n a) (replicate n b) := by
  induction n with
  | zero => exact .nil
  | succ n ih => exact .cons hab ih

end List

namespace BytecodeVerifier

open TypeTable (Extends Reachable Denotes)

/-- How a value made of handles stands for one made of types. -/
class Related (α β : Type) where
  /-- The table reads `a` as `b`. -/
  Reads : TypeTable → α → β → Prop
  /-- What a table reads it goes on to read the same way. -/
  mono {t t' : TypeTable} {a : α} {b : β} : t.Extends t' → Reads t a b → Reads t' a b

open Related (Reads)

instance : Related Handle RegType where
  Reads := Denotes
  mono ht hx := hx.mono ht

instance {α β : Type} [Related α β] : Related (Option α) (Option β) where
  Reads t := Option.Rel (Reads t)
  mono ht h := by
    cases h with
    | some h => exact .some (Related.mono ht h)
    | none => exact .none

instance {α β : Type} [Related α β] : Related (List α) (List β) where
  Reads t := List.Forall₂ (Reads t)
  mono ht h := h.imp fun _ _ => Related.mono ht

/-- Errors are the same. -/
inductive ExceptReads {ε α β : Type} [Related α β] (t : TypeTable) : Except ε α → Except ε β → Prop
  | ok {a : α} {b : β} : Reads t a b → ExceptReads t (.ok a) (.ok b)
  | error (e : ε) : ExceptReads t (.error e) (.error e)

instance {ε α β : Type} [Related α β] : Related (Except ε α) (Except ε β) where
  Reads := ExceptReads
  mono ht h := by
    cases h with
    | ok h => exact .ok (Related.mono ht h)
    | error e => exact .error e

theorem ExceptReads.bind {ε α β γ δ : Type} [Related α β] [Related γ δ] {t : TypeTable}
    {r : Except ε α} {s : Except ε β} {k : α → Except ε γ} {l : β → Except ε δ}
    (hr : ExceptReads t r s) (hkl : ∀ a b, Reads t a b → ExceptReads t (k a) (l b)) :
    ExceptReads t (r >>= k) (s >>= l) := by
  cases hr with
  | ok h => exact hkl _ _ h
  | error e => exact .error e

namespace Lookup

variable {α β γ δ : Type} [Related α β] [Related γ δ] {t : TypeTable} {h h' : Handle}
  {x y : RegType} {p : ClassPool}

/-- The work gives what the table then reads as `b`. -/
def Gives (t : TypeTable) (w : Lookup α) (b : β) : Prop :=
  t.Reachable → (w t).2.Reachable ∧ t.Extends (w t).2 ∧ Reads (w t).2 (w t).1 b

theorem gives_pure {a : α} {b : β} (h : t.Reachable → Reads t a b) : Gives t (pure a) b :=
  fun ht => ⟨ht, .refl t, h ht⟩

theorem Gives.bind {w : Lookup α} {k : α → Lookup γ} {b : β} {d : δ} (hw : Gives t w b)
    (hk : ∀ t' a, t.Extends t' → Reads t' a b → Gives t' (k a) d) : Gives t (w >>= k) d := by
  intro ht
  obtain ⟨ht₁, hext₁, hread₁⟩ := hw ht
  obtain ⟨ht₂, hext₂, hread₂⟩ := hk _ _ hext₁ hread₁ ht₁
  exact ⟨ht₂, hext₁.trans hext₂, hread₂⟩

theorem gives_ite {c d : Prop} [Decidable c] [Decidable d] {w w' : Lookup α} {b b' : β}
    (hcd : t.Reachable → (c ↔ d)) (hw : Gives t w b) (hw' : Gives t w' b') :
    Gives t (if c then w else w') (if d then b else b') := by
  intro ht
  by_cases hc : c
  · rw [if_pos hc, if_pos ((hcd ht).1 hc)]
    exact hw ht
  · rw [if_neg hc, if_neg fun hd => hc ((hcd ht).2 hd)]
    exact hw' ht

/-- Work goes on where the work before it ends. -/
theorem bind_run {α γ : Type} {t' : TypeTable} {w : Lookup α} {a : α} (hw : w t = (a, t'))
    (k : α → Lookup γ) : (w >>= k) t = k a t' := by
  show (match w t with | (a, s) => k a s) = k a t'
  rw [hw]

/-- A type is looked up without changing the table. -/
theorem type_run (hx : t.Denotes h x) : type h t = (x, t) := by
  show (t.type h.index, t) = (x, t)
  rw [hx.type_eq]

theorem gives_type_bind {k : RegType → Lookup γ} {d : δ} (hx : t.Denotes h x)
    (hk : Gives t (k x) d) : Gives t (type h >>= k) d := by
  intro ht
  rw [bind_run (type_run hx)]
  exact hk ht

/-- Work in the middle of work that may fail. -/
theorem run_liftM_bind {ε α γ : Type} (w : Lookup α) (k : α → ExceptT ε Lookup γ) :
    (liftM w >>= k).run = w >>= fun a => (k a).run := by
  rfl

theorem gives_run_bind {ε : Type} {w : ExceptT ε Lookup α} {k : α → ExceptT ε Lookup γ}
    {v : Except ε β} {l : β → Except ε δ} (hw : Gives t w.run v)
    (hk : ∀ t' a b, t.Extends t' → Reads t' a b → Gives t' (k a).run (l b)) :
    Gives t (w >>= k).run (v >>= l) := by
  show Gives t (w.run >>= ExceptT.bindCont k) (v >>= l)
  apply hw.bind
  intro t' r hext hr
  cases hr with
  | ok hab => exact hk t' _ _ hext hab
  | error e => exact gives_pure fun _ => .error e

theorem gives_intern (hx : x.isNamed = true) : Gives t (intern x) x :=
  fun ht => ⟨ht.intern x, t.extends_intern x, t.denotes_intern hx⟩

theorem gives_fixed (hx : x ∈ TypeTable.fixedTypes) : Gives t (pure (Handle.fixed x)) x :=
  gives_pure fun ht => TypeTable.denotes_fixed ht hx

/-! ## References -/

theorem gives_ofReference (p : ClassPool) (d : Descriptor) (precise : Bool) :
    Gives t (ofReference p d precise) (RegType.ofReference p d precise) := by
  unfold ofReference RegType.ofReference
  split
  · exact gives_fixed (by simp [TypeTable.fixedTypes])
  split
  · exact gives_intern rfl
  · exact gives_intern rfl

theorem ofPrimitive_mem_fixedTypes (k : Primitive) :
    RegType.ofPrimitive k ∈ TypeTable.fixedTypes := by
  cases k <;> simp [RegType.ofPrimitive, TypeTable.fixedTypes]

theorem gives_ofDescriptor (p : ClassPool) (d : Descriptor) (precise : Bool) :
    Gives t (ofDescriptor p d precise) (RegType.ofDescriptor p d precise) := by
  unfold ofDescriptor RegType.ofDescriptor
  cases d.kind? with
  | none => exact gives_fixed (by simp [TypeTable.fixedTypes])
  | some k =>
    cases k with
    | void => exact gives_fixed (by simp [TypeTable.fixedTypes])
    | primitive k => exact gives_fixed (ofPrimitive_mem_fixedTypes k)
    | classType | arrayType => exact gives_ofReference p d precise

theorem gives_highHalf? (hx : t.Denotes h x) : Gives t (highHalf? h) x.highHalf? := by
  unfold highHalf?
  apply gives_type_bind hx
  cases x with
  | low k =>
    apply Gives.bind (gives_intern (x := .high k) rfl)
    intro t' hi _ hhi
    exact gives_pure fun _ => .some hhi
  | _ => exact gives_pure fun _ => .none

/-- A class that the type names is known by its descriptor. -/
private theorem isNamed_of_className? {c : ClassName} {x y : RegType} (hx : x.isNamed = true)
    (hc : x.className? = some c) (hy : y.className? = some c) : y.isNamed = true := by
  obtain ⟨d, rfl⟩ := RegType.exists_named_of_isNamed hx hc
  cases y <;> simp_all [RegType.isNamed, RegType.className?, ClassName.descriptor?]

theorem gives_asUninitialized (hx : t.Denotes h x) (allocation : Nat) :
    Gives t (asUninitialized h allocation) (x.asUninitialized allocation) := by
  unfold asUninitialized
  apply gives_type_bind hx
  cases x with
  | reference c precise => exact gives_intern (isNamed_of_className? hx.2 rfl rfl)
  | unresolved c => exact gives_intern (isNamed_of_className? hx.2 rfl rfl)
  | _ => exact gives_fixed (by simp [TypeTable.fixedTypes])

theorem gives_asUninitializedThis (hx : t.Denotes h x) :
    Gives t (asUninitializedThis h) x.asUninitializedThis := by
  unfold asUninitializedThis
  apply gives_type_bind hx
  cases x with
  | reference c precise => exact gives_intern (isNamed_of_className? hx.2 rfl rfl)
  | unresolved c => exact gives_intern (isNamed_of_className? hx.2 rfl rfl)
  | _ => exact gives_fixed (by simp [TypeTable.fixedTypes])

theorem gives_initialized (p : ClassPool) (hx : t.Denotes h x) :
    Gives t (initialized p h) (x.initialized p) := by
  unfold initialized
  apply gives_type_bind hx
  cases x with
  | uninitialized c allocation =>
    cases c with
    | named d => exact gives_ofReference p d true
    | unissued n => exact gives_fixed (by simp [TypeTable.fixedTypes])
  | uninitializedThis c =>
    cases c with
    | named d => exact gives_ofReference p d false
    | unissued n => exact gives_fixed (by simp [TypeTable.fixedTypes])
  | _ => exact gives_fixed (by simp [TypeTable.fixedTypes])

theorem gives_component (p : ClassPool) (hx : t.Denotes h x) :
    Gives t (component p h) (x.component p) := by
  unfold component
  apply gives_type_bind hx
  cases x with
  | reference c precise | unresolved c =>
    cases c with
    | named d =>
      unfold RegType.component
      dsimp only
      cases d.component? with
      | some c => exact gives_ofDescriptor p c false
      | none => exact gives_fixed (by simp [TypeTable.fixedTypes])
    | unissued n => exact gives_fixed (by simp [TypeTable.fixedTypes])
  | _ => exact gives_fixed (by simp [TypeTable.fixedTypes])

/-! ## Merging -/

/-- To enter what a handle stands for gives the handle. -/
theorem intern_type_run (ht : t.Reachable) (h : Handle) : intern (t.type h.index) t = (h, t) := by
  show ((⟨(t.intern _).1⟩ : Handle), (t.intern _).2) = (h, t)
  rw [ht.valid.intern_type]

theorem intern_fixed_run (ht : t.Reachable) (hx : x.isFixed = true) :
    intern x t = (.fixed x, t) := by
  have hmem : x ∈ TypeTable.fixedTypes := by
    cases x with
    | low k | high k => cases k <;> simp [TypeTable.fixedTypes]
    | _ => simp_all [TypeTable.fixedTypes, RegType.isFixed]
  have hrun := intern_type_run ht (.fixed x)
  rwa [(TypeTable.denotes_fixed ht hmem).type_eq] at hrun

private theorem mergeReferences_run (p : ClassPool) (ht : t.Reachable)
    (hx : t.type h.index = x) (hy : t.type h'.index = y) :
    mergeReferences p h h' x y t = intern (RegType.mergeReferences p x y) t := by
  unfold mergeReferences RegType.mergeReferences
  split
  · exact (intern_fixed_run ht rfl).symm
  split
  · exact hy ▸ (intern_type_run ht h').symm
  split
  · exact hx ▸ (intern_type_run ht h).symm
  split
  · rfl
  split
  · exact (intern_fixed_run ht rfl).symm
  cases x.descriptor? with
  | none => exact (intern_fixed_run ht rfl).symm
  | some dx =>
    cases y.descriptor? with
    | none => exact (intern_fixed_run ht rfl).symm
    | some dy => rfl

private theorem mergeWritten_run (p : ClassPool) (ht : t.Reachable) (hx : t.type h.index = x)
    (hy : t.type h'.index = y) :
    mergeWritten p h h' x y t = intern (RegType.mergeWritten p x y) t := by
  unfold mergeWritten RegType.mergeWritten
  split
  · exact (intern_fixed_run ht (RegType.isFixed_mergeIntegral x y)).symm
  repeat (split; exact (intern_fixed_run ht rfl).symm)
  split
  · exact mergeReferences_run p ht hx hy
  · exact (intern_fixed_run ht rfl).symm

/-- To merge two handles is to enter the merge of what they stand for. -/
theorem merge_run (p : ClassPool) (ht : t.Reachable) (h h' : Handle) :
    merge p h h' t = intern ((t.type h.index).merge p (t.type h'.index)) t := by
  unfold merge RegType.merge
  by_cases hsame : h = h'
  · rw [if_pos hsame, if_pos (congrArg (t.type ·.index) hsame)]
    exact (intern_type_run ht h).symm
  · rw [if_neg hsame, if_neg fun htype => hsame (ht.eq_of_type_eq htype)]
    show (if _ then pure (Handle.fixed .conflict) else _ : Lookup Handle) t = _
    split
    · exact (intern_fixed_run ht rfl).symm
    · have hwritten := mergeWritten_run p ht (rfl : t.type h.index = _)
        (rfl : t.type h'.index = _)
      cases (t.type h.index).range? with
      | none => exact hwritten
      | some r =>
        cases (t.type h'.index).range? with
        | none => exact hwritten
        | some r' => rfl

/-- The merge of two types that a table reads has no handle number left that stands for
    something. -/
private theorem resolve_merge (p : ClassPool) (ht : t.Reachable) (i j : Nat) :
    t.resolve ((t.type i).merge p (t.type j)) = (t.type i).merge p (t.type j) := by
  have hmerged := RegType.merged_merge p (t.type i) (t.type j)
  generalize (t.type i).merge p (t.type j) = z at hmerged
  cases hmerged with
  | left => exact ht.valid.resolve_type i
  | right => exact ht.valid.resolve_type j
  | fixed hz => exact TypeTable.resolve_of_isNamed (RegType.isNamed_of_isFixed hz)
  | constant | object | join => exact TypeTable.resolve_of_isNamed rfl

section Merge

variable {m : Handle} {t' : TypeTable} (ht : t.Reachable) (hm : merge p h h' t = (m, t'))

include ht hm

private theorem intern_merge :
    intern ((t.type h.index).merge p (t.type h'.index)) t = (m, t') := by
  rw [← merge_run p ht, hm]

theorem reachable_merge : t'.Reachable := by
  obtain ⟨-, rfl⟩ := Prod.mk.inj (intern_merge ht hm).symm
  exact ht.intern _

/-- The handle that a merge gives stands for the merge. -/
theorem type_merge : t'.type m.index = (t.type h.index).merge p (t.type h'.index) := by
  obtain ⟨rfl, rfl⟩ := Prod.mk.inj (intern_merge ht hm).symm
  exact TypeTable.type_intern (resolve_merge p ht _ _)

/-- What becomes of any handle in a merge. -/
theorem becomes_merge (i : Nat) : TypeTable.Becomes ((t.type h.index).merge p (t.type h'.index))
    (t.type i) (t'.type i) := by
  obtain ⟨-, rfl⟩ := Prod.mk.inj (intern_merge ht hm).symm
  exact TypeTable.becomes_intern ht (resolve_merge p ht _ _) i

/-- The handles that are merged go on to stand for the same types, even if they have not been
    issued: to merge such a one with another gives a conflict, for which no handle is issued. -/
private theorem type_merge_of_mem {i : Nat} (hi : i = h.index ∨ i = h'.index) :
    t'.type i = t.type i := by
  have hrun := intern_merge ht hm
  have hbecomes := becomes_merge ht hm i
  have hresolve := resolve_merge p ht h.index h'.index
  have hmerged := RegType.merged_merge p (t.type h.index) (t.type h'.index)
  generalize (t.type h.index).merge p (t.type h'.index) = z at hrun hbecomes hresolve hmerged
  cases hmerged with
  -- nothing is entered
  | left | right =>
    rw [intern_type_run ht] at hrun
    rw [(Prod.mk.inj hrun).2]
  | fixed hz =>
    rw [intern_fixed_run ht hz] at hrun
    rw [(Prod.mk.inj hrun).2]
  -- both handles stand for types that do not change any more
  | constant hx hy | join hx hy =>
    apply hbecomes.eq_of_isNamed
    rcases hi with rfl | rfl
    · rw [hx]
      rfl
    · rw [hy]
      rfl
  -- both handles have been issued, and no class gets one now
  | object hx hy =>
    have hissued : ∀ {x : RegType}, x.isInitialized = true → x.isHandle = false := by
      intro x hx
      cases x <;> first | rfl | simp [RegType.isInitialized, RegType.isReference,
        RegType.isZero, RegType.range?, RegType.isNonNullReference] at hx
    obtain ⟨-, rfl⟩ := Prod.mk.inj hrun.symm
    apply TypeTable.type_intern_of_mem_classes hresolve
    · intro d hd
      cases hd
      exact ht.object_mem_classes
    · rcases hi with rfl | rfl
      · exact hissued hx
      · exact hissued hy

theorem type_merge_left : t'.type h.index = t.type h.index :=
  type_merge_of_mem ht hm (.inl rfl)

theorem type_merge_right : t'.type h'.index = t.type h'.index :=
  type_merge_of_mem ht hm (.inr rfl)

end Merge

theorem gives_merge (p : ClassPool) (hx : t.Denotes h x) (hy : t.Denotes h' y) :
    Gives t (merge p h h') (x.merge p y) := by
  intro ht
  rw [merge_run p ht, hx.type_eq, hy.type_eq]
  exact gives_intern ((RegType.stable_isNamed p).merge hx.2 hy.2) ht

/-- Two handles are compared as what they stand for. -/
theorem isAssignable_run (p : ClassPool) (h h' : Handle) (t : TypeTable) :
    isAssignable p h h' t = ((t.type h.index).isAssignable p (t.type h'.index), t) := by
  unfold isAssignable
  by_cases hsame : h = h'
  · have hself : (t.type h'.index).isAssignable p (t.type h'.index) = true := by
      simp [RegType.isAssignable]
    rw [if_pos hsame, hsame, hself]
    rfl
  · rw [if_neg hsame]
    rfl

end Lookup

end BytecodeVerifier
