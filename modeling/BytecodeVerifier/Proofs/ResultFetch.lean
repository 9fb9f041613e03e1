import BytecodeVerifier.Proofs.Bookkeeping

/-!
# Fetching the result of a call

In a verified method a value left behind is fetched right behind the operation that has left it:
on every path to a `move-result`, the last operation is a call that returns a value or a filled new
array, execution has gone on behind it, and its value has the form that is asked for
(`Method.verify_fetches_result`). Labels in between do not count.

The argument is about the form of the value left behind. Where two paths meet, it has a form only if
it has that form on both, and a path on which another operation comes last brings along none.
-/

namespace BytecodeVerifier

/-- A value of type `d` has the form. -/
def ValueForm.suits : ValueForm → Descriptor → Bool
  | .single, d => d.isPrimitive && !d.isWide
  | .wide, d => d.isWide
  | .object, d => d.isReference

/-- The last instruction of the path that is no label is the one at position `i`, and the path has
    left it in the way `k`. -/
def Body.LastLeft (b : Body) (steps : List (Nat × EdgeKind)) (i : Nat) (k : EdgeKind) : Prop :=
  ∃ before labels, steps = before ++ (i, k) :: labels ∧ (∀ l, ¬b.Marks i l) ∧
    ∀ step ∈ labels, ∃ l, b.Marks step.1 l

/-! ## Forms -/

section Forms

variable {p : ClassPool} {d : Descriptor} {precise : Bool} {a b t : RegType}
  {form form' : ValueForm}

/-- What is no constant has at most one form. -/
private theorem ValueForm.eq_of_admits (ht : t.isConstant = false) (h : form.admits t = true)
    (h' : form'.admits t = true) : form = form' := by
  cases t <;> cases form <;> cases form' <;> first
    | rfl
    | exact absurd h Bool.false_ne_true
    | exact absurd h' Bool.false_ne_true
    | exact absurd ht.symm Bool.false_ne_true

private theorem ValueForm.admits_conflict (form : ValueForm) : form.admits .conflict = false := by
  cases form <;> rfl

private theorem ValueForm.admits_undefined (form : ValueForm) : form.admits .undefined = false := by
  cases form <;> rfl

namespace RegType

private theorem isSingle_of_fitsInt (h : t.fitsInt = true) : t.isSingle = true := by
  cases t <;> first | rfl | exact absurd h Bool.false_ne_true

private theorem isSingle_of_fitsFloat (h : t.fitsFloat = true) : t.isSingle = true := by
  cases t <;> first | rfl | exact absurd h Bool.false_ne_true

private theorem isLowHalf_of_fitsLongLow (h : t.fitsLongLow = true) : t.isLowHalf = true := by
  cases t <;> first | rfl | simp [fitsLongLow] at h

private theorem isLowHalf_of_fitsDoubleLow (h : t.fitsDoubleLow = true) : t.isLowHalf = true := by
  cases t <;> first | rfl | simp [fitsDoubleLow] at h

private theorem isZero_eq_false (h : t.isConstant = false) : t.isZero = false := by
  cases t <;> first | rfl | exact absurd h.symm Bool.false_ne_true

private theorem mergeIntegral_form (a b : RegType) : (mergeIntegral a b).isSingle = true ∧
    (mergeIntegral a b).isConstant = false := by
  unfold mergeIntegral
  repeat' split
  all_goals exact ⟨rfl, rfl⟩

private theorem mergeReferences_form (ha : a.isConstant = false) (hb : b.isConstant = false) :
    mergeReferences p a b = .conflict ∨ (mergeReferences p a b).isReference = true ∧
      (mergeReferences p a b).isConstant = false := by
  unfold mergeReferences
  rw [isZero_eq_false ha, isZero_eq_false hb]
  split
  · exact .inl rfl
  rw [if_neg Bool.false_ne_true, if_neg Bool.false_ne_true]
  split
  · exact .inr ⟨rfl, rfl⟩
  split
  · exact .inr ⟨rfl, rfl⟩
  split
  · exact .inr ⟨rfl, rfl⟩
  · exact .inl rfl

/-- What is merged from types that are no constants: the two are the same, or they have a form in
    common that the merge keeps, or the merge has no form. -/
private theorem merge_form (ha : a.isConstant = false) (hb : b.isConstant = false) :
    a = b ∧ a.merge p b = a ∨ (a.merge p b).isConstant = false ∧
      ((∃ form : ValueForm, form.admits a = true ∧ form.admits b = true ∧
          form.admits (a.merge p b) = true) ∨
        ∀ form : ValueForm, form.admits (a.merge p b) = false) := by
  have hranges : a.range? = none ∧ b.range? = none := by simpa [isConstant] using And.intro ha hb
  unfold merge
  split
  · exact .inl ⟨‹_›, rfl⟩
  refine .inr ?_
  split
  · exact ⟨rfl, .inr ValueForm.admits_conflict⟩
  simp only [hranges.1]
  unfold mergeWritten
  have hhigh (k : WideKind) : ∀ form : ValueForm, form.admits (.high k) = false := by
    intro form
    cases form <;> rfl
  split
  · rename_i hfits
    rw [Bool.and_eq_true] at hfits
    obtain ⟨hsingle, hconstant⟩ := mergeIntegral_form a b
    exact ⟨hconstant, .inl ⟨.single, isSingle_of_fitsInt hfits.1, isSingle_of_fitsInt hfits.2,
      hsingle⟩⟩
  split
  · rename_i hfits
    rw [Bool.and_eq_true] at hfits
    exact ⟨rfl, .inl ⟨.single, isSingle_of_fitsFloat hfits.1, isSingle_of_fitsFloat hfits.2, rfl⟩⟩
  split
  · rename_i hfits
    rw [Bool.and_eq_true] at hfits
    exact ⟨rfl, .inl ⟨.wide, isLowHalf_of_fitsLongLow hfits.1, isLowHalf_of_fitsLongLow hfits.2,
      rfl⟩⟩
  split
  · exact ⟨rfl, .inr (hhigh .long)⟩
  split
  · rename_i hfits
    rw [Bool.and_eq_true] at hfits
    exact ⟨rfl, .inl ⟨.wide, isLowHalf_of_fitsDoubleLow hfits.1, isLowHalf_of_fitsDoubleLow hfits.2,
      rfl⟩⟩
  split
  · exact ⟨rfl, .inr (hhigh .double)⟩
  split
  · rename_i href
    rw [Bool.and_eq_true] at href
    rcases mergeReferences_form (p := p) ha hb with hconflict | ⟨hreference, hconstant⟩
    · rw [hconflict]
      exact ⟨rfl, .inr ValueForm.admits_conflict⟩
    · exact ⟨hconstant, .inl ⟨.object, href.1, href.2, hreference⟩⟩
  · exact ⟨rfl, .inr ValueForm.admits_conflict⟩

private theorem isConstant_merge (ha : a.isConstant = false) (hb : b.isConstant = false) :
    (a.merge p b).isConstant = false := by
  rcases merge_form (p := p) ha hb with ⟨-, hmerge⟩ | ⟨hconstant, -⟩
  · rw [hmerge, ha]
  · exact hconstant

/-- What is merged is of a form only if both types are. -/
private theorem admits_of_merge (ha : a.isConstant = false) (hb : b.isConstant = false)
    (h : form.admits (a.merge p b) = true) : form.admits a = true ∧ form.admits b = true := by
  rcases merge_form (p := p) ha hb with ⟨rfl, hmerge⟩ | ⟨hconstant, ⟨form', ha', hb', h'⟩ | hnone⟩
  · rw [hmerge] at h
    exact ⟨h, h⟩
  · obtain rfl := ValueForm.eq_of_admits hconstant h h'
    exact ⟨ha', hb'⟩
  · exact absurd ((hnone form).symm.trans h) Bool.false_ne_true

/-- A declared type is none of a constant, and has the form of its values. -/
private theorem ofDescriptor_form (p : ClassPool) (d : Descriptor) (precise : Bool) :
    (ofDescriptor p d precise).isConstant = false ∧
      ∀ form : ValueForm, form.admits (ofDescriptor p d precise) = true → form.suits d = true := by
  have hconflict : conflict.isConstant = false ∧
      ∀ form : ValueForm, form.admits conflict = true → form.suits d = true := by
    refine ⟨rfl, fun form h => ?_⟩
    rw [form.admits_conflict] at h
    exact absurd h Bool.false_ne_true
  have hreference : d.isReference = true → (ofReference p d precise).isConstant = false ∧
      ∀ form : ValueForm, form.admits (ofReference p d precise) = true → form.suits d = true := by
    intro hd
    unfold ofReference
    rw [hd]
    split
    · exact hconflict
    split
    all_goals
      refine ⟨rfl, fun form h => ?_⟩
      cases form with
      | object => exact hd
      | single | wide => exact absurd h Bool.false_ne_true
  unfold ofDescriptor
  cases hkind : d.kind? with
  | none => exact hconflict
  | some kind =>
    cases kind with
    | void => exact hconflict
    | primitive t =>
      refine ⟨by cases t <;> rfl, fun form h => ?_⟩
      cases t <;> cases form <;> first
        | exact absurd h Bool.false_ne_true
        | simp [ValueForm.suits, Descriptor.isPrimitive, Descriptor.isWide, hkind,
            Primitive.isWide]
    | classType | arrayType =>
      exact hreference (by simp [Descriptor.isReference, hkind, DescriptorKind.isReference])

end RegType

end Forms

/-! ## Paths -/

namespace Body

variable {b : Body} {steps : List (Nat × EdgeKind)} {i j : Nat} {k : EdgeKind}

theorem lastLeft_append (h : ∀ l, ¬b.Marks i l) : b.LastLeft (steps ++ [(i, k)]) i k :=
  ⟨steps, [], rfl, h, by simp⟩

theorem LastLeft.append_label {l : Label} {k' : EdgeKind} (h : b.LastLeft steps i k)
    (hl : b.Marks j l) : b.LastLeft (steps ++ [(j, k')]) i k := by
  obtain ⟨before, labels, rfl, hi, hlabels⟩ := h
  refine ⟨before, labels ++ [(j, k')], by simp, hi, fun step hstep => ?_⟩
  rcases List.mem_append.1 hstep with hstep | hstep
  · exact hlabels step hstep
  · exact ⟨l, List.mem_singleton.1 hstep ▸ hl⟩

/-- The last operation of the path has left a value of the form behind, and execution has gone on
    behind it. -/
def Supplies (b : Body) (steps : List (Nat × EdgeKind)) (form : ValueForm) : Prop :=
  ∃ i o d, b.LastLeft steps i .next ∧ b.operation? i = some o ∧ o.produced? = some d ∧
    form.suits d = true

end Body

/-- An operation that leaves a value behind does not branch. -/
private theorem Operation.targets_of_produced? {o : Operation} {d : Descriptor}
    (h : o.produced? = some d) : o.targets = [] := by
  cases o with
  | invoke | filledNewArray => rfl
  | _ => simp [produced?] at h

namespace Task

variable {task : Task} {b : Body} {steps : List (Nat × EdgeKind)} {i j : Nat} {k : EdgeKind}
  {f g : Frame} {form : ValueForm}

/-- The value left behind is never known to be a constant. Where a frame has one of some form, so
    has every frame that it takes in. -/
private theorem domain_result (task : Task) : task.Domain
    (fun f => f.result.1.isConstant = false)
    (fun e x => ∀ form : ValueForm, form.admits e.result.1 = true →
      form.admits x.result.1 = true) where
  clearResult _ := rfl
  after {i f g} hf hg := by
    cases ho : task.operation? i with
    | none =>
      rw [after, ho] at hg
      cases hg
      exact hf
    | some o =>
      rcases after_result ho hg with ⟨d, precise, -, hresult⟩ | hresult
      · rw [hresult]
        exact (RegType.ofDescriptor_form task.env.pool d precise).1
      · rw [hresult]
        rfl
  merge hf hg := RegType.isConstant_merge hf hg
  refl _ _ := id
  right hf hg _ h := (RegType.admits_of_merge hf hg h).2
  left hf hg _ hR form h := hR form (RegType.admits_of_merge hf hg h).1

/-- Where a step brings along a value of some form, the path has just been supplied with it. -/
private theorem Models.supplies_of_step (hm : task.Models b)
    (ih : ∀ form : ValueForm, form.admits f.result.1 = true → b.Supplies steps form)
    (hg : task.after i f = .ok g) (hedge : b.Edge i k j)
    (h : form.admits (k.carries f g).result.1 = true) : b.Supplies (steps ++ [(i, k)]) form := by
  have hundefined : form.admits .undefined ≠ true := by simp [form.admits_undefined]
  cases ho : task.operation? i with
  | none =>
    obtain ⟨l, hl⟩ : ∃ l, b.Marks i l := by
      refine hm.marks ?_ ho
      cases hedge with
      | next hins | branch hins | exception hins => exact (List.getElem?_eq_some_iff.1 hins).1
    obtain ⟨rfl, -⟩ := hl.eq_next hedge
    rw [after, ho] at hg
    cases hg
    obtain ⟨i', o, d, hlast, hrest⟩ := ih form h
    exact ⟨i', o, d, hlast.append_label hl, hrest⟩
  | some o =>
    obtain ⟨ins, hins, hspec⟩ := hm.instruction ho
    have hno : ∀ l, ¬b.Marks i l := by
      intro l hl
      cases hl.symm.trans hins
      simp [Operation.ofInstruction?] at hspec
    rcases after_result ho hg with ⟨d, precise, hproduced, hresult⟩ | hresult
    · refine ⟨i, o, d, ?_, (hm.operation i).symm.trans ho, hproduced, ?_⟩
      · cases hedge with
        | next => exact Body.lastLeft_append hno
        | branch hins' htarget =>
          cases hins.symm.trans hins'
          rw [(Operation.ofInstruction?_spec hspec).2, Operation.targets_of_produced? hproduced]
            at htarget
          exact absurd htarget List.not_mem_nil
        | exception => exact absurd h hundefined
      · cases k with
        | exception => exact absurd h hundefined
        | next | branch =>
          refine (RegType.ofDescriptor_form task.env.pool d precise).2 form ?_
          rw [← hresult]
          exact h
    · have hcarried : (k.carries f g).result.1 = .undefined := by
        cases k with
        | exception => rfl
        | next | branch => exact congrArg Prod.fst hresult
      rw [hcarried] at h
      exact absurd h hundefined

end Task

private theorem Operation.eq_moveResult {o : Operation} {form : ValueForm}
    (h : o.opcode = .moveResult form) : ∃ dst, o = .moveResult form dst := by
  unfold opcode at h
  split at h <;> cases h
  exact ⟨_, rfl⟩

variable {p : ClassPool} {config : Config} {m : Method} {v : VerifiedMethod}

/-- In a verified method, on every path to an instruction that fetches a value, the last operation
    is one that has left a value of that form behind. -/
theorem Method.verify_fetches_result (h : m.verify p config = .ok v) :
    m.body.normalize = .ok v.body ∧ ∀ steps i ins form, v.body.Path steps i →
      v.body.code[i]? = some ins → ins.opcode? = some (.moveResult form) →
      ∃ j o d, v.body.LastLeft steps j .next ∧ v.body.operation? j = some o ∧
        o.produced? = some d ∧ form.suits d = true := by
  obtain ⟨task, entry, hv⟩ := verified_of_verify h
  obtain ⟨hresult, -⟩ := entryFrame_books hv.entry_eq
  have hclosed := hv.closed task.domain_result (by rw [hresult]; rfl)
  refine ⟨hv.normal, fun steps i ins form hpath hins hop => ?_⟩
  obtain ⟨f, hf⟩ := hclosed.covered hpath.reachable
  have hsupplied := hclosed.along_path
    (P := fun steps _ f => ∀ form : ValueForm, form.admits f.result.1 = true →
      v.body.Supplies steps form) (fun _ _ => id) ?_ ?_ hpath hf
  · -- the instruction has found a value of its form
    obtain ⟨o, ho, hopcode⟩ := hv.models.exists_operation hins hop
    obtain ⟨dst, rfl⟩ := Operation.eq_moveResult hopcode
    obtain ⟨g, hg, -⟩ := hclosed.settled hf
    simp only [Task.after, ho] at hg
    have hyields : (task.env.transfer i (.moveResult form dst) f).Yields g :=
      ReportT.yields_of_outcome hg
    exact hsupplied form (task.env.admits_of_moveResult hyields)
  · intro e he form hform
    have hnone := he form hform
    rw [hresult, Frame.noResult, form.admits_undefined] at hnone
    exact absurd hnone Bool.false_ne_true
  · intro steps i j k f g e _ _ ih hg hedge htakes form hform
    exact hv.models.supplies_of_step ih hg hedge (htakes form hform)

/-- Adds up an array of one number, and returns `0` if there is no memory for the array. -/
def sumOfOne : Method where
  owner := ⟨"LA;"⟩
  name := "sumOfOne"
  proto := { params := [⟨"I"⟩], ret := ⟨"I"⟩ }
  flags := .ofModifiers [.publicAccess, .static]
  locals := 1
  ins := 1
  body :=
    { code := [.label ⟨0⟩, .withConstant (.filledNewArray .list) [1] (.type ⟨"[I"⟩), .label ⟨1⟩,
        .plain (.moveResult .object) [0],
        .withConstant (.invoke .static .list) [0] (.method
          { owner := ⟨"LA;"⟩, name := "sum", proto := { params := [⟨"[I"⟩], ret := ⟨"I"⟩ } }),
        .plain (.moveResult .single) [0], .plain (.returnValue .single) [0], .label ⟨2⟩,
        .plain .moveException [0], .withConstant .constInt [0] (.int 0),
        .plain (.returnValue .single) [0]]
      tries := [{ start := ⟨0⟩, stop := ⟨1⟩, handlers := [], catchAll := some ⟨2⟩ }]
      labelCount := 3 }

/-- The array is fetched behind a label, and the sum right behind the call. -/
theorem sumOfOne_fetches_result : ∃ v, sumOfOne.verify .core {} = .ok v ∧
    sumOfOne.body.normalize = .ok v.body ∧ ∀ steps i ins form, v.body.Path steps i →
      v.body.code[i]? = some ins → ins.opcode? = some (.moveResult form) →
      ∃ j o d, v.body.LastLeft steps j .next ∧ v.body.operation? j = some o ∧
        o.produced? = some d ∧ form.suits d = true := by
  obtain ⟨v, h⟩ := exists_eq_ok (x := sumOfOne.verify .core {}) (by decide +kernel)
  exact ⟨v, h, Method.verify_fetches_result h⟩

end BytecodeVerifier
