import BytecodeVerifier.Proofs.HandleFrames
import BytecodeVerifier.Proofs.UpperBound

/-!
# Absorption

A handle absorbs another if merging the two gives the first again. It goes on to do so, whatever is
merged into it or entered into the table meanwhile. So a frame into which others have been merged
one after the other absorbs each of them, and whoever merges one of them again is told that nothing
has changed (`HandleFrame.absorption_stable`).

Merging is not associative, so that this is no matter of rearranging merges. It comes from the order
`RegType.Below`, which is transitive and which new handles do not disturb (`RegType.Below.becomes`).
-/

namespace BytecodeVerifier

open TypeTable (Becomes)

variable {p : ClassPool}

/-! ## Types while handles are issued -/

namespace RegType

variable {x y z x' y' : RegType} {f : ClassName → ClassName}

@[simp] theorem isNonNullReference_mapName :
    (x.mapName f).isNonNullReference = x.isNonNullReference := by
  cases x <;> rfl

@[simp] theorem isUninitialized_mapName :
    (x.mapName f).isUninitialized = x.isUninitialized := by
  cases x <;> rfl

@[simp] theorem range?_mapName : (x.mapName f).range? = x.range? := by
  cases x <;> rfl

@[simp] theorem isInitialized_mapName : (x.mapName f).isInitialized = x.isInitialized := by
  simp [isInitialized, isReference, isZero]

/-- Of a type that is more than a handle number only the class name can change. -/
private theorem exists_mapName_of_becomes (h : Becomes z x y) (hx : x.isHandle = false) :
    ∃ f, y = x.mapName f := by
  cases h with
  | same => exact ⟨id, (mapName_eq_self fun _ _ => rfl).symm⟩
  | issued => simp [isHandle] at hx
  | named => exact ⟨_, rfl⟩

/-- No other class becomes the root class. -/
private theorem isObject_of_becomes (h : Becomes z x y) (hx : x.isHandle = false)
    (hobject : x.isObject = false) : y.isObject = false := by
  cases h with
  | same => exact hobject
  | issued => simp [isHandle] at hx
  | named _ hd => cases x <;> simp [mapName, isObject, hd]

private theorem isHandle_of_isReference (h : x.isReference = true) : x.isHandle = false := by
  cases x <;> first | rfl | simp [isReference, isZero, range?, isNonNullReference] at h

/-- What is below a type stays below it when a type is entered into the table. -/
theorem Below.becomes (h : Below p x y) (hx : Becomes z x x') (hy : Becomes z y y')
    (hsame : x = y → x' = y') : Below p x' y' := by
  have hissued : x.isInitialized = true → ∃ f, x' = x.mapName f := fun hinit =>
    exists_mapName_of_becomes hx (isHandle_of_isReference (Bool.and_eq_true_iff.1 hinit).1)
  cases h with
  | refl => exact hsame rfl ▸ .refl x'
  | conflict => exact hy.eq_of_isNamed rfl ▸ .conflict x'
  | range precise hlo hhi =>
    rw [hx.eq_of_isNamed rfl, hy.eq_of_isNamed rfl]
    exact .range precise hlo hhi
  | primitive hfits =>
    obtain ⟨hnull, hconflict⟩ := isNonNullReference_of_fits hfits
    rw [hx.eq_of_isNamed, hy.eq_of_isNamed]
    · exact .primitive hfits
    · cases y <;> first | rfl | simp [fits] at hfits
    · cases x <;> first | rfl | simp_all [isNonNullReference, isConflict]
  | null hzero hnull hinit =>
    have hy' := isHandle_of_isReference (x := y) (by simp [isReference, hnull])
    obtain ⟨f, rfl⟩ := exists_mapName_of_becomes hy hy'
    obtain ⟨g, rfl⟩ := hissued (isInitialized_of_isZero hzero)
    have hzero' : (x.mapName g).isZero = true := by simpa [RegType.isZero] using hzero
    exact .null hzero' (by simpa using hnull) (by simpa using hinit)
  | object hinit =>
    obtain ⟨f, rfl⟩ := hissued hinit
    exact hy.eq_of_isNamed rfl ▸ .object (by simpa using hinit)
  | merged hinit hobject =>
    have hobject' := isObject_of_becomes hx
      (isHandle_of_isReference (Bool.and_eq_true_iff.1 hinit).1) hobject
    obtain ⟨f, rfl⟩ := hissued hinit
    exact hy.eq_of_isNamed rfl ▸ .merged (by simpa using hinit) hobject'
  | reference precise hwidens =>
    rw [hx.eq_of_isNamed rfl, hy.eq_of_isNamed rfl]
    exact .reference precise hwidens

/-- Constants stay in order, if the type that is entered is. -/
theorem Ordered.becomes (hx : x.Ordered) (hz : z.Ordered) (h : Becomes z x y) : y.Ordered := by
  cases h with
  | same => exact hx
  | issued => exact hz
  | named hc =>
    cases x with
    | constant => exact hx
    | _ => trivial

end RegType

/-! ## Handles -/

/-- The handle `a` stands for a type above that of `b`. -/
def TypeTable.Absorbs (p : ClassPool) (t : TypeTable) (a b : Handle) : Prop :=
  RegType.Below p (t.type b.index) (t.type a.index)

/-- The bounds of a constant for which the handle stands are in order. -/
def TypeTable.Ordered (t : TypeTable) (a : Handle) : Prop := (t.type a.index).Ordered

/-- Nothing is lost from `t` to `t'`. -/
structure TypeTable.Keeps (p : ClassPool) (t t' : TypeTable) : Prop where
  absorbs {a b : Handle} : t.Absorbs p a b → t'.Absorbs p a b
  ordered {a : Handle} : t.Ordered a → t'.Ordered a

variable {t t' t'' : TypeTable} {a b c m x : Handle}

theorem TypeTable.Keeps.refl (p : ClassPool) (t : TypeTable) : t.Keeps p t := ⟨id, id⟩

theorem TypeTable.Keeps.trans (h : t.Keeps p t') (h' : t'.Keeps p t'') : t.Keeps p t'' :=
  ⟨fun hab => h'.absorbs (h.absorbs hab), fun ha => h'.ordered (h.ordered ha)⟩

namespace Lookup

/-- A handle that absorbs another is not changed by merging it. -/
theorem merge_of_absorbs (hp : p.Regular) (ht : t.Reachable) (h : t.Absorbs p a b) :
    merge p a b t = (a, t) := by
  rw [merge_run p ht, RegType.merge_eq_left hp.rooted h]
  exact intern_type_run ht a

/-- A handle that is not changed by merging another absorbs it. -/
theorem absorbs_of_merge (hp : p.Regular) (ht : t.Reachable) (hm : merge p a b t = (a, t')) :
    t.Absorbs p a b := by
  apply (RegType.merge_eq_left_iff hp).1
  rw [← type_merge ht hm, type_merge_left ht hm]

section Merge

variable (ht : t.Reachable) (hm : merge p a b t = (m, t'))

include ht hm

theorem absorbs_merge (hp : p.Regular) : t'.Absorbs p m a ∧ t'.Absorbs p m b := by
  unfold TypeTable.Absorbs
  rw [type_merge ht hm, type_merge_left ht hm, type_merge_right ht hm]
  exact ⟨RegType.below_merge_left hp.bounded hp.named _ _,
    RegType.below_merge_right hp.bounded hp.named _ _⟩

theorem ordered_merge (ha : t.Ordered a) (hb : t.Ordered b) : t'.Ordered m := by
  unfold TypeTable.Ordered
  rw [type_merge ht hm]
  exact RegType.Ordered.merge ha hb

theorem keeps_merge (ha : t.Ordered a) (hb : t.Ordered b) : t.Keeps p t' where
  absorbs {c d} hcd := by
    apply RegType.Below.becomes hcd (becomes_merge ht hm d.index) (becomes_merge ht hm c.index)
    intro htype
    rw [ht.eq_of_type_eq htype]
  ordered {c} hc := RegType.Ordered.becomes hc (RegType.Ordered.merge ha hb)
    (becomes_merge ht hm c.index)

end Merge

end Lookup

theorem TypeTable.Absorbs.trans (hp : p.Regular) (hc : t.Ordered c) (hab : t.Absorbs p a b)
    (hbc : t.Absorbs p b c) : t.Absorbs p a c :=
  RegType.Below.trans hp hc hbc hab

namespace HandleFrame

open Lookup (bind_run)

/-! ## Rows -/

/-- Each handle of the first row absorbs that of the second, as far as both rows go. -/
def RowAbsorbs (p : ClassPool) (t : TypeTable) : List Handle → List Handle → Prop
  | a :: as, b :: bs => t.Absorbs p a b ∧ RowAbsorbs p t as bs
  | _, _ => True

variable {as bs cs ms : List Handle}

theorem RowAbsorbs.mono (ht : t.Keeps p t') (h : RowAbsorbs p t as bs) : RowAbsorbs p t' as bs := by
  induction as generalizing bs with
  | nil => trivial
  | cons a as ih =>
    cases bs with
    | nil => trivial
    | cons b bs => exact ⟨ht.absorbs h.1, ih h.2⟩

theorem RowAbsorbs.trans (hp : p.Regular) (hc : ∀ c ∈ cs, t.Ordered c)
    (hlength : as.length = bs.length) (hab : RowAbsorbs p t as bs) (hbc : RowAbsorbs p t bs cs) :
    RowAbsorbs p t as cs := by
  induction as generalizing bs cs with
  | nil => trivial
  | cons a as ih =>
    cases bs with
    | nil => simp at hlength
    | cons b bs =>
      cases cs with
      | nil => trivial
      | cons c cs =>
        rw [List.forall_mem_cons] at hc
        exact ⟨hab.1.trans hp hc.1 hbc.1, ih hc.2 (by simpa using hlength) hab.2 hbc.2⟩

theorem rowAbsorbs_self (p : ClassPool) (t : TypeTable) (as : List Handle) :
    RowAbsorbs p t as as := by
  induction as with
  | nil => trivial
  | cons a as ih => exact ⟨.refl _, ih⟩

/-- A row that absorbs another is not changed by merging it. -/
private theorem mergeRow_of_absorbs (hp : p.Regular) (ht : t.Reachable)
    (h : RowAbsorbs p t as bs) : mergeRow p as bs t = (as, t) := by
  induction as generalizing bs with
  | nil => rfl
  | cons a as ih =>
    cases bs with
    | nil => rfl
    | cons b bs =>
      rw [mergeRow, bind_run (Lookup.merge_of_absorbs hp ht h.1), bind_run (ih h.2)]
      rfl

/-- What a merge of two rows consists of. -/
theorem mergeRow_cons (hm : mergeRow p (a :: as) (b :: bs) t = (ms, t')) : ∃ m t₁ ns,
    Lookup.merge p a b t = (m, t₁) ∧ mergeRow p as bs t₁ = (ns, t') ∧ ms = m :: ns := by
  cases hm
  exact ⟨_, _, _, rfl, rfl, rfl⟩

theorem length_mergeRow (hm : mergeRow p as bs t = (ms, t')) : ms.length = as.length := by
  induction as generalizing bs ms t with
  | nil =>
    cases hm
    rfl
  | cons a as ih =>
    cases bs with
    | nil =>
      cases hm
      rfl
    | cons b bs =>
      obtain ⟨m, t₁, ns, -, htail, rfl⟩ := mergeRow_cons hm
      rw [List.length_cons, List.length_cons, ih htail]

/-- What a row `as` has become in the table `t'`. -/
structure RowGrows (p : ClassPool) (t : TypeTable) (as : List Handle) (t' : TypeTable)
    (ms : List Handle) : Prop where
  reachable : t'.Reachable
  keeps : t.Keeps p t'
  ordered : ∀ m ∈ ms, t'.Ordered m
  absorbs : RowAbsorbs p t' ms as

private theorem grows_mergeRow (hp : p.Regular) (ht : t.Reachable) (ha : ∀ a ∈ as, t.Ordered a)
    (hb : ∀ b ∈ bs, t.Ordered b) (hm : mergeRow p as bs t = (ms, t')) :
    RowGrows p t as t' ms ∧ RowAbsorbs p t' ms bs := by
  induction as generalizing bs ms t with
  | nil =>
    cases hm
    exact ⟨⟨ht, .refl p _, ha, trivial⟩, trivial⟩
  | cons a as ih =>
    cases bs with
    | nil =>
      cases hm
      exact ⟨⟨ht, .refl p _, ha, rowAbsorbs_self p _ _⟩, trivial⟩
    | cons b bs =>
      rw [List.forall_mem_cons] at ha hb
      obtain ⟨m, t₁, ns, hhead, htail, rfl⟩ := mergeRow_cons hm
      -- the rest of the rows is merged in a table that has kept what matters here
      have hkeeps := Lookup.keeps_merge ht hhead ha.1 hb.1
      have habsorbs := Lookup.absorbs_merge ht hhead hp
      have hordered := Lookup.ordered_merge ht hhead ha.1 hb.1
      obtain ⟨hgrows, hright⟩ := ih (Lookup.reachable_merge ht hhead)
        (fun a h => hkeeps.ordered (ha.2 a h)) (fun b h => hkeeps.ordered (hb.2 b h)) htail
      refine ⟨⟨hgrows.reachable, hkeeps.trans hgrows.keeps, ?_, ?_, hgrows.absorbs⟩, ?_, hright⟩
      · exact List.forall_mem_cons.2 ⟨hgrows.keeps.ordered hordered, hgrows.ordered⟩
      · exact hgrows.keeps.absorbs habsorbs.1
      · exact hgrows.keeps.absorbs habsorbs.2

/-! ## Frames -/

variable {E F F' G : HandleFrame}

/-- The two halves of the value that a call has left behind. -/
def halves (F : HandleFrame) : List Handle := [F.result.1, F.result.2]

/-- The handles of `F` absorb those of `G`, and `G` promises no less about the receiver and the
    monitors. -/
structure Absorbs (p : ClassPool) (t : TypeTable) (F G : HandleFrame) : Prop where
  locals : RowAbsorbs p t F.locals G.locals
  params : RowAbsorbs p t F.params G.params
  halves : RowAbsorbs p t F.halves G.halves
  thisInitialized : F.thisInitialized = true → G.thisInitialized = true
  monitors : F.monitors = none ∨ F.monitors = G.monitors

/-- What holds of all types of a frame as the table reads it. -/
theorem all_view_iff {Q : RegType → Prop} : (F.view t).All Q ↔
    (∀ h ∈ F.locals, Q (t.type h.index)) ∧ (∀ h ∈ F.params, Q (t.type h.index)) ∧
      ∀ h ∈ F.halves, Q (t.type h.index) := by
  rw [Frame.all_iff]
  simp [view, halves]

theorem Absorbs.mono (ht : t.Keeps p t') (h : F.Absorbs p t G) : F.Absorbs p t' G :=
  { h with
    locals := h.locals.mono ht
    params := h.params.mono ht
    halves := h.halves.mono ht }

theorem absorbs_self (p : ClassPool) (t : TypeTable) (F : HandleFrame) : F.Absorbs p t F :=
  ⟨rowAbsorbs_self p t _, rowAbsorbs_self p t _, rowAbsorbs_self p t _, id, .inr rfl⟩

/-- What a merge of two frames consists of. -/
theorem merge_eq (hm : F.merge p G t = (F', t')) : ∃ t₁ t₂,
    mergeRow p F.locals G.locals t = (F'.locals, t₁) ∧
    mergeRow p F.params G.params t₁ = (F'.params, t₂) ∧
    mergeRow p F.halves G.halves t₂ = (F'.halves, t') ∧
    F'.thisInitialized = (F.thisInitialized && G.thisInitialized) ∧
    F'.monitors = if F.monitors = G.monitors then F.monitors else none := by
  cases hm
  exact ⟨_, _, rfl, rfl, rfl, rfl, rfl⟩

/-- A frame that absorbs another is not changed by merging it, and this is noticed. -/
theorem absorb_of_absorbs (hp : p.Regular) (ht : t.Reachable) (h : F.Absorbs p t G) :
    F.absorb p G t = ((F, false), t) := by
  obtain ⟨F', t', hm⟩ : ∃ F' t', F.merge p G t = (F', t') := ⟨_, _, rfl⟩
  obtain ⟨t₁, t₂, hlocals, hparams, hhalves, hthis, hmonitors⟩ := merge_eq hm
  obtain ⟨hlocals', rfl⟩ := Prod.mk.inj ((mergeRow_of_absorbs hp ht h.locals).symm.trans hlocals)
  obtain ⟨hparams', rfl⟩ := Prod.mk.inj ((mergeRow_of_absorbs hp ht h.params).symm.trans hparams)
  obtain ⟨hhalves', rfl⟩ := Prod.mk.inj ((mergeRow_of_absorbs hp ht h.halves).symm.trans hhalves)
  have hthis' : F'.thisInitialized = F.thisInitialized := by
    rw [hthis]
    cases hF : F.thisInitialized with
    | false => rfl
    | true => rw [h.thisInitialized hF, Bool.and_true]
  have hmonitors' : F'.monitors = F.monitors := by
    rw [hmonitors]
    split
    · rfl
    · exact (h.monitors.resolve_right ‹_›).symm
  have hresult : F'.result = F.result := by
    rw [Prod.ext_iff]
    simpa [halves, eq_comm] using hhalves'
  have hsame : F' = F := by
    cases F
    cases F'
    rw [mk.injEq]
    exact ⟨hlocals'.symm, hparams'.symm, hresult, hthis', hmonitors'⟩
  rw [absorb_eq, bind_run hm, hsame]
  show ((F, F != F), t) = ((F, false), t)
  rw [bne_self_eq_false]

theorem Absorbs.trans (hp : p.Regular) (hG : (G.view t).All RegType.Ordered)
    (hlocals : E.locals.length = F.locals.length) (hparams : E.params.length = F.params.length)
    (hEF : E.Absorbs p t F) (hFG : F.Absorbs p t G) : E.Absorbs p t G := by
  rw [all_view_iff] at hG
  constructor
  case locals => exact hEF.locals.trans hp hG.1 hlocals hFG.locals
  case params => exact hEF.params.trans hp hG.2.1 hparams hFG.params
  case halves =>
    have hlength : E.halves.length = F.halves.length := rfl
    exact hEF.halves.trans hp hG.2.2 hlength hFG.halves
  case thisInitialized => exact fun h => hFG.thisInitialized (hEF.thisInitialized h)
  case monitors =>
    rcases hEF.monitors with hnone | heq
    · exact .inl hnone
    · exact hFG.monitors.imp heq.trans heq.trans

/-- What a frame `F` of the table `t` has become in the table `t'`. -/
structure Grows (p : ClassPool) (t : TypeTable) (F : HandleFrame) (t' : TypeTable)
    (F' : HandleFrame) : Prop where
  reachable : t'.Reachable
  keeps : t.Keeps p t'
  ordered : (F'.view t').All RegType.Ordered
  locals : F'.locals.length = F.locals.length
  params : F'.params.length = F.params.length
  absorbs : F'.Absorbs p t' F

private theorem ordered_of_keeps (ht : t.Keeps p t') (hF : (F.view t).All RegType.Ordered) :
    (F.view t').All RegType.Ordered := by
  rw [all_view_iff] at hF ⊢
  exact ⟨fun h hh => ht.ordered (hF.1 h hh), fun h hh => ht.ordered (hF.2.1 h hh),
    fun h hh => ht.ordered (hF.2.2 h hh)⟩

/-- What a frame absorbs it goes on to absorb. -/
theorem Grows.absorbs_of_absorbs (hp : p.Regular) (hG : (G.view t).All RegType.Ordered)
    (h : Grows p t F t' F') (hFG : F.Absorbs p t G) : F'.Absorbs p t' G :=
  h.absorbs.trans hp (ordered_of_keeps h.keeps hG) h.locals h.params (hFG.mono h.keeps)

/-- A frame into which another is merged absorbs both. -/
theorem grows_merge (hp : p.Regular) (ht : t.Reachable) (hF : (F.view t).All RegType.Ordered)
    (hG : (G.view t).All RegType.Ordered) (hm : F.merge p G t = (F', t')) :
    Grows p t F t' F' ∧ F'.Absorbs p t' G := by
  obtain ⟨t₁, t₂, hlocals, hparams, hhalves, hthis, hmonitors⟩ := merge_eq hm
  rw [all_view_iff] at hF hG
  -- row by row; each table keeps what the earlier rows have become
  obtain ⟨hgrows₁, hright₁⟩ := grows_mergeRow hp ht hF.1 hG.1 hlocals
  have hkeeps₁ := hgrows₁.keeps
  obtain ⟨hgrows₂, hright₂⟩ := grows_mergeRow hp hgrows₁.reachable
    (fun h hh => hkeeps₁.ordered (hF.2.1 h hh)) (fun h hh => hkeeps₁.ordered (hG.2.1 h hh)) hparams
  have hkeeps₂ := hkeeps₁.trans hgrows₂.keeps
  obtain ⟨hgrows₃, hright₃⟩ := grows_mergeRow hp hgrows₂.reachable
    (fun h hh => hkeeps₂.ordered (hF.2.2 h hh)) (fun h hh => hkeeps₂.ordered (hG.2.2 h hh)) hhalves
  have hkeeps₁₃ := hgrows₂.keeps.trans hgrows₃.keeps
  have hordered : (F'.view t').All RegType.Ordered := all_view_iff.2
    ⟨fun h hh => hkeeps₁₃.ordered (hgrows₁.ordered h hh),
      fun h hh => hgrows₃.keeps.ordered (hgrows₂.ordered h hh), hgrows₃.ordered⟩
  have hmonitors' : F'.monitors = none ∨ F'.monitors = F.monitors ∧ F.monitors = G.monitors := by
    rw [hmonitors]
    split
    · exact .inr ⟨rfl, ‹_›⟩
    · exact .inl rfl
  have hleft : F'.Absorbs p t' F :=
    ⟨hgrows₁.absorbs.mono hkeeps₁₃, hgrows₂.absorbs.mono hgrows₃.keeps, hgrows₃.absorbs,
      fun h => (Bool.and_eq_true_iff.1 (hthis ▸ h)).1, hmonitors'.imp_right And.left⟩
  have hright : F'.Absorbs p t' G :=
    ⟨hright₁.mono hkeeps₁₃, hright₂.mono hgrows₃.keeps, hright₃,
      fun h => (Bool.and_eq_true_iff.1 (hthis ▸ h)).2,
      hmonitors'.imp_right fun h => h.1.trans h.2⟩
  exact ⟨⟨hgrows₃.reachable, hkeeps₂.trans hgrows₃.keeps, hordered, length_mergeRow hlocals,
    length_mergeRow hparams, hleft⟩, hright⟩

/-! ## One frame after the other -/

/-- The frame `F` after one frame after the other has been merged into it. -/
def absorbAll (p : ClassPool) (F : HandleFrame) (Gs : List HandleFrame) : Lookup HandleFrame :=
  Gs.foldlM (fun F G => Prod.fst <$> F.absorb p G) F

private theorem absorbAll_cons (p : ClassPool) (F G : HandleFrame) (Gs : List HandleFrame) :
    absorbAll p F (G :: Gs) = F.merge p G >>= fun F => absorbAll p F Gs := by
  simp [absorbAll, absorb_eq]

/-- A frame absorbs all frames that have been merged into it. -/
theorem grows_absorbAll (hp : p.Regular) {Gs : List HandleFrame} (ht : t.Reachable)
    (hF : (F.view t).All RegType.Ordered) (hGs : ∀ G ∈ Gs, (G.view t).All RegType.Ordered)
    (hm : absorbAll p F Gs t = (F', t')) :
    Grows p t F t' F' ∧ ∀ G ∈ Gs, F'.Absorbs p t' G := by
  induction Gs generalizing t F with
  | nil =>
    cases hm
    exact ⟨⟨ht, .refl p _, hF, rfl, rfl, absorbs_self p _ _⟩, by simp⟩
  | cons G Gs ih =>
    obtain ⟨F₁, t₁, hstep⟩ : ∃ F₁ t₁, F.merge p G t = (F₁, t₁) := ⟨_, _, rfl⟩
    rw [absorbAll_cons, bind_run hstep] at hm
    rw [List.forall_mem_cons] at hGs
    obtain ⟨hgrows₁, hright⟩ := grows_merge hp ht hF hGs.1 hstep
    have hG₁ := ordered_of_keeps hgrows₁.keeps hGs.1
    obtain ⟨hgrows, hrest⟩ := ih hgrows₁.reachable hgrows₁.ordered
      (fun G' h => ordered_of_keeps hgrows₁.keeps (hGs.2 G' h)) hm
    refine ⟨?_, List.forall_mem_cons.2 ⟨hgrows.absorbs_of_absorbs hp hG₁ hright, hrest⟩⟩
    have hF₁ := ordered_of_keeps hgrows₁.keeps hF
    exact ⟨hgrows.reachable, hgrows₁.keeps.trans hgrows.keeps, hgrows.ordered,
      hgrows.locals.trans hgrows₁.locals, hgrows.params.trans hgrows₁.params,
      hgrows.absorbs_of_absorbs hp hF₁ hgrows₁.absorbs⟩

/-! ## Changes -/

/-- Two frames are not the same in some register, in the value that a call has left behind, or in
    what they know of the receiver or of the monitors. -/
def Differs (F G : HandleFrame) : Prop :=
  (∃ reg, F.get? reg ≠ G.get? reg) ∨ F.result ≠ G.result ∨
    F.thisInitialized ≠ G.thisInitialized ∨ F.monitors ≠ G.monitors

private theorem ne_iff_differs (hlocals : F'.locals.length = F.locals.length) :
    F' ≠ F ↔ F'.Differs F := by
  constructor
  · intro hne
    by_contra hsame
    simp only [Differs, not_or, not_exists, ne_eq, not_not] at hsame
    obtain ⟨hget, hresult, hthis, hmonitors⟩ := hsame
    have hlocals' : F'.locals = F.locals := by
      apply List.ext_getElem?
      intro i
      by_cases hi : i < F.locals.length
      · simpa [get?, hlocals, hi] using hget i
      · rw [List.getElem?_eq_none (by omega), List.getElem?_eq_none (by omega)]
    have hparams' : F'.params = F.params := by
      apply List.ext_getElem?
      intro i
      have hi : ¬F.locals.length + i < F.locals.length := by omega
      simpa [get?, hlocals, hi] using hget (F.locals.length + i)
    cases F
    cases F'
    exact hne (by rw [mk.injEq]; exact ⟨hlocals', hparams', hresult, hthis, hmonitors⟩)
  · rintro hdiffers rfl
    simp [Differs] at hdiffers

/-- Whoever merges a frame into another is told whether that has changed something. -/
theorem absorb_changed_iff {changed : Bool} (hm : F.absorb p G t = ((F', changed), t')) :
    changed = true ↔ F'.Differs F := by
  obtain ⟨E, t₁, hmerge⟩ : ∃ E t₁, F.merge p G t = (E, t₁) := ⟨_, _, rfl⟩
  rw [absorb_eq, bind_run hmerge] at hm
  cases hm
  obtain ⟨t₂, t₃, hlocals, -⟩ := merge_eq hmerge
  rw [bne_iff_ne, ne_iff_differs (length_mergeRow hlocals)]

/-- Absorption is stable. The merge of two handles absorbs both. What a handle absorbs it goes on to
    absorb. A frame absorbs each of the frames that have been merged into it one after the other, so
    that merging one of them again changes nothing. Each merge tells truly whether it has changed
    anything. -/
theorem absorption_stable (hp : p.Regular) (ht : t.Reachable) :
    (∀ a b m t', Lookup.merge p a b t = (m, t') →
      Lookup.merge p m a t' = (m, t') ∧ Lookup.merge p m b t' = (m, t')) ∧
    (∀ m x c n t', t.Ordered m → t.Ordered x → t.Ordered c → (Lookup.merge p m x t).1 = m →
      Lookup.merge p m c t = (n, t') → Lookup.merge p n x t' = (n, t')) ∧
    (∀ F Gs F' t', (F.view t).All RegType.Ordered → (∀ G ∈ Gs, (G.view t).All RegType.Ordered) →
      absorbAll p F Gs t = (F', t') → ∀ G ∈ Gs, F'.absorb p G t' = ((F', false), t')) ∧
    (∀ F G F' changed t', absorb p F G t = ((F', changed), t') →
      (changed = true ↔ Differs F' F)) := by
  refine ⟨?_, ?_, ?_, fun F G F' changed t' => absorb_changed_iff⟩
  · intro a b m t' hm
    have ht' := Lookup.reachable_merge ht hm
    obtain ⟨hleft, hright⟩ := Lookup.absorbs_merge ht hm hp
    exact ⟨Lookup.merge_of_absorbs hp ht' hleft, Lookup.merge_of_absorbs hp ht' hright⟩
  · intro m x c n t' hm hx hc hsame hmerge
    have hbelow : t.Absorbs p m x := Lookup.absorbs_of_merge hp ht (Prod.ext hsame rfl)
    have hkeeps := Lookup.keeps_merge ht hmerge hm hc
    have habove := (Lookup.absorbs_merge ht hmerge hp).1
    exact Lookup.merge_of_absorbs hp (Lookup.reachable_merge ht hmerge)
      (habove.trans hp (hkeeps.ordered hx) (hkeeps.absorbs hbelow))
  · intro F Gs F' t' hF hGs hm G hG
    obtain ⟨hgrows, habsorbs⟩ := grows_absorbAll hp ht hF hGs hm
    exact absorb_of_absorbs hp hgrows.reachable (habsorbs G hG)

end HandleFrame

/-- The table that has a handle for the constant `200` as well. -/
def constantTable : TypeTable := (diamondTable.intern (.constant 200 200 true)).2

/-- A frame with one local and one parameter. -/
def pairFrame (onlyLocal onlyParam : Handle) (thisInitialized : Bool) (monitors : Nat) :
    HandleFrame where
  locals := [onlyLocal]
  params := [onlyParam]
  result := HandleFrame.noResult
  thisInitialized
  monitors := some monitors

/-- A `boolean` becomes a `short` by the constant `200` and then an `int` by a `char`; in the other
    order it would end as a `char`. An array of `B` becomes one of `A`. -/
theorem diamond_absorption_stable : diamondPool.Regular ∧ constantTable.Reachable ∧ ∃ F t',
    HandleFrame.absorbAll diamondPool (pairFrame (.fixed .boolean) ⟨16⟩ true 0)
      [pairFrame ⟨18⟩ ⟨17⟩ true 0, pairFrame (.fixed .char) (.fixed .zero) false 1]
      constantTable = (F, t') ∧
    F.view t' =
      { locals := [.int]
        params := [.reference (.named ⟨"[LA;"⟩) false]
        result := Frame.noResult
        thisInitialized := false
        monitors := none } ∧
    F.absorb diamondPool (pairFrame ⟨18⟩ ⟨17⟩ true 0) t' = ((F, false), t') ∧
    F.absorb diamondPool (pairFrame (.fixed .char) (.fixed .zero) false 1) t' =
      ((F, false), t') := by
  have ht : constantTable.Reachable := .intern _ (.intern _ (.intern _ .initial))
  have hagain := (HandleFrame.absorption_stable diamondPool_regular ht).2.2.1
    (pairFrame (.fixed .boolean) ⟨16⟩ true 0)
    [pairFrame ⟨18⟩ ⟨17⟩ true 0, pairFrame (.fixed .char) (.fixed .zero) false 1] _ _
    (by unfold Frame.All; decide +kernel) (by unfold Frame.All; decide +kernel) rfl
  exact ⟨diamondPool_regular, ht, _, _, rfl, by decide +kernel, hagain _ (by simp),
    hagain _ (by simp)⟩

/-- If `A` and `B` extend a class by the name of the primitive type `int`, the merge of an array of
    `A` and one of `B` absorbs neither of them. -/
theorem misnamed_not_absorption_stable : misnamedPool.Rooted ∧ misnamedPool.Bounded ∧
    arraysTable.Reachable ∧ ∃ m t', Lookup.merge misnamedPool ⟨16⟩ ⟨17⟩ arraysTable = (m, t') ∧
      t'.type m.index = .reference (.named ⟨"[I"⟩) false ∧
      (Lookup.merge misnamedPool m ⟨16⟩ t').1 ≠ m ∧
      (Lookup.merge misnamedPool m ⟨17⟩ t').1 ≠ m :=
  ⟨by decide +kernel, misnamedPool_bounded, .intern _ (.intern _ .initial), _, _, rfl,
    by decide +kernel, by decide +kernel, by decide +kernel⟩

end BytecodeVerifier
