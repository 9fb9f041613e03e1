import BytecodeVerifier.Proofs.Absorption
import BytecodeVerifier.Proofs.FlatFrames
import BytecodeVerifier.Proofs.RegisterFaults

/-!
# Wide pairs

A wide value takes two registers, and a later write may hit one of them only. So a frame can hold a
low half without its high half and the other way round, but it never holds two halves side by side
that look like one value and are not (`Frame.Paired`). That is so in every frame of a family,
whatever has been done to the frames (`FrameFamily.run_paired`).

All halves have fixed handles, so that issuing handles does not matter. The key is that two frames
are merged register by register in the same way for low halves as for high halves
(`RegType.merge_low_iff_merge_high`).
-/

namespace BytecodeVerifier

open TypeTable (Reachable)

variable {p : ClassPool} {t t' : TypeTable}

/-- A low half followed by a high half makes a wide value with it. A low half that is left behind as
    the result has its high half beside it. -/
structure Frame.Paired (f : Frame) : Prop where
  registers : ∀ reg lo hi, f.get? reg = some lo → f.get? (reg + 1) = some hi →
    lo.isLowHalf = true → hi.isHighHalf = true → lo.pairsWith hi = true
  result : f.result.1.isLowHalf = true → f.result.1.pairsWith f.result.2 = true

/-- A low half is followed by no high half of another value. -/
def PairedRow (row : List Handle) : Prop :=
  ∀ (reg : Nat) (i j : WideKind), row[reg]? = some (.fixed (.low i)) →
    row[reg + 1]? = some (.fixed (.high j)) → i = j

/-- The same as `Frame.Paired`, for handles. -/
structure FlatFrame.Paired (f : FlatFrame) : Prop where
  registers : PairedRow f.registers
  result : ∀ i, f.result.1 = .fixed (.low i) → f.result.2 = .fixed (.high i)

/-! ## Halves -/

namespace RegType

variable {x y : RegType} {i j k : WideKind}

private theorem isHalf_mergeIntegral (x y : RegType) : (mergeIntegral x y).isHalf = false := by
  unfold mergeIntegral
  repeat' split
  all_goals rfl

private theorem isHalf_mergeReferences (hx : x.isReference = true) (hy : y.isReference = true) :
    (mergeReferences p x y).isHalf = false := by
  unfold mergeReferences
  repeat' split
  all_goals first | rfl | exact isHalf_of_isReference ‹_›

private theorem exists_low (h : x.fitsLongLow = true ∨ x.fitsDoubleLow = true) :
    ∃ i, x = .low i := by
  simp only [fitsLongLow, fitsDoubleLow, Bool.or_eq_true, beq_iff_eq] at h
  rcases h with (rfl | rfl) | rfl | rfl <;> exact ⟨_, rfl⟩

private theorem exists_high (h : x.fitsLongHigh = true ∨ x.fitsDoubleHigh = true) :
    ∃ i, x = .high i := by
  simp only [fitsLongHigh, fitsDoubleHigh, Bool.or_eq_true, beq_iff_eq] at h
  rcases h with (rfl | rfl) | rfl | rfl <;> exact ⟨_, rfl⟩

theorem exists_of_isLowHalf (h : x.isLowHalf = true) : ∃ i, x = .low i := by
  cases x with
  | low i => exact ⟨i, rfl⟩
  | _ => cases h

theorem exists_of_isHighHalf (h : x.isHighHalf = true) : ∃ i, x = .high i := by
  cases x with
  | high i => exact ⟨i, rfl⟩
  | _ => cases h

/-- Both types are halves, and of the same side. -/
def SameSide (x y : RegType) : Prop :=
  (∃ i j, x = .low i ∧ y = .low j) ∨ ∃ i j, x = .high i ∧ y = .high j

private theorem sameSide_of_lows (hx : ∃ i, x = .low i) (hy : ∃ j, y = .low j) : SameSide x y :=
  hx.elim fun i hi => hy.elim fun j hj => .inl ⟨i, j, hi, hj⟩

private theorem sameSide_of_highs (hx : ∃ i, x = .high i) (hy : ∃ j, y = .high j) :
    SameSide x y :=
  hx.elim fun i hi => hy.elim fun j hj => .inr ⟨i, j, hi, hj⟩

private theorem sameSide_of_mergeWritten (h : (mergeWritten p x y).isHalf = true) :
    SameSide x y := by
  unfold mergeWritten at h
  split at h
  · simp [isHalf_mergeIntegral] at h
  split at h
  · cases h
  simp only [Bool.and_eq_true] at h
  split at h
  · rename_i hfits
    exact sameSide_of_lows (exists_low (.inl hfits.1)) (exists_low (.inl hfits.2))
  split at h
  · rename_i hfits
    exact sameSide_of_highs (exists_high (.inl hfits.1)) (exists_high (.inl hfits.2))
  split at h
  · rename_i hfits
    exact sameSide_of_lows (exists_low (.inr hfits.1)) (exists_low (.inr hfits.2))
  split at h
  · rename_i hfits
    exact sameSide_of_highs (exists_high (.inr hfits.1)) (exists_high (.inr hfits.2))
  split at h
  · rename_i hrefs
    simp [isHalf_mergeReferences hrefs.1 hrefs.2] at h
  · cases h

/-- Only halves of the same side are merged to a half. -/
theorem sameSide_of_merge (h : (x.merge p y).isHalf = true) : SameSide x y := by
  unfold merge at h
  split at h
  · rename_i hsame
    subst hsame
    cases x with
    | low i => exact .inl ⟨i, i, rfl, rfl⟩
    | high i => exact .inr ⟨i, i, rfl, rfl⟩
    | _ => cases h
  split at h
  · cases h
  split at h
  · cases h
  · exact sameSide_of_mergeWritten h

variable {side : WideKind → RegType}

theorem isHalf_of_side (hside : side = .low ∨ side = .high) : (side k).isHalf = true := by
  rcases hside with rfl | rfl <;> rfl

/-- The merge of two halves of one side. A half of a constant serves as any other. -/
private theorem merge_half (hside : side = .low ∨ side = .high) : (side i).merge p (side j) =
    if i = j ∨ j = .constant then side i else if i = .constant then side j else .conflict := by
  rcases hside with rfl | rfl <;> cases i <;> cases j <;>
    simp [merge, mergeWritten, isConflict, isUndefined, range?, fitsInt.eq_def, fitsFloat,
      fitsLongLow, fitsLongHigh, fitsDoubleLow, fitsDoubleHigh, isReference, isZero,
      isNonNullReference]

/-- Low halves are merged as high halves are. -/
theorem merge_low_iff_merge_high :
    (low i).merge p (.low j) = .low k ↔ (high i).merge p (.high j) = .high k := by
  rw [merge_half (.inl rfl), merge_half (.inr rfl)]
  split
  · simp
  split <;> simp

private theorem merge_half_cases (hside : side = .low ∨ side = .high) (i j : WideKind) :
    (side i).merge p (side j) = .conflict ∨ ∃ k, (side i).merge p (side j) = side k := by
  rw [merge_half hside]
  split
  · exact .inr ⟨i, rfl⟩
  split
  · exact .inr ⟨j, rfl⟩
  · exact .inl rfl

/-- A half comes only of halves of its side. -/
theorem merge_eq_half_iff (hside : side = .low ∨ side = .high) : x.merge p y = side k ↔
    ∃ i j, x = side i ∧ y = side j ∧ (side i).merge p (side j) = side k := by
  constructor
  · intro h
    have hsame : SameSide x y := sameSide_of_merge (h ▸ isHalf_of_side hside)
    rcases hsame with ⟨i, j, rfl, rfl⟩ | ⟨i, j, rfl, rfl⟩ <;> rcases hside with rfl | rfl
    · exact ⟨i, j, rfl, rfl, h⟩
    · rcases merge_half_cases (.inl rfl) i j with hmerge | ⟨_, hmerge⟩ <;>
        cases hmerge.symm.trans h
    · rcases merge_half_cases (.inr rfl) i j with hmerge | ⟨_, hmerge⟩ <;>
        cases hmerge.symm.trans h
    · exact ⟨i, j, rfl, rfl, h⟩
  · rintro ⟨i, j, rfl, rfl, h⟩
    exact h

end RegType

/-! ## Handles of halves -/

section Handles

variable {side : WideKind → RegType} {h a b m : Handle} {k : WideKind}

/-- A half has the same handle in every table. -/
theorem type_eq_half_iff (ht : t.Reachable) (hside : side = .low ∨ side = .high) :
    t.type h.index = side k ↔ h = .fixed (side k) := by
  have hmem : side k ∈ TypeTable.fixedTypes := by
    rcases hside with rfl | rfl <;> cases k <;> simp [TypeTable.fixedTypes]
  have hfixed := (TypeTable.denotes_fixed ht hmem).type_eq
  constructor
  · exact fun htype => ht.eq_of_type_eq (htype.trans hfixed.symm)
  · rintro rfl
    exact hfixed

theorem isHalf_type_fixed (ht : t.Reachable) (hside : side = .low ∨ side = .high) (k : WideKind) :
    (t.type (Handle.fixed (side k)).index).isHalf = true := by
  rw [(type_eq_half_iff ht hside).2 rfl]
  exact RegType.isHalf_of_side hside

/-- Different halves have different handles. -/
theorem fixed_half_inj {side' : WideKind → RegType} {i j : WideKind}
    (hside : side = .low ∨ side = .high) (hside' : side' = .low ∨ side' = .high)
    (h : Handle.fixed (side i) = .fixed (side' j)) : side i = side' j := by
  rw [← (type_eq_half_iff .initial hside).2 rfl, h]
  exact (type_eq_half_iff .initial hside').2 rfl

/-- A handle that stands for no half is none of those of halves. -/
theorem fixed_half_ne (ht : t.Reachable) (hwhole : (t.type h.index).isHalf = false)
    (hside : side = .low ∨ side = .high) (k : WideKind) : Handle.fixed (side k) ≠ h := by
  rintro rfl
  rw [isHalf_type_fixed ht hside] at hwhole
  cases hwhole

/-- Where nothing is left behind there is no half. -/
theorem fixed_undefined_ne (i : WideKind) : Handle.fixed .undefined ≠ .fixed (.low i) := by
  cases i <;> decide +kernel

/-- The handle `m` stands for a half only if `a` and `b` do so on the same side, and for the merge
    of these two. -/
def MergesHalves (p : ClassPool) (a b m : Handle) : Prop :=
  ∀ side : WideKind → RegType, side = .low ∨ side = .high → ∀ k, m = .fixed (side k) ↔
    ∃ i j, a = .fixed (side i) ∧ b = .fixed (side j) ∧ (side i).merge p (side j) = side k

theorem mergesHalves_merge (ht : t.Reachable) (hm : Lookup.merge p a b t = (m, t')) :
    MergesHalves p a b m := by
  intro side hside k
  rw [← type_eq_half_iff (Lookup.reachable_merge ht hm) hside, Lookup.type_merge ht hm,
    RegType.merge_eq_half_iff hside]
  simp only [type_eq_half_iff ht hside]

end Handles

/-! ## Accesses -/

namespace FlatFrame

variable {f g : FlatFrame}

/-- What an access can make of a frame. -/
inductive Becomes (t : TypeTable) (f : FlatFrame) : FlatFrame → Prop
  | same : Becomes t f f
  | single {reg : Nat} {h : Handle} (whole : (t.type h.index).isHalf = false) :
    Becomes t f { f with registers := f.registers.set reg h }
  | pair {reg : Nat} {lo hi : Handle}
    (pairs : (t.type lo.index).pairsWith (t.type hi.index) = true) :
    Becomes t f { f with registers := (f.registers.set reg lo).set (reg + 1) hi }
  | taken {g : FlatFrame} : Becomes t f g → Becomes t f { g with result := HandleFrame.noResult }

private theorem becomes_writeSingle {reg : Nat} {h : Handle}
    (hok : f.writeSingle t reg h = .ok g) : Becomes t f g := by
  unfold writeSingle at hok
  dsimp only at hok
  split at hok
  · cases hok
  split at hok
  · rename_i hwhole _
    cases hok
    exact .single (Bool.eq_false_iff.2 hwhole)
  · cases hok

private theorem becomes_writePair {reg : Nat} {lo hi : Handle}
    (hok : f.writePair t reg lo hi = .ok g) : Becomes t f g := by
  unfold writePair next at hok
  split at hok
  · cases hok
  rename_i hpair
  split at hok
  · obtain ⟨next, hnext, hok⟩ := bind_eq_ok.1 hok
    cases hnext
    split at hok
    · cases hok
      exact .pair (by simpa using hpair)
    · cases hok
  · cases hok

theorem becomes_of_access {a : FrameAccess} {x : FrameAnswer}
    (hok : f.access t p a = .ok (x, g)) : Becomes t f g := by
  cases a with
  | read reg | holds reg expected | holdsPair reg expected =>
    obtain ⟨_, -, hok⟩ := bind_eq_ok.1 hok
    cases hok
    exact .same
  | writeSingle reg h =>
    obtain ⟨_, hwrite, hok⟩ := bind_eq_ok.1 hok
    cases hok
    exact becomes_writeSingle hwrite
  | writePair reg lo hi =>
    obtain ⟨_, hwrite, hok⟩ := bind_eq_ok.1 hok
    cases hok
    exact becomes_writePair hwrite
  | write reg h =>
    obtain ⟨_, hwrite, hok⟩ := bind_eq_ok.1 hok
    cases hok
    unfold write at hwrite
    cases hhigh : (t.type h.index).highHalf? with
    | none =>
      rw [hhigh] at hwrite
      exact becomes_writeSingle hwrite
    | some x =>
      rw [hhigh] at hwrite
      exact becomes_writePair hwrite
  | takeResult dst form =>
    obtain ⟨_, htake, hok⟩ := bind_eq_ok.1 hok
    cases hok
    unfold takeResult writeResult at htake
    split at htake
    · cases htake
    obtain ⟨_, hwrite, htake⟩ := bind_eq_ok.1 htake
    cases htake
    dsimp only at hwrite
    split at hwrite
    · cases hwrite
    split at hwrite
    · exact .taken (becomes_writePair hwrite)
    · exact .taken (becomes_writeSingle hwrite)

/-- What is in a row after a write was there before, if it is not what has been written. -/
private theorem getElem?_of_set {l : List Handle} {reg r : Nat} {h x : Handle}
    (hget : (l.set reg h)[r]? = some x) (hne : x ≠ h) : l[r]? = some x := by
  rw [List.getElem?_set] at hget
  split at hget
  · split at hget
    · cases hget
      exact absurd rfl hne
    · cases hget
  · exact hget

private theorem eq_of_getElem?_set {l : List Handle} {reg : Nat} {h x : Handle}
    (hget : (l.set reg h)[reg]? = some x) : h = x := by
  rw [List.getElem?_set, if_pos rfl] at hget
  split at hget
  · exact Option.some.inj hget
  · cases hget

private theorem pairedRow_single {row : List Handle} {h : Handle} (hrow : PairedRow row)
    (ht : t.Reachable) (hwhole : (t.type h.index).isHalf = false) (reg : Nat) :
    PairedRow (row.set reg h) := by
  intro r i j hlo hhi
  exact hrow r i j (getElem?_of_set hlo (fixed_half_ne ht hwhole (.inl rfl) i))
    (getElem?_of_set hhi (fixed_half_ne ht hwhole (.inr rfl) j))

private theorem pairedRow_pair {row : List Handle} (hrow : PairedRow row) (reg : Nat)
    (k : WideKind) :
    PairedRow ((row.set reg (.fixed (.low k))).set (reg + 1) (.fixed (.high k))) := by
  have hsides : ∀ i j, Handle.fixed (.low i) ≠ .fixed (.high j) := by
    intro i j heq
    cases fixed_half_inj (.inl rfl) (.inr rfl) heq
  intro r i j hlo hhi
  have hlo := getElem?_of_set hlo (hsides i k)
  by_cases hr : r = reg
  · -- the value just written
    subst hr
    cases fixed_half_inj (.inl rfl) (.inl rfl) (eq_of_getElem?_set hlo)
    cases fixed_half_inj (.inr rfl) (.inr rfl) (eq_of_getElem?_set hhi)
    rfl
  · -- neither register has been written, since a half of the other side would be in it
    rw [List.getElem?_set_ne (Ne.symm hr)] at hlo
    rw [List.getElem?_set_ne (by omega)] at hhi
    exact hrow r i j hlo (getElem?_of_set hhi (hsides k j).symm)

/-- The two halves of one value, by their handles. -/
private theorem exists_kind_of_pairsWith {lo hi : Handle} (ht : t.Reachable)
    (hpairs : (t.type lo.index).pairsWith (t.type hi.index) = true) :
    ∃ k, lo = .fixed (.low k) ∧ hi = .fixed (.high k) := by
  unfold RegType.pairsWith at hpairs
  cases hlo : t.type lo.index with
  | low k =>
    rw [hlo] at hpairs
    refine ⟨k, (type_eq_half_iff ht (.inl rfl)).1 hlo, (type_eq_half_iff ht (.inr rfl)).1 ?_⟩
    exact (Option.some.inj (beq_iff_eq.1 hpairs)).symm
  | _ =>
    rw [hlo] at hpairs
    cases hpairs

theorem Paired.becomes (hf : f.Paired) (ht : t.Reachable) (h : Becomes t f g) :
    g.Paired ∧ g.size = f.size := by
  induction h with
  | same => exact ⟨hf, rfl⟩
  | single whole =>
    exact ⟨⟨pairedRow_single hf.registers ht whole _, hf.result⟩, by simp [size]⟩
  | pair pairs =>
    obtain ⟨k, rfl, rfl⟩ := exists_kind_of_pairsWith ht pairs
    exact ⟨⟨pairedRow_pair hf.registers _ k, hf.result⟩, by simp [size]⟩
  | taken _ ih =>
    exact ⟨⟨ih.1.registers, fun i hlo => absurd hlo (fixed_undefined_ne i)⟩, ih.2⟩

end FlatFrame

/-! ## Merging frames -/

namespace HandleFrame

variable {F G M : HandleFrame} {locals params : Nat} {h : Handle}

/-- In a row merged with one of the same length each handle comes of the two in its place. -/
private theorem mergesHalves_mergeRow {as bs ms : List Handle} (ht : t.Reachable)
    (hlength : as.length = bs.length) (hm : mergeRow p as bs t = (ms, t')) :
    t'.Reachable ∧ ∀ (i : Nat) m, ms[i]? = some m →
      ∃ a b, as[i]? = some a ∧ bs[i]? = some b ∧ MergesHalves p a b m := by
  induction as generalizing bs ms t with
  | nil =>
    cases hm
    exact ⟨ht, by simp⟩
  | cons a as ih =>
    cases bs with
    | nil => simp at hlength
    | cons b bs =>
      obtain ⟨m, t₁, ns, hhead, htail, rfl⟩ := mergeRow_cons hm
      obtain ⟨ht', hrest⟩ := ih (Lookup.reachable_merge ht hhead) (by simpa using hlength) htail
      refine ⟨ht', fun i m' hi => ?_⟩
      cases i with
      | zero =>
        cases hi
        exact ⟨a, b, rfl, rfl, mergesHalves_merge ht hhead⟩
      | succ i => exact hrest i m' hi

/-- A frame of the given shape whose halves are paired. -/
structure Sound (locals params : Nat) (F : HandleFrame) : Prop where
  locals : F.locals.length = locals
  params : F.params.length = params
  paired : F.flat.Paired

/-- In frames of the same shape each register is merged with the one in its place. -/
private theorem mergesHalves_get? {t₁ t₂ : TypeTable} (ht : t.Reachable)
    (hF : F.Sound locals params) (hG : G.Sound locals params)
    (hlocals : mergeRow p F.locals G.locals t = (M.locals, t₁))
    (hparams : mergeRow p F.params G.params t₁ = (M.params, t₂)) :
    t₂.Reachable ∧ ∀ reg m, M.get? reg = some m →
      ∃ a b, F.get? reg = some a ∧ G.get? reg = some b ∧ MergesHalves p a b m := by
  have hlength := hF.locals.trans hG.locals.symm
  obtain ⟨ht₁, hlocal⟩ := mergesHalves_mergeRow ht hlength hlocals
  obtain ⟨ht₂, hparam⟩ := mergesHalves_mergeRow ht₁ (hF.params.trans hG.params.symm) hparams
  refine ⟨ht₂, fun reg m hget => ?_⟩
  unfold get? at hget ⊢
  rw [length_mergeRow hlocals] at hget
  rw [← hlength]
  by_cases hreg : reg < F.locals.length
  · simp only [if_pos hreg] at hget ⊢
    exact hlocal _ _ hget
  · simp only [if_neg hreg] at hget ⊢
    exact hparam _ _ hget

theorem sound_merge (ht : t.Reachable) (hF : F.Sound locals params) (hG : G.Sound locals params)
    (hm : F.merge p G t = (M, t')) : t'.Reachable ∧ M.Sound locals params := by
  obtain ⟨t₁, t₂, hlocals, hparams, hhalves, -, -⟩ := merge_eq hm
  obtain ⟨ht₂, hregister⟩ := mergesHalves_get? ht hF hG hlocals hparams
  obtain ⟨ht', hhalf⟩ := mergesHalves_mergeRow ht₂ (by rfl) hhalves
  refine ⟨ht', (length_mergeRow hlocals).trans hF.locals,
    (length_mergeRow hparams).trans hF.params, ?_, ?_⟩
  · intro reg i j hlo hhi
    rw [← get?_eq_getElem?] at hlo hhi
    obtain ⟨a, b, ha, hb, hlow⟩ := hregister _ _ hlo
    obtain ⟨c, d, hc, hd, hhigh⟩ := hregister _ _ hhi
    obtain ⟨i₁, j₁, rfl, rfl, hmerge⟩ := (hlow .low (.inl rfl) i).1 rfl
    obtain ⟨i₂, j₂, rfl, rfl, hmerge'⟩ := (hhigh .high (.inr rfl) j).1 rfl
    -- both frames hold pairs there, so that the halves are merged in the same way
    rw [get?_eq_getElem?] at ha hb hc hd
    obtain rfl := hF.paired.registers reg i₁ i₂ ha hc
    obtain rfl := hG.paired.registers reg j₁ j₂ hb hd
    rw [RegType.merge_low_iff_merge_high] at hmerge
    simpa using hmerge.symm.trans hmerge'
  · intro i hlo
    obtain ⟨_, _, ha, hb, hlow⟩ := hhalf 0 M.result.1 rfl
    obtain ⟨_, _, hc, hd, hhigh⟩ := hhalf 1 M.result.2 rfl
    cases ha
    cases hb
    cases hc
    cases hd
    obtain ⟨i₁, j₁, hi, hj, hmerge⟩ := (hlow .low (.inl rfl) i).1 hlo
    exact (hhigh .high (.inr rfl) i).2
      ⟨i₁, j₁, hF.paired.result i₁ hi, hG.paired.result j₁ hj,
        RegType.merge_low_iff_merge_high.1 hmerge⟩

theorem get?_view (F : HandleFrame) (t : TypeTable) (reg : Nat) :
    (F.view t).get? reg = (F.get? reg).map fun h => t.type h.index := by
  unfold Frame.get? get? view
  simp only [List.length_map, List.getElem?_map]
  split <;> rfl

/-- What the table reads in a sound frame is paired. -/
theorem Sound.view (hF : F.Sound locals params) (ht : t.Reachable) : (F.view t).Paired := by
  constructor
  · intro reg lo hi hlo hhi hlow hhigh
    rw [get?_view] at hlo hhi
    obtain ⟨a, ha, rfl⟩ := Option.map_eq_some_iff.1 hlo
    obtain ⟨b, hb, rfl⟩ := Option.map_eq_some_iff.1 hhi
    obtain ⟨i, hi⟩ := RegType.exists_of_isLowHalf hlow
    obtain ⟨j, hj⟩ := RegType.exists_of_isHighHalf hhigh
    rw [get?_eq_getElem?, (type_eq_half_iff ht (.inl rfl)).1 hi] at ha
    rw [get?_eq_getElem?, (type_eq_half_iff ht (.inr rfl)).1 hj] at hb
    obtain rfl := hF.paired.registers reg i j ha hb
    rw [hi, hj]
    simp [RegType.pairsWith, RegType.highHalf?]
  · intro hlow
    show (t.type F.result.1.index).pairsWith (t.type F.result.2.index) = true
    obtain ⟨i, hi⟩ : ∃ i, t.type F.result.1.index = .low i := RegType.exists_of_isLowHalf hlow
    have hj : t.type F.result.2.index = .high i := (type_eq_half_iff ht (.inr rfl)).2
      (hF.paired.result i ((type_eq_half_iff ht (.inl rfl)).1 hi))
    rw [hi, hj]
    simp [RegType.pairsWith, RegType.highHalf?]

theorem sound_blank (locals params : Nat) : (blank locals params).Sound locals params := by
  refine ⟨List.length_replicate, List.length_replicate, fun reg i j hlo _ => ?_, fun i hlo => ?_⟩
  · have hmem := List.mem_of_getElem? hlo
    simp only [flat, blank, List.mem_append, List.mem_replicate] at hmem
    rcases hmem with ⟨-, heq⟩ | ⟨-, heq⟩ <;> exact absurd heq.symm (fixed_undefined_ne i)
  · exact absurd hlo (fixed_undefined_ne i)

/-! ## Other changes of frames -/

theorem Sound.clearResult (hF : F.Sound locals params) : F.clearResult.Sound locals params :=
  { hF with paired := ⟨hF.paired.registers, fun i hlo => absurd hlo (fixed_undefined_ne i)⟩ }

theorem Sound.setResult (hF : F.Sound locals params) (ht : t.Reachable) (h : Handle) :
    (F.setResult h t).2.Reachable ∧ (F.setResult h t).1.Sound locals params := by
  unfold HandleFrame.setResult
  rw [Lookup.bind_run (highHalf?_run ht h)]
  refine ⟨ht, { hF with paired := ⟨hF.paired.registers, fun i hlo => ?_⟩ }⟩
  have hlow : t.type h.index = .low i := (type_eq_half_iff ht (.inl rfl)).2 hlo
  show (Option.map Handle.fixed (t.type h.index).highHalf?).getD _ = _
  rw [hlow]
  rfl

/-- A handle that stands for no half may take the place of any other. -/
theorem Sound.replace (hF : F.Sound locals params) (ht : t.Reachable)
    (hwhole : (t.type h.index).isHalf = false) (old : Handle) :
    (F.mapRegisters fun a => if a = old then h else a).Sound locals params := by
  have hold : ∀ {side : WideKind → RegType}, side = .low ∨ side = .high → ∀ {k a},
      (if a = old then h else a) = .fixed (side k) → a = .fixed (side k) := by
    intro side hside k a hnew
    split at hnew
    · exact absurd hnew.symm (fixed_half_ne ht hwhole hside k)
    · exact hnew
  refine ⟨by simp [mapRegisters, hF.locals], by simp [mapRegisters, hF.params], ?_,
    hF.paired.result⟩
  show PairedRow (F.locals.map _ ++ F.params.map _)
  rw [← List.map_append]
  intro reg i j hlo hhi
  rw [List.getElem?_map] at hlo hhi
  obtain ⟨a, ha, hlo⟩ := Option.map_eq_some_iff.1 hlo
  obtain ⟨b, hb, hhi⟩ := Option.map_eq_some_iff.1 hhi
  rw [hold (.inl rfl) hlo] at ha
  rw [hold (.inr rfl) hhi] at hb
  exact hF.paired.registers reg i j ha hb

theorem Sound.invalidate (hF : F.Sound locals params) (marker : Handle) :
    (F.invalidate marker).Sound locals params :=
  hF.replace .initial (by decide +kernel) marker

/-- An initialized object is no half. -/
private theorem whole_initialized (ht : t.Reachable) (p : ClassPool) (h : Handle) :
    (Lookup.initialized p h t).2.Reachable ∧
      ((Lookup.initialized p h t).2.type (Lookup.initialized p h t).1.index).isHalf = false := by
  have hreference : ∀ d precise, (Lookup.ofReference p d precise t).2.Reachable ∧
      ((Lookup.ofReference p d precise t).2.type
        (Lookup.ofReference p d precise t).1.index).isHalf = false := by
    intro d precise
    obtain ⟨ht', -, hdenotes⟩ := Lookup.gives_ofReference p d precise ht
    refine ⟨ht', ?_⟩
    rw [TypeTable.Denotes.type_eq hdenotes]
    exact RegType.isHalf_ofReference p d precise
  have hconflict : t.Reachable ∧ (t.type (Handle.fixed .conflict).index).isHalf = false := by
    refine ⟨ht, ?_⟩
    rw [(TypeTable.denotes_fixed ht (by simp [TypeTable.fixedTypes])).type_eq]
    rfl
  unfold Lookup.initialized
  rw [Lookup.bind_run (rfl : Lookup.type h t = (t.type h.index, t))]
  cases t.type h.index with
  | uninitialized c allocation =>
    cases c with
    | named d => exact hreference d true
    | unissued n => exact hconflict
  | uninitializedThis c =>
    cases c with
    | named d => exact hreference d false
    | unissued n => exact hconflict
  | _ => exact hconflict

theorem Sound.markInitialized (hF : F.Sound locals params) (ht : t.Reachable) (p : ClassPool)
    (uninit : Handle) : (F.markInitialized p uninit t).2.Reachable ∧
      (F.markInitialized p uninit t).1.Sound locals params := by
  obtain ⟨ht', hwhole⟩ := whole_initialized ht p uninit
  have hreplaced := hF.replace ht' hwhole uninit
  exact ⟨ht', hreplaced.locals, hreplaced.params, hreplaced.paired.registers,
    hreplaced.paired.result⟩

end HandleFrame

/-! ## Families of frames -/

namespace InPlace

variable {locals params : Nat}

/-- The table is used on the way. -/
private theorem lookup_bind_run {α β : Type} {F : HandleFrame} {x : Lookup α} {a : α}
    (hx : x t = (a, t')) (k : α → InPlace β) :
    ((liftM x : InPlace α) >>= k).run.run F t = (k a).run.run F t' := by
  show (k (x t).1).run.run F (x t).2 = _
  rw [hx]

/-- The work leaves a sound frame and a reachable table behind. -/
def Maintains (locals params : Nat) (w : InPlace FrameAnswer) : Prop :=
  ∀ t F, t.Reachable → F.Sound locals params →
    (w.run.run F t).2.Reachable ∧ (w.run.run F t).1.2.Sound locals params

/-- Work that replaces the frame maintains what the new frame satisfies. -/
theorem maintains_change {work : HandleFrame → Lookup HandleFrame}
    (h : ∀ t F, t.Reachable → F.Sound locals params →
      (work F t).2.Reachable ∧ (work F t).1.Sound locals params) :
    Maintains locals params (change work) :=
  fun t F ht hF => h t F ht hF

theorem maintains_access (p : ClassPool) (a : FrameAccess) :
    Maintains locals params (a.run p) := by
  intro t F ht hF
  have hsettles := FrameAccess.settles_run ht p F a
  generalize (a.run p).run.run F t = outcome at hsettles
  generalize hok : F.flat.access t p a = answer at hsettles
  cases hsettles with
  | refused e => exact ⟨ht, hF⟩
  | @done x G hlocals within others =>
    obtain ⟨hpaired, hsize⟩ := hF.paired.becomes ht (FlatFrame.becomes_of_access hok)
    rw [HandleFrame.size_flat, HandleFrame.size_flat, HandleFrame.size, HandleFrame.size, hlocals,
      hF.params] at hsize
    exact ⟨ht, hlocals.trans hF.locals, Nat.add_left_cancel hsize, hpaired⟩

theorem maintains_absorb (p : ClassPool) {G : HandleFrame} (hG : G.Sound locals params) :
    Maintains locals params (absorb p G) := by
  intro t F ht hF
  obtain ⟨M, t', hm⟩ : ∃ M t', F.merge p G t = (M, t') := ⟨_, _, rfl⟩
  have habsorb : F.absorb p G t = ((M, M != F), t') := by
    rw [HandleFrame.absorb_eq, Lookup.bind_run hm]
    rfl
  have hrun : (absorb p G).run.run F t = ((.ok (.truth (M != F)), M), t') := by
    unfold absorb
    rw [get_bind_run, lookup_bind_run habsorb]
    rfl
  rw [hrun]
  exact HandleFrame.sound_merge ht hF hG hm

end InPlace

namespace FrameFamily

open InPlace (Maintains)

variable {s : FrameFamily} {count locals params : Nat}

/-- A family of so many sound frames over a reachable table. -/
structure Sound (count locals params : Nat) (s : FrameFamily) : Prop where
  reachable : s.table.Reachable
  count : s.frames.length = count
  frames : ∀ F ∈ s.frames, F.Sound locals params

theorem sound_start (pool : ClassPool) (count locals params : Nat) :
    (start pool count locals params).Sound count locals params := by
  refine ⟨.initial, List.length_replicate, fun F hF => ?_⟩
  obtain rfl := List.eq_of_mem_replicate hF
  exact HandleFrame.sound_blank locals params

theorem Sound.act (hs : s.Sound count locals params) {w : InPlace FrameAnswer}
    (hw : Maintains locals params w) (i : Nat) : (s.act i w).2.Sound count locals params := by
  unfold FrameFamily.act
  cases hi : s.frames[i]? with
  | none => exact hs
  | some F =>
    obtain ⟨ht, hF⟩ := hw s.table F hs.reachable (hs.frames F (List.mem_of_getElem? hi))
    refine ⟨ht, (List.length_set).trans hs.count, fun G hG => ?_⟩
    rcases List.mem_or_eq_of_mem_set hG with hG | rfl
    · exact hs.frames G hG
    · exact hF

theorem Sound.actWith (hs : s.Sound count locals params) {w : HandleFrame → InPlace FrameAnswer}
    (hw : ∀ G, G.Sound locals params → Maintains locals params (w G)) (i source : Nat) :
    (s.actWith i source w).2.Sound count locals params := by
  unfold FrameFamily.actWith
  cases hsource : s.frames[source]? with
  | none => exact hs
  | some G => exact hs.act (hw G (hs.frames G (List.mem_of_getElem? hsource))) i

/-- What holds of a family holds after one more operation. -/
theorem Sound.step (hs : s.Sound count locals params) (o : FamilyStep) :
    (s.step o).2.Sound count locals params := by
  cases o with
  | access i a => exact hs.act (InPlace.maintains_access s.pool a) i
  | copy i source =>
    refine hs.actWith (fun G hG => InPlace.maintains_change fun _ _ ht _ => ?_) i source
    exact ⟨ht, hG⟩
  | merge i source => exact hs.actWith (fun _ hG => InPlace.maintains_absorb s.pool hG) i source
  | setResult i h =>
    exact hs.act (InPlace.maintains_change fun _ _ ht hF => hF.setResult ht h) i
  | clearResult i =>
    exact hs.act (InPlace.maintains_change fun _ _ ht hF => ⟨ht, hF.clearResult⟩) i
  | markInitialized i uninit =>
    exact hs.act (InPlace.maintains_change fun _ _ ht hF => hF.markInitialized ht s.pool uninit) i
  | invalidate i marker =>
    exact hs.act (InPlace.maintains_change fun _ _ ht hF => ⟨ht, hF.invalidate marker⟩) i
  | enterType x => exact { hs with reachable := hs.reachable.intern x }
  | enterClass d => exact { hs with reachable := hs.reachable.internClass d }
  | exchange pool => exact { hs with reachable := .initial }

theorem Sound.run (hs : s.Sound count locals params) (steps : List FamilyStep) :
    (s.run steps).Sound count locals params := by
  induction steps generalizing s with
  | nil => exact hs
  | cons o steps ih => exact ih (hs.step o)

/-- In a family of blank frames of one shape, after any operations, every frame has that shape, and
    each low half with a high half after it makes a wide value with it. A low half left behind has
    its high half. -/
theorem run_paired (pool : ClassPool) (count locals params : Nat) (steps : List FamilyStep) :
    ((start pool count locals params).run steps).frames.length = count ∧
    ∀ F ∈ ((start pool count locals params).run steps).frames,
      F.locals.length = locals ∧ F.params.length = params ∧
        (F.view ((start pool count locals params).run steps).table).Paired := by
  have hs := (sound_start pool count locals params).run steps
  refine ⟨hs.count, fun F hF => ?_⟩
  have hsound := hs.frames F hF
  exact ⟨hsound.locals, hsound.params, hsound.view hs.reachable⟩

end FrameFamily

/-- Two frames of one local and two parameters. The first one holds a `long` that lies across the
    border, and refuses half of a `double`. The second one holds a wide constant that has taken the
    place of the low half of a `double`. At last the second one is merged into the first one. -/
def mergingSteps : List FamilyStep :=
  [.access 0 (.write 0 (.fixed (.low .long))),
    .access 0 (.writeSingle 2 (.fixed (.low .double))),
    .access 1 (.write 1 (.fixed (.low .double))),
    .access 1 (.write 0 (.fixed (.low .constant))),
    .setResult 1 (.fixed (.low .long)),
    .merge 0 1]

def mergedPairs : FrameFamily :=
  (FrameFamily.start .core 2 1 2).run mergingSteps

/-- The first one afterwards, with the `long` still in place. -/
def mergedPair : HandleFrame :=
  { HandleFrame.blank 1 2 with
    locals := [.fixed (.low .long)]
    params := [.fixed (.high .long), .fixed .conflict]
    result := (.fixed .conflict, .fixed .conflict) }

theorem mergedPairs_paired : mergedPair ∈ mergedPairs.frames ∧ mergedPairs.frames.length = 2 ∧
    mergedPair.locals.length = 1 ∧ mergedPair.params.length = 2 ∧
    (mergedPair.view mergedPairs.table).Paired := by
  have hmem : mergedPair ∈ mergedPairs.frames := by decide +kernel
  obtain ⟨hcount, hpaired⟩ := FrameFamily.run_paired .core 2 1 2 mergingSteps
  exact ⟨hmem, hcount, hpaired mergedPair hmem⟩

end BytecodeVerifier
