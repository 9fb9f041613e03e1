import BytecodeVerifier.Proofs.FrameMerge

/-!
# Room for change

`RegType.room` is a bound on how often a type can still change by merging, and `Frame.room` adds the
bounds of all types of a frame. Every merge that changes anything uses room up
(`RegType.room_merge_lt`, `Frame.room_merge_lt`), and there is only so much of it in a frame of a
given size (`Frame.room_le`).
-/

namespace BytecodeVerifier

namespace RegType

/-- The number of pairs of bounds that lie one inside the other, down from the widest. -/
def constantRoom (lo hi : Int32) : Nat := (0xffffffff - (hi.toInt - lo.toInt)).toNat

/-- Everything but a constant has less room than this. -/
def baseRoom (p : ClassPool) : Nat := 4 * p.maxHeight + 8

/-- How often a type can still change. -/
def room (p : ClassPool) : RegType → Nat
  | .conflict => 0
  | .undefined | .unissued _ | .float | .int | .uninitialized _ _ | .uninitializedThis _ => 1
  | .low .constant | .high .constant | .short | .char => 2
  | .low _ | .high _ => 1
  | .byte => 3
  | .boolean => 4
  | .unresolvedMerged => 2
  | .unresolved _ => 3
  | .reference (.unissued _) _ => 1
  | .reference (.named d) precise => 1 + 4 * p.height d + precise.toNat
  | .constant lo hi precise => baseRoom p + 2 * constantRoom lo hi + precise.toNat

/-- No type has more room than this. -/
def maxRoom (p : ClassPool) : Nat := baseRoom p + 0x200000000

variable {p : ClassPool} {a b t u : RegType}

private theorem constantRoom_lt {lo hi : Int32} (h : lo ≤ hi) :
    constantRoom lo hi < 0x100000000 := by
  have := Int32.le_iff_toInt_le.1 h
  unfold constantRoom
  omega

private theorem constantRoom_mono {lo hi lo' hi' : Int32} (hlo : lo' ≤ lo) (hhi : hi ≤ hi') :
    constantRoom lo' hi' ≤ constantRoom lo hi ∧
      (constantRoom lo' hi' = constantRoom lo hi → lo' = lo ∧ hi' = hi) := by
  have hlo := Int32.le_iff_toInt_le.1 hlo
  have hhi := Int32.le_iff_toInt_le.1 hhi
  have hmin := Int32.le_toInt lo'
  have hmax := Int32.toInt_lt hi'
  unfold constantRoom
  -- equal widths leave no room on either side
  refine ⟨by omega, fun heq => ⟨Int32.toInt_inj.1 ?_, Int32.toInt_inj.1 ?_⟩⟩ <;> omega

/-- Nothing but a conflict has no room. -/
private theorem room_pos (h : t ≠ .conflict) : 0 < t.room p := by
  cases t with
  | conflict => exact absurd rfl h
  | low k => cases k <;> simp [room]
  | high k => cases k <;> simp [room]
  | reference c => cases c <;> simp only [room] <;> omega
  | constant => simp only [room, baseRoom]; omega
  | _ => simp [room]

/-- A reference that is not null has less room than any constant. -/
private theorem room_lt_baseRoom (ht : t.WellFormed) (hnull : t.isNonNullReference = true) :
    t.room p < baseRoom p := by
  cases t with
  | reference c precise =>
    obtain ⟨d, rfl, hd⟩ := ht
    have := ClassPool.height_lt_maxHeight (p := p) hd
    have := precise.toNat_le
    simp only [room, baseRoom]
    omega
  | _ => simp_all [isNonNullReference, room, baseRoom]

theorem room_le (ht : t.WellFormed) : t.room p ≤ maxRoom p := by
  unfold maxRoom
  cases t with
  | constant lo hi precise =>
    have := constantRoom_lt ht
    have := precise.toNat_le
    simp only [room]
    omega
  | reference c precise =>
    have := room_lt_baseRoom (p := p) ht rfl
    omega
  | low k => cases k <;> simp only [room, baseRoom] <;> omega
  | high k => cases k <;> simp only [room, baseRoom] <;> omega
  | _ => simp only [room, baseRoom]; omega

/-- Null has more room than any reference that is not null. -/
private theorem room_lt_of_isZero (hzero : t.isZero = true) (hu : u.WellFormed)
    (hnull : u.isNonNullReference = true) : u.room p < t.room p := by
  have := room_lt_baseRoom (p := p) hu hnull
  cases t with
  | constant lo hi precise =>
    show u.room p < baseRoom p + 2 * constantRoom lo hi + precise.toNat
    omega
  | _ => simp [isZero, range?] at hzero

/-- A primitive type has less room than what is usable as it. -/
private theorem room_lt_of_fits (h : t.fits u = true) (hne : t ≠ u) : u.room p < t.room p := by
  cases u with
  | low k => cases k <;> cases t <;> simp_all [fits, fitsLongLow, fitsDoubleLow, room]
  | high k => cases k <;> cases t <;> simp_all [fits, fitsLongHigh, fitsDoubleHigh, room]
  | _ =>
    cases t <;> simp_all [fits, fitsBoolean, fitsByte, fitsShort, fitsChar, fitsInt.eq_def,
      fitsFloat, isConstantWithin, range?, room, baseRoom] <;> omega

/-- An initialized reference has more room than the root class, and more than `unresolvedMerged`
    unless it is the root class itself. -/
private theorem room_of_isInitialized (ht : t.WellFormed) (hinit : t.isInitialized = true) :
    (t ≠ .object → 1 < t.room p) ∧
      (t.isObject = false → t ≠ .unresolvedMerged → 2 < t.room p) := by
  cases t with
  | reference c precise =>
    obtain ⟨d, rfl, hd⟩ := ht
    by_cases hroot : d = .object
    -- of the root class only the precise form can still change
    · subst hroot
      cases precise <;> simp [object, isObject, room, ClassPool.height_object]
    · have := ClassPool.height_pos (p := p) hd hroot
      simp only [room]
      exact ⟨fun _ => by omega, fun _ _ => by omega⟩
  | constant => simp [room, baseRoom]; omega
  | _ => simp_all [isInitialized, isReference, isNonNullReference, isUninitialized, isZero, range?,
      room]

/-- Room decreases along the order, where there is no way back. -/
private theorem Below.room_lt (hp : p.Regular) (ht : t.WellFormed) (hu : u.WellFormed)
    (h : Below p t u) (hback : ¬Below p u t) : u.room p < t.room p := by
  have hne : t ≠ u := by
    rintro rfl
    exact hback (.refl t)
  cases h with
  | refl => exact absurd rfl hne
  | conflict => exact room_pos hne
  | @range lo hi lo' hi' precise hlo hhi =>
    obtain ⟨hle, heq⟩ := constantRoom_mono hlo hhi
    simp only [room, Bool.toNat_false, Nat.add_zero]
    by_cases hsame : constantRoom lo' hi' = constantRoom lo hi
    · -- the same bounds, so that only the precision can have been lost
      obtain ⟨rfl, rfl⟩ := heq hsame
      cases precise with
      | false => exact absurd rfl hne
      | true => simp
    · omega
  | primitive hfits => exact room_lt_of_fits hfits hne
  | null hzero hnull => exact room_lt_of_isZero hzero hu hnull
  | object hinit =>
    have := (room_of_isInitialized (p := p) ht hinit).1 hne
    simpa [room, RegType.object, ClassPool.height_object] using this
  | merged hinit hobject => exact (room_of_isInitialized ht hinit).2 hobject hne
  | @reference d e precise hwidens =>
    obtain ⟨d', hd', hd⟩ := ht
    obtain ⟨e', he', he⟩ := hu
    cases hd'
    cases he'
    obtain ⟨hle, hlt⟩ := hwidens.height_le hp hd he
    simp only [room, Bool.toNat_false, Nat.add_zero]
    by_cases hsame : p.Widens e d
    -- each class is above the other, so that only the precision can have been lost
    · cases precise with
      | false => exact absurd (.reference _ hsame) hback
      | true => simp only [Bool.toNat_true]; omega
    · have := hlt hsame
      omega

/-- A merge that changes a type uses room up. -/
theorem room_merge_lt (hp : p.Regular) (ha : a.WellFormed) (hb : b.WellFormed)
    (h : a.merge p b ≠ a) : (a.merge p b).room p < a.room p := by
  have hleft := below_merge_left hp.bounded hp.named a b
  have hright := below_merge_right hp.bounded hp.named a b
  refine hleft.room_lt hp ha (ha.merge hp hb) fun hback => h ?_
  exact merge_eq_left hp.rooted (hright.trans hp hb.ordered hback)

theorem room_merge_le (hp : p.Regular) (ha : a.WellFormed) (hb : b.WellFormed) :
    (a.merge p b).room p ≤ a.room p := by
  by_cases h : a.merge p b = a
  · rw [h]
  · exact Nat.le_of_lt (room_merge_lt hp ha hb h)

end RegType

namespace Frame

/-- The room of a row of registers. -/
def rowRoom (p : ClassPool) (row : List RegType) : Nat := row.foldr (fun t n => t.room p + n) 0

/-- How often a frame can still change. -/
def room (p : ClassPool) (f : Frame) : Nat :=
  rowRoom p f.locals + rowRoom p f.params + f.result.1.room p + f.result.2.room p +
    f.thisInitialized.toNat + f.monitors.elim 0 (fun _ => 1)

variable {p : ClassPool} {f g : Frame}

private theorem rowRoom_le (row : List RegType) (h : ∀ t ∈ row, t.WellFormed) :
    rowRoom p row ≤ row.length * RegType.maxRoom p := by
  induction row with
  | nil => simp [rowRoom]
  | cons t row ih =>
    simp only [List.mem_cons, forall_eq_or_imp] at h
    have := RegType.room_le (p := p) h.1
    have := ih h.2
    simp only [rowRoom, List.foldr_cons, List.length_cons, Nat.succ_mul] at this ⊢
    omega

/-- A frame with few registers has little room. -/
theorem room_le (hf : f.All RegType.WellFormed) :
    f.room p ≤ (f.size + 2) * RegType.maxRoom p + 2 := by
  rw [all_iff] at hf
  have hlocals := rowRoom_le (p := p) _ hf.1
  have hparams := rowRoom_le (p := p) _ hf.2.1
  have hlow := RegType.room_le (p := p) hf.2.2.1
  have hhigh := RegType.room_le (p := p) hf.2.2.2
  have hthis := f.thisInitialized.toNat_le
  have hmonitors : f.monitors.elim 0 (fun _ => 1) ≤ 1 := by cases f.monitors <;> simp
  simp only [room, size, Nat.add_mul]
  omega

/-- Merging rows uses room up, unless it changes nothing. -/
private theorem rowRoom_mergeRow (hp : p.Regular) (as bs : List RegType)
    (ha : ∀ t ∈ as, t.WellFormed) (hb : ∀ t ∈ bs, t.WellFormed) :
    rowRoom p (mergeRow p as bs) ≤ rowRoom p as ∧
      (mergeRow p as bs ≠ as → rowRoom p (mergeRow p as bs) < rowRoom p as) := by
  fun_induction mergeRow p as bs with
  | case1 => simp
  | case2 => simp
  | case3 a as b bs ih =>
    simp only [List.mem_cons, forall_eq_or_imp] at ha hb
    obtain ⟨hle, hlt⟩ := ih ha.2 hb.2
    have hfirst := RegType.room_merge_le hp ha.1 hb.1
    simp only [rowRoom, List.foldr_cons] at hle hlt ⊢
    refine ⟨by omega, fun hne => ?_⟩
    by_cases hsame : a.merge p b = a
    · have := hlt fun heq => hne (by rw [hsame, heq])
      omega
    · have := RegType.room_merge_lt hp ha.1 hb.1 hsame
      omega

/-- A merge that changes a frame uses room up. -/
theorem room_merge_lt (hp : p.Regular) (hf : f.All RegType.WellFormed)
    (hg : g.All RegType.WellFormed) (h : f.merge p g ≠ f) : (f.merge p g).room p < f.room p := by
  rw [all_iff] at hf hg
  obtain ⟨hlocals, hlocals'⟩ := rowRoom_mergeRow hp _ _ hf.1 hg.1
  obtain ⟨hparams, hparams'⟩ := rowRoom_mergeRow hp _ _ hf.2.1 hg.2.1
  have hlow := RegType.room_merge_le hp hf.2.2.1 hg.2.2.1
  have hlow' := RegType.room_merge_lt hp hf.2.2.1 hg.2.2.1
  have hhigh := RegType.room_merge_le hp hf.2.2.2 hg.2.2.2
  have hhigh' := RegType.room_merge_lt hp hf.2.2.2 hg.2.2.2
  have hthis : (f.thisInitialized && g.thisInitialized).toNat ≤ f.thisInitialized.toNat ∧
      (¬(f.thisInitialized = true → g.thisInitialized = true) →
        (f.thisInitialized && g.thisInitialized).toNat < f.thisInitialized.toNat) := by
    cases f.thisInitialized <;> cases g.thisInitialized <;> simp
  have hmonitors : (f.merge p g).monitors.elim 0 (fun _ => 1) ≤ f.monitors.elim 0 (fun _ => 1) ∧
      (¬(f.monitors = none ∨ f.monitors = g.monitors) →
        (f.merge p g).monitors.elim 0 (fun _ => 1) < f.monitors.elim 0 (fun _ => 1)) := by
    by_cases hm : f.monitors = g.monitors
    · simp [merge, hm]
    · have hnone : (f.merge p g).monitors = none := if_neg hm
      rw [hnone]
      cases f.monitors <;> simp
  -- some part has changed, and no part has gained room
  have hpart := mt merge_eq_left_iff.2 h
  simp only [Classical.not_and_iff_not_or_not] at hpart
  change rowRoom p (mergeRow p f.locals g.locals) + rowRoom p (mergeRow p f.params g.params) +
    (f.result.1.merge p g.result.1).room p + (f.result.2.merge p g.result.2).room p +
    (f.thisInitialized && g.thisInitialized).toNat + (f.merge p g).monitors.elim 0 (fun _ => 1) <
    f.room p
  unfold room
  rcases hpart with h | h | h | h | h | h
  · have := hlocals' h; omega
  · have := hparams' h; omega
  · have := hlow' h; omega
  · have := hhigh' h; omega
  · have := hthis.2 h; omega
  · have := hmonitors.2 h; omega

end Frame

end BytecodeVerifier
