import BytecodeVerifier.Code.Assembler
import BytecodeVerifier.Proofs.TaskModel

/-!
# Resolving labels

A body that the assembler accepts can be laid out. It has a normal form (`Body.exists_normalize`)
unless it has too many labels, a label of the normal form is placed wherever it is referred to
(`Body.resolved_of_normalize`), and so every label has a position (`Layout.exists_ofBody`).
-/

namespace BytecodeVerifier

variable {ε : Type} {f : Label → Except ε Label} {l l' : Label}

/-! ## Replacing labels -/

namespace Instruction

variable {i i' : Instruction}

theorem exists_retarget (h : ∀ l ∈ i.targets, ∃ l', f l = .ok l') :
    ∃ i', i.retarget f = .ok i' := by
  cases i with
  | withTarget op rs l =>
    obtain ⟨l', hl'⟩ := h l (List.mem_singleton.2 rfl)
    exact ⟨_, bind_eq_ok.2 ⟨l', hl', rfl⟩⟩
  | withTable op rs ks ls =>
    obtain ⟨ls', hls'⟩ := exists_mapM_eq_ok h
    exact ⟨_, bind_eq_ok.2 ⟨ls', hls', rfl⟩⟩
  | _ => exact ⟨_, rfl⟩

/-- Only labels are replaced. -/
theorem retarget_spec (h : i.retarget f = .ok i') :
    i'.constant? = i.constant? ∧ ∀ l' ∈ i'.targets, ∃ l ∈ i.targets, f l = .ok l' := by
  cases i with
  | withTarget op rs l =>
    obtain ⟨l', hl', h⟩ := bind_eq_ok.1 h
    cases h
    simpa [constant?, targets] using hl'
  | withTable op rs ks ls =>
    obtain ⟨ls', hls', h⟩ := bind_eq_ok.1 h
    cases h
    exact ⟨rfl, fun l' => (mem_mapM_iff hls').1⟩
  | _ =>
    cases h
    exact ⟨rfl, by simp [targets]⟩

theorem placed?_eq_some {l : Label} : i.placed? = some l ↔ i = .label l := by
  cases i <;> simp [placed?]

end Instruction

namespace TryRange

variable {r r' : TryRange}

theorem mem_references : l ∈ r.references ↔ l = r.start ∨ l = r.stop ∨
    (∃ h ∈ r.handlers, h.label = l) ∨ r.catchAll = some l := by
  simp [references, catches, eq_comm]

theorem exists_retarget (h : ∀ l ∈ r.references, ∃ l', f l = .ok l') :
    ∃ r', r.retarget f = .ok r' := by
  simp only [mem_references] at h
  obtain ⟨handlers, hhandlers⟩ := exists_mapM_eq_ok
    (f := fun c : CatchHandler => do return { c with label := ← f c.label }) (l := r.handlers)
    fun c hc => by
      obtain ⟨l', hl'⟩ := h c.label (.inr (.inr (.inl ⟨c, hc, rfl⟩)))
      exact ⟨_, bind_eq_ok.2 ⟨l', hl', rfl⟩⟩
  obtain ⟨start, hstart⟩ := h r.start (.inl rfl)
  obtain ⟨stop, hstop⟩ := h r.stop (.inr (.inl rfl))
  obtain ⟨catchAll, hcatchAll⟩ : ∃ c, r.catchAll.mapM f = .ok c := by
    cases hc : r.catchAll with
    | none => exact ⟨none, rfl⟩
    | some l =>
      obtain ⟨l', hl'⟩ := h l (.inr (.inr (.inr hc)))
      exact ⟨some l', bind_eq_ok.2 ⟨l', hl', rfl⟩⟩
  exact ⟨_, bind_eq_ok.2 ⟨_, hhandlers, bind_eq_ok.2 ⟨_, hstart, bind_eq_ok.2 ⟨_, hstop,
    bind_eq_ok.2 ⟨_, hcatchAll, rfl⟩⟩⟩⟩⟩

theorem mem_references_of_retarget (h : r.retarget f = .ok r') (hl' : l' ∈ r'.references) :
    ∃ l ∈ r.references, f l = .ok l' := by
  obtain ⟨handlers, hhandlers, h⟩ := bind_eq_ok.1 h
  obtain ⟨start, hstart, h⟩ := bind_eq_ok.1 h
  obtain ⟨stop, hstop, h⟩ := bind_eq_ok.1 h
  obtain ⟨catchAll, hcatchAll, h⟩ := bind_eq_ok.1 h
  cases h
  simp only [mem_references] at hl' ⊢
  rcases hl' with rfl | rfl | ⟨c', hc', rfl⟩ | hl'
  · exact ⟨r.start, .inl rfl, hstart⟩
  · exact ⟨r.stop, .inr (.inl rfl), hstop⟩
  · obtain ⟨c, hc, hcc'⟩ := (mem_mapM_iff hhandlers).1 hc'
    obtain ⟨l', hl', hcc'⟩ := bind_eq_ok.1 hcc'
    cases hcc'
    exact ⟨c.label, .inr (.inr (.inl ⟨c, hc, rfl⟩)), hl'⟩
  · cases hc : r.catchAll with
    | none =>
      rw [hc] at hcatchAll
      cases hcatchAll
      cases hl'
    | some l =>
      rw [hc] at hcatchAll
      obtain ⟨l'', hl'', hcatchAll⟩ := bind_eq_ok.1 hcatchAll
      cases hcatchAll
      cases hl'
      exact ⟨l, .inr (.inr (.inr rfl)), hl''⟩

end TryRange

/-! ## Collapsing runs of labels -/

namespace Relabeling

variable {code : List Instruction} {count : Nat} {atLabel : Bool}

/-- Every label that is placed has a new name. -/
theorem map_fst_renamed (count : Nat) (atLabel : Bool) (code : List Instruction) :
    (collapse count atLabel code).renamed.map Prod.fst = code.filterMap Instruction.placed? := by
  fun_induction collapse count atLabel code with
  | case1 => rfl
  | case2 count l rest r ih => simpa [Instruction.placed?] using ih
  | case3 count l rest r ih => simpa [Instruction.placed?] using ih
  | case4 count atLabel i rest r hnot hnot' ih =>
    have hi := placed?_eq_none hnot hnot'
    simpa [hi] using ih

/-- Every new name is placed, unless it is that of the label right in front. -/
theorem mem_code_of_mem_renamed (h : (l, l') ∈ (collapse count atLabel code).renamed) :
    atLabel = true ∧ l' = ⟨count - 1⟩ ∨ .label l' ∈ (collapse count atLabel code).code := by
  fun_induction collapse count atLabel code with
  | case1 => simp at h
  -- a label that is dropped takes the name of the one in front of it
  | case2 count l₁ rest r ih =>
    rcases List.mem_cons.1 h with heq | h
    · cases heq
      exact .inl ⟨rfl, rfl⟩
    · exact ih h
  -- a label that is kept is placed, and those right behind it take its name
  | case3 count l₁ rest r ih =>
    right
    rcases List.mem_cons.1 h with heq | h
    · cases heq
      exact List.mem_cons_self
    · rcases ih h with ⟨-, rfl⟩ | h
      · exact List.mem_cons_self
      · exact List.mem_cons_of_mem _ h
  | case4 count atLabel i rest r hnot hnot' ih =>
    rcases ih h with ⟨hfalse, -⟩ | h
    · cases hfalse
    · exact .inr (List.mem_cons_of_mem _ h)

/-- Collapsed code has nothing but labels that the code did not have. -/
theorem mem_of_mem_collapse {i : Instruction} (h : i ∈ (collapse count atLabel code).code) :
    i ∈ code ∨ ∃ l, i = .label l := by
  fun_induction collapse count atLabel code with
  | case1 => simp at h
  | case2 count l rest r ih => exact (ih h).imp_left (List.mem_cons_of_mem _)
  | case3 count l rest r ih =>
    rcases List.mem_cons.1 h with rfl | h
    · exact .inr ⟨_, rfl⟩
    · exact (ih h).imp_left (List.mem_cons_of_mem _)
  | case4 count atLabel j rest r hnot hnot' ih =>
    rcases List.mem_cons.1 h with rfl | h
    · exact .inl List.mem_cons_self
    · exact (ih h).imp_left (List.mem_cons_of_mem _)

theorem length_collapse_le (count : Nat) (atLabel : Bool) (code : List Instruction) :
    (collapse count atLabel code).code.length ≤ code.length := by
  fun_induction collapse count atLabel code with
  | case1 => exact Nat.le_refl 0
  | case2 count l rest r ih => exact Nat.le_succ_of_le ih
  | case3 count l rest r ih => exact Nat.succ_le_succ ih
  | case4 count atLabel i rest r hnot hnot' ih => exact Nat.succ_le_succ ih

/-- Collapsed code refers to the labels to which the code refers. -/
theorem targets_ofCode {i : Instruction} (h : i ∈ (ofCode code).code) (hl : l ∈ i.targets) :
    i ∈ code := by
  rcases List.mem_cons.1 h with rfl | h
  · simp [Instruction.targets] at hl
  · rcases mem_of_mem_collapse h with h | ⟨l, rfl⟩
    · exact h
    · simp [Instruction.targets] at hl

/-- A label that is placed can be renamed. -/
theorem exists_rename (h : l ∈ code.filterMap Instruction.placed?) :
    ∃ l', (ofCode code).rename l = .ok l' := by
  have hmem : l ∈ (ofCode code).renamed.map Prod.fst := by
    rw [ofCode, map_fst_renamed]
    exact h
  obtain ⟨l', hl'⟩ : ∃ l', (ofCode code).renamed.lookup l = some l' := by
    rw [← Option.isSome_iff_exists, Option.isSome_iff_ne_none, ne_eq, List.lookup_eq_none_iff]
    intro hnone
    obtain ⟨⟨_, l'⟩, hl', rfl⟩ := List.mem_map.1 hmem
    simpa using hnone _ hl'
  exact ⟨l', by simp [rename, hl']⟩

/-- The new name of a label is placed. -/
theorem mem_code_of_rename (h : (ofCode code).rename l = .ok l') :
    .label l' ∈ (ofCode code).code := by
  unfold rename at h
  split at h
  · rename_i hl'
    cases h
    obtain ⟨pre, post, hsplit, -⟩ := List.lookup_eq_some_iff.1 hl'
    have hmem : (l, l') ∈ (ofCode code).renamed := by simp [hsplit]
    rcases mem_code_of_mem_renamed hmem with ⟨-, rfl⟩ | hmem
    · exact List.mem_cons_self
    · exact List.mem_cons_of_mem _ hmem
  · cases h

/-- The labels of collapsed code are numbered from zero. -/
theorem id_lt_of_mem_ofCode (h : .label l ∈ (ofCode code).code) :
    l.id < (ofCode code).code.countP Instruction.isLabel := by
  obtain ⟨n, hplaced⟩ := placed_ofCode code
  have hcount : (ofCode code).code.countP Instruction.isLabel = n + 1 := by
    have hlength := congrArg List.length hplaced
    rw [List.length_filterMap_eq_countP, List.length_map, List.length_range'] at hlength
    exact hlength
  have hmem : l ∈ (List.range' 0 (n + 1)).map Label.mk := by
    rw [← hplaced]
    exact List.mem_filterMap.2 ⟨_, h, rfl⟩
  obtain ⟨k, hk, rfl⟩ := List.mem_map.1 hmem
  rw [hcount]
  simpa using hk

end Relabeling

/-! ## Normal form -/

namespace Body

variable {b b' : Body}

/-- Every label that the body refers to is placed, and every label that it places is below its
    number of labels. -/
structure Resolved (b : Body) : Prop where
  placed : ∀ l ∈ b.references, l ∈ b.placed
  counted : ∀ l ∈ b.placed, l.id < b.labelCount

theorem mem_placed : l ∈ b.placed ↔ .label l ∈ b.code := by
  simp [placed, Instruction.placed?_eq_some]

theorem mem_references : l ∈ b.references ↔ (∃ i ∈ b.code, l ∈ i.targets) ∨
    (∃ r ∈ b.tries, l ∈ r.references) ∨ ∃ a ∈ b.lines, a.label = l := by
  simp [references]

/-- A body has a normal form if every label is placed at most once, every label that it refers to is
    placed, and there are not too many of them. -/
theorem exists_normalize (htwice : b.firstPlacedTwice? = none)
    (hplaced : ∀ l ∈ b.references, l ∈ b.placed) (hsize : b.code.length < Label.limit) :
    ∃ b', b.normalize = .ok b' := by
  simp only [mem_references] at hplaced
  have hrename : ∀ l ∈ b.placed, ∃ l', (Relabeling.ofCode b.code).rename l = .ok l' :=
    fun l hl => Relabeling.exists_rename hl
  have hlimit : (Relabeling.ofCode b.code).code.countP Instruction.isLabel ≤ Label.limit :=
    calc (Relabeling.ofCode b.code).code.countP Instruction.isLabel
        ≤ (Relabeling.ofCode b.code).code.length := List.countP_le_length
      _ ≤ b.code.length + 1 := Nat.succ_le_succ (Relabeling.length_collapse_le 1 true b.code)
      _ ≤ Label.limit := hsize
  obtain ⟨code, hcode⟩ := exists_mapM_eq_ok
    (f := Instruction.retarget (Relabeling.ofCode b.code).rename)
    (l := (Relabeling.ofCode b.code).code) fun i hi => Instruction.exists_retarget fun l hl =>
      hrename l (hplaced l (.inl ⟨i, Relabeling.targets_ofCode hi hl, hl⟩))
  obtain ⟨tries, htries⟩ := exists_mapM_eq_ok
    (f := TryRange.retarget (Relabeling.ofCode b.code).rename) (l := b.tries) fun r hr =>
      TryRange.exists_retarget fun l hl => hrename l (hplaced l (.inr (.inl ⟨r, hr, hl⟩)))
  obtain ⟨lines, hlines⟩ := exists_mapM_eq_ok
    (f := LineAnchor.retarget (Relabeling.ofCode b.code).rename) (l := b.lines) fun a ha => by
      obtain ⟨l', hl'⟩ := hrename a.label (hplaced a.label (.inr (.inr ⟨a, ha, rfl⟩)))
      exact ⟨_, bind_eq_ok.2 ⟨l', hl', rfl⟩⟩
  exact ⟨⟨code, tries, lines, _⟩,
    normalize_eq_ok.2 ⟨hlimit, htwice, hcode, htries, hlines, rfl⟩⟩

/-- In normal form labels are placed where they are referred to, and numbered from zero. -/
theorem resolved_of_normalize (h : b.normalize = .ok b') : b'.Resolved := by
  obtain ⟨-, -, hcode, htries, hlines, hcount⟩ := normalize_eq_ok.1 h
  have hplaced : ∀ l, l ∈ b'.placed ↔ .label l ∈ (Relabeling.ofCode b.code).code := by
    intro l
    rw [mem_placed, mem_mapM_iff hcode]
    simp only [Instruction.retarget_eq_label, exists_eq_right]
  have hrenamed : ∀ {l l'}, (Relabeling.ofCode b.code).rename l = .ok l' → l' ∈ b'.placed :=
    fun h => (hplaced _).2 (Relabeling.mem_code_of_rename h)
  constructor
  · -- a reference of the normal form is the new name of one of the body
    intro l' hl'
    rcases mem_references.1 hl' with ⟨i', hi', hl'⟩ | ⟨r', hr', hl'⟩ | ⟨a', ha', rfl⟩
    · obtain ⟨i, -, hii'⟩ := (mem_mapM_iff hcode).1 hi'
      obtain ⟨l, -, hl⟩ := (Instruction.retarget_spec hii').2 l' hl'
      exact hrenamed hl
    · obtain ⟨r, -, hrr'⟩ := (mem_mapM_iff htries).1 hr'
      obtain ⟨l, -, hl⟩ := TryRange.mem_references_of_retarget hrr' hl'
      exact hrenamed hl
    · obtain ⟨a, -, haa'⟩ := (mem_mapM_iff hlines).1 ha'
      obtain ⟨l', hrename, haa'⟩ := bind_eq_ok.1 haa'
      cases haa'
      exact hrenamed hrename
  · intro l hl
    rw [hcount]
    exact Relabeling.id_lt_of_mem_ofCode ((hplaced l).1 hl)

/-- The normal form has at most one instruction more, the label at its entry. -/
theorem length_le_of_normalize (h : b.normalize = .ok b') :
    b'.code.length ≤ b.code.length + 1 := by
  have hcount : b'.code.countP (fun _ => true) =
      (Relabeling.ofCode b.code).code.countP (fun _ => true) :=
    countP_of_mapM (code_of_normalize h) fun _ _ _ => rfl
  rw [List.countP_true] at hcount
  rw [hcount]
  exact Nat.succ_le_succ (Relabeling.length_collapse_le 1 true b.code)

/-- The normal form has no constants but those of the body. -/
theorem constant_of_normalize (h : b.normalize = .ok b') {i' : Instruction} {c : Constant}
    (hi' : i' ∈ b'.code) (hc : i'.constant? = some c) : ∃ i ∈ b.code, i.constant? = some c := by
  obtain ⟨i, hi, hii'⟩ := (mem_mapM_iff (code_of_normalize h)).1 hi'
  rw [(Instruction.retarget_spec hii').1] at hc
  rcases List.mem_cons.1 hi with rfl | hi
  · cases hc
  · rcases Relabeling.mem_of_mem_collapse hi with hi | ⟨l, rfl⟩
    · exact ⟨i, hi, hc⟩
    · cases hc

end Body

/-- The assembler accepts a body if no label is placed twice and each that is referred to is
    placed. -/
theorem Assembler.finish_eq_ok {a : Assembler} {b : Body} : a.finish = .ok b ↔
    a.body = b ∧ b.firstPlacedTwice? = none ∧ ∀ l ∈ b.references, l ∈ b.placed := by
  unfold finish
  split
  · rename_i l hl
    simp only [reduceCtorEq, false_iff]
    rintro ⟨rfl, hnone, -⟩
    rw [hl] at hnone
    cases hnone
  · rename_i hnone
    split
    · rename_i l hl
      simp only [reduceCtorEq, false_iff]
      rintro ⟨rfl, -, hplaced⟩
      have hmem := hplaced l (List.mem_of_find?_eq_some hl)
      have hnot := List.find?_some hl
      simp [hmem] at hnot
    · rename_i hfind
      simp only [List.find?_eq_none, Bool.not_eq_true', Bool.not_eq_false,
        List.contains_iff_mem] at hfind
      constructor
      · intro h
        cases h
        exact ⟨rfl, hnone, hfind⟩
      · rintro ⟨rfl, -, -⟩
        rfl

/-! ## Layout -/

/-- The labels of code are entered if each is below the number of labels. -/
theorem LabelMap.exists_enter (m : LabelMap) (start : Nat) (code : List Instruction)
    (h : ∀ l, .label l ∈ code → l.id < m.positions.size) : ∃ m', m.enter start code = .ok m' := by
  fun_induction enter m start code with
  | case1 m => exact ⟨m, rfl⟩
  | case2 m start l rest hlt ih =>
    refine ih fun l' hl' => ?_
    rw [Array.size_setIfInBounds]
    exact h l' (List.mem_cons_of_mem _ hl')
  | case3 m start l rest hge => exact absurd (h l List.mem_cons_self) hge
  | case4 m start i rest hnot ih => exact ih fun l hl => h l (List.mem_cons_of_mem _ hl)

/-- A body whose labels are resolved can be laid out. -/
theorem Layout.exists_ofBody {b : Body} (h : b.Resolved) : ∃ lay, ofBody b = .ok lay := by
  rw [ofBody_eq]
  obtain ⟨labels, hlabels⟩ : ∃ labels, LabelMap.ofBody b = .ok labels := by
    refine LabelMap.exists_enter _ 0 b.code fun l hl => ?_
    rw [Array.size_replicate]
    exact h.counted l (Body.mem_placed.2 hl)
  have hposition : ∀ l ∈ b.references, ∃ i, labels.position l = .ok i := fun l hl =>
    LabelMap.enter_complete 0 b.code hlabels (.inr (Body.mem_placed.1 (h.placed l hl)))
  simp only [Body.mem_references] at hposition
  obtain ⟨spans, hspans⟩ := exists_mapM_eq_ok (f := labels.span) (l := b.tries) fun r hr => by
    have hrange : ∀ l ∈ r.references, ∃ i, labels.position l = .ok i :=
      fun l hl => hposition l (.inr (.inl ⟨r, hr, hl⟩))
    obtain ⟨start, hstart⟩ := hrange r.start List.mem_cons_self
    obtain ⟨stop, hstop⟩ := hrange r.stop (List.mem_cons_of_mem _ List.mem_cons_self)
    obtain ⟨handlers, hhandlers⟩ := exists_mapM_eq_ok
      (f := fun c : Label × Option Descriptor => do return (← labels.position c.1, c.2))
      (l := r.catches) fun c hc => by
        have hmem : c.1 ∈ r.references :=
          List.mem_cons_of_mem _ (List.mem_cons_of_mem _ (List.mem_map_of_mem hc))
        obtain ⟨i, hi⟩ := hrange c.1 hmem
        exact ⟨_, bind_eq_ok.2 ⟨i, hi, rfl⟩⟩
    exact ⟨_, bind_eq_ok.2 ⟨start, hstart, bind_eq_ok.2 ⟨stop, hstop,
      bind_eq_ok.2 ⟨handlers, hhandlers, rfl⟩⟩⟩⟩
  obtain ⟨branches, hbranches⟩ := exists_mapM_eq_ok (f := labels.position)
    (l := b.code.flatMap Instruction.targets) fun l hl =>
      hposition l (.inl (List.mem_flatMap.1 hl))
  exact ⟨_, bind_eq_ok.2 ⟨labels, hlabels, bind_eq_ok.2 ⟨spans, hspans,
    bind_eq_ok.2 ⟨branches, hbranches, rfl⟩⟩⟩⟩

end BytecodeVerifier
