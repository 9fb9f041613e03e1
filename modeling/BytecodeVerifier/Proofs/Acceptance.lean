import BytecodeVerifier.Proofs.LabelResolution
import BytecodeVerifier.Proofs.ProgramPoints

/-!
# Accepting a body

The assembler checks the labels of a body before it hands the body out, and normalization finds out
about them when it renames them. Each goes through the body in its own way. `Body.WellLabeled` says
what both of them ask for, with one case of `Body.Refers` for each place from which a body can refer
to a label. The two accept the same bodies (`Assembler.finish_ok_iff_normalize_ok`), so that a body
which the assembler has handed out never makes normalization fail.
-/

namespace BytecodeVerifier

namespace Body

/-- The body refers to the label. -/
inductive Refers (b : Body) : Label → Prop
  | branch {op : Opcode} {regs : List Register} {l : Label} :
      .withTarget op regs l ∈ b.code → Refers b l
  | switchCase {op : Opcode} {regs : List Register} {keys : List Int32} {ls : List Label}
      {l : Label} : .withTable op regs keys ls ∈ b.code → l ∈ ls → Refers b l
  | tryStart {r : TryRange} : r ∈ b.tries → Refers b r.start
  | tryStop {r : TryRange} : r ∈ b.tries → Refers b r.stop
  | handler {r : TryRange} {h : CatchHandler} : r ∈ b.tries → h ∈ r.handlers → Refers b h.label
  | catchAll {r : TryRange} {l : Label} : r ∈ b.tries → r.catchAll = some l → Refers b l
  | line {a : LineAnchor} : a ∈ b.lines → Refers b a.label

/-- No label is placed twice, and every label that is referred to is placed. -/
structure WellLabeled (b : Body) : Prop where
  once : b.placed.Nodup
  resolved : ∀ l, b.Refers l → .label l ∈ b.code

/-- The label is the first to be placed a second time: the code in front of that place has placed it
    already, and has placed no label twice. -/
def RepeatsFirst (b : Body) (l : Label) : Prop :=
  ∃ before after, b.code = before ++ .label l :: after ∧ .label l ∈ before ∧
    (before.filterMap Instruction.placed?).Nodup

variable {b n : Body} {l : Label}

/-- The references of a body are listed completely. -/
theorem refers_iff : b.Refers l ↔ l ∈ b.references := by
  rw [mem_references]
  constructor
  · intro h
    cases h with
    | branch hi => exact .inl ⟨_, hi, List.mem_singleton.2 rfl⟩
    | switchCase hi hl => exact .inl ⟨_, hi, hl⟩
    | tryStart hr => exact .inr (.inl ⟨_, hr, TryRange.mem_references.2 (.inl rfl)⟩)
    | tryStop hr => exact .inr (.inl ⟨_, hr, TryRange.mem_references.2 (.inr (.inl rfl))⟩)
    | handler hr hh =>
      exact .inr (.inl ⟨_, hr, TryRange.mem_references.2 (.inr (.inr (.inl ⟨_, hh, rfl⟩)))⟩)
    | catchAll hr hl =>
      exact .inr (.inl ⟨_, hr, TryRange.mem_references.2 (.inr (.inr (.inr hl)))⟩)
    | line ha => exact .inr (.inr ⟨_, ha, rfl⟩)
  · rintro (⟨i, hi, hl⟩ | ⟨r, hr, hl⟩ | ⟨a, ha, rfl⟩)
    · cases i with
      | withTarget op regs target =>
        obtain rfl := List.mem_singleton.1 hl
        exact .branch hi
      | withTable op regs keys ls => exact .switchCase hi hl
      | _ => exact absurd hl List.not_mem_nil
    · rcases TryRange.mem_references.1 hl with rfl | rfl | ⟨h, hh, rfl⟩ | hall
      · exact .tryStart hr
      · exact .tryStop hr
      · exact .handler hr hh
      · exact .catchAll hr hall
    · exact .line ha

theorem wellLabeled_iff :
    b.WellLabeled ↔ b.firstPlacedTwice? = none ∧ ∀ l ∈ b.references, l ∈ b.placed := by
  have honce : b.firstPlacedTwice? = none ↔ b.placed.Nodup := by
    simp [firstPlacedTwice?, firstRepeated?_eq_none_iff]
  constructor
  · rintro ⟨hnodup, hresolved⟩
    exact ⟨honce.2 hnodup, fun l hl => mem_placed.2 (hresolved l (refers_iff.2 hl))⟩
  · rintro ⟨hnone, hplaced⟩
    exact ⟨honce.1 hnone, fun l hl => mem_placed.1 (hplaced l (refers_iff.1 hl))⟩

/-! ## Labels placed twice -/

/-- The search ends at the first label that it has met before. -/
theorem exists_of_firstRepeated? {seen ls : List Label} (h : firstRepeated? seen ls = some l) :
    ∃ before after, ls = before ++ l :: after ∧ (l ∈ before ∨ l ∈ seen) ∧ before.Nodup ∧
      ∀ l' ∈ before, l' ∉ seen := by
  induction ls generalizing seen with
  | nil => cases h
  | cons l₁ ls ih =>
    rw [firstRepeated?] at h
    split at h
    · rename_i hl₁
      cases h
      exact ⟨[], ls, rfl, .inr hl₁, .nil, by simp⟩
    · rename_i hl₁
      -- from here on `l₁` counts as met
      obtain ⟨before, after, rfl, hl, hnodup, hnew⟩ := ih h
      refine ⟨l₁ :: before, after, rfl, ?_, ?_, ?_⟩
      · rcases hl with hl | hl
        · exact .inl (List.mem_cons_of_mem _ hl)
        · rcases List.mem_cons.1 hl with rfl | hl
          · exact .inl List.mem_cons_self
          · exact .inr hl
      · exact List.nodup_cons.2 ⟨fun hmem => hnew l₁ hmem List.mem_cons_self, hnodup⟩
      · intro l' hl'
        rcases List.mem_cons.1 hl' with rfl | hl'
        · exact hl₁
        · exact fun hseen => hnew l' hl' (List.mem_cons_of_mem _ hseen)

theorem repeatsFirst_of_firstPlacedTwice? (h : b.firstPlacedTwice? = some l) :
    b.RepeatsFirst l := by
  obtain ⟨before, after, hplaced, hl, hnodup, -⟩ := exists_of_firstRepeated? h
  -- the place of the label in the list of labels is a place in the code
  obtain ⟨code₁, code₂, hcode, rfl, hafter⟩ := List.filterMap_eq_append_iff.1 hplaced
  obtain ⟨ops, i, code₃, rfl, hops, hi, -⟩ := List.filterMap_eq_cons_iff.1 hafter
  obtain rfl := Instruction.placed?_eq_some.1 hi
  have hnone : ops.filterMap Instruction.placed? = [] := List.filterMap_eq_nil_iff.2 hops
  refine ⟨code₁ ++ ops, code₃, by simp [hcode], ?_, ?_⟩
  · have hmem : l ∈ code₁.filterMap Instruction.placed? := by simpa using hl
    obtain ⟨j, hj, hjl⟩ := List.mem_filterMap.1 hmem
    obtain rfl := Instruction.placed?_eq_some.1 hjl
    exact List.mem_append_left _ hj
  · rw [List.filterMap_append, hnone, List.append_nil]
    exact hnodup

end Body

/-! ## Normalization -/

section Retarget

variable {ε : Type} {f : Label → Except ε Label} {l : Label}

/-- If an instruction can be retargeted, then every label to which it refers can be replaced. -/
theorem Instruction.exists_of_retarget {i i' : Instruction} (h : i.retarget f = .ok i')
    (hl : l ∈ i.targets) : ∃ l', f l = .ok l' := by
  cases i with
  | withTarget op rs target =>
    obtain rfl := List.mem_singleton.1 hl
    obtain ⟨l', hl', -⟩ := bind_eq_ok.1 h
    exact ⟨l', hl'⟩
  | withTable op rs ks ls =>
    obtain ⟨ls', hls', -⟩ := bind_eq_ok.1 h
    exact exists_of_mapM hls' hl
  | _ => exact absurd hl List.not_mem_nil

theorem TryRange.exists_of_retarget {r r' : TryRange} (h : r.retarget f = .ok r')
    (hl : l ∈ r.references) : ∃ l', f l = .ok l' := by
  obtain ⟨handlers, hhandlers, h⟩ := bind_eq_ok.1 h
  obtain ⟨start, hstart, h⟩ := bind_eq_ok.1 h
  obtain ⟨stop, hstop, h⟩ := bind_eq_ok.1 h
  obtain ⟨catchAll, hcatchAll, -⟩ := bind_eq_ok.1 h
  rcases TryRange.mem_references.1 hl with rfl | rfl | ⟨c, hc, rfl⟩ | hall
  · exact ⟨start, hstart⟩
  · exact ⟨stop, hstop⟩
  · obtain ⟨c', hc'⟩ := exists_of_mapM hhandlers hc
    obtain ⟨l', hl', -⟩ := bind_eq_ok.1 hc'
    exact ⟨l', hl'⟩
  · rw [hall] at hcatchAll
    obtain ⟨l', hl', -⟩ := bind_eq_ok.1 hcatchAll
    exact ⟨l', hl'⟩

end Retarget

namespace Relabeling

variable {code : List Instruction} {l l' : Label} {i : Instruction}

/-- Only a label that is placed can be renamed. -/
theorem mem_placed_of_rename (h : (ofCode code).rename l = .ok l') :
    l ∈ code.filterMap Instruction.placed? := by
  obtain ⟨k, ⟨i, hi, -⟩, -⟩ := placesAt_of_rename h
  exact List.mem_filterMap.2 ⟨_, List.mem_of_getElem? hi, rfl⟩

/-- Collapsed code keeps every instruction that refers to a label. -/
theorem mem_ofCode_of_targets (hi : i ∈ code) (hl : l ∈ i.targets) : i ∈ (ofCode code).code := by
  have hoperation : i.isOperation = true := by
    cases i with
    | label => exact absurd hl List.not_mem_nil
    | _ => rfl
  have hmem : i ∈ (collapse 1 true code).code.filter Instruction.isOperation := by
    rw [filter_collapse]
    exact List.mem_filter.2 ⟨hi, hoperation⟩
  exact List.mem_cons_of_mem _ (List.mem_filter.1 hmem).1

end Relabeling

namespace Body

variable {b n : Body}

/-- Only a body that is well labeled has a normal form. -/
theorem wellLabeled_of_normalize (h : b.normalize = .ok n) : b.WellLabeled := by
  obtain ⟨-, htwice, hcode, htries, hlines, -⟩ := normalize_eq_ok.1 h
  refine wellLabeled_iff.2 ⟨htwice, fun l hl => ?_⟩
  -- each kind of reference has been renamed in its own traversal
  obtain ⟨l', hl'⟩ : ∃ l', (Relabeling.ofCode b.code).rename l = .ok l' := by
    rcases mem_references.1 hl with ⟨i, hi, hl⟩ | ⟨r, hr, hl⟩ | ⟨a, ha, rfl⟩
    · obtain ⟨i', hi'⟩ := exists_of_mapM hcode (Relabeling.mem_ofCode_of_targets hi hl)
      exact Instruction.exists_of_retarget hi' hl
    · obtain ⟨r', hr'⟩ := exists_of_mapM htries hr
      exact TryRange.exists_of_retarget hr' hl
    · obtain ⟨a', ha'⟩ := exists_of_mapM hlines ha
      obtain ⟨l', hl', -⟩ := bind_eq_ok.1 ha'
      exact ⟨l', hl'⟩
  exact Relabeling.mem_placed_of_rename hl'

end Body

/-! ## The assembler -/

namespace Assembler

/-- What the assembler answers, and when. -/
theorem finish_cases (a : Assembler) :
    a.body.WellLabeled ∧ a.finish = .ok a.body ∨
      (∃ l, a.body.RepeatsFirst l ∧ a.finish = .error (.duplicateLabel l)) ∨
        a.body.placed.Nodup ∧
          ∃ l, a.body.Refers l ∧ .label l ∉ a.body.code ∧ a.finish = .error (.unplacedLabel l) := by
  cases htwice : a.body.firstPlacedTwice? with
  | some l =>
    refine .inr (.inl ⟨l, Body.repeatsFirst_of_firstPlacedTwice? htwice, ?_⟩)
    rw [finish, htwice]
  | none =>
    have hnodup : a.body.placed.Nodup := (Body.firstRepeated?_eq_none_iff.1 htwice).1
    cases hfind : a.body.references.find? (fun l => !a.body.placed.contains l) with
    | some l =>
      have hl : l ∉ a.body.placed := by simpa using List.find?_some hfind
      refine .inr (.inr ⟨hnodup, l, Body.refers_iff.2 (List.mem_of_find?_eq_some hfind), ?_, ?_⟩)
      · exact fun hmem => hl (Body.mem_placed.2 hmem)
      · rw [finish, htwice]
        dsimp only
        rw [hfind]
    | none =>
      have hall : ∀ l ∈ a.body.references, l ∈ a.body.placed := by
        simpa [List.find?_eq_none] using hfind
      refine .inl ⟨Body.wellLabeled_iff.2 ⟨htwice, hall⟩, ?_⟩
      rw [finish, htwice]
      dsimp only
      rw [hfind]

/-- Whatever steps have led to it, a body of fewer instructions than there are label numbers is
    handed out exactly if it has a normal form, and that is so exactly if it is well labeled.
    Otherwise the assembler names the first label that is placed a second time or, if no label is,
    one that is referred to and not placed. -/
theorem finish_ok_iff_normalize_ok (a : Assembler) (hsize : a.body.code.length < Label.limit) :
    ((∃ b, a.finish = .ok b) ↔ ∃ n, a.body.normalize = .ok n) ∧
      ((∃ b, a.finish = .ok b) ↔ a.body.WellLabeled) ∧
      (¬a.body.WellLabeled →
        (∃ l, a.body.RepeatsFirst l ∧ a.finish = .error (.duplicateLabel l)) ∨
          a.body.placed.Nodup ∧ ∃ l, a.body.Refers l ∧ .label l ∉ a.body.code ∧
            a.finish = .error (.unplacedLabel l)) := by
  have hfinish : (∃ b, a.finish = .ok b) ↔ a.body.WellLabeled := by
    constructor
    · rintro ⟨b, hb⟩
      obtain ⟨rfl, hwell⟩ := finish_eq_ok.1 hb
      exact Body.wellLabeled_iff.2 hwell
    · intro h
      exact ⟨a.body, finish_eq_ok.2 ⟨rfl, Body.wellLabeled_iff.1 h⟩⟩
  have hnormalize : (∃ n, a.body.normalize = .ok n) ↔ a.body.WellLabeled := by
    constructor
    · rintro ⟨n, hn⟩
      exact Body.wellLabeled_of_normalize hn
    · intro h
      obtain ⟨htwice, hplaced⟩ := Body.wellLabeled_iff.1 h
      exact Body.exists_normalize htwice hplaced hsize
  refine ⟨hfinish.trans hnormalize.symm, hfinish, fun h => ?_⟩
  exact (finish_cases a).resolve_left fun hok => h hok.1

end Assembler

/-- A label is placed twice, and another one is referred to in between and not placed. -/
def doublyPlaced : Assembler :=
  ((({} : Assembler).here.2.goto ⟨5⟩).plain .returnVoid []).place ⟨0⟩

/-- Of the two faults the assembler names the label that is placed twice. -/
theorem doublyPlaced_refused : doublyPlaced.body.code.length < Label.limit ∧
    doublyPlaced.finish = .error (.duplicateLabel ⟨0⟩) ∧
    ¬(∃ n, doublyPlaced.body.normalize = .ok n) ∧ ¬doublyPlaced.body.WellLabeled := by
  have hsize : doublyPlaced.body.code.length < Label.limit := by decide
  have hfinish : doublyPlaced.finish = .error (.duplicateLabel ⟨0⟩) := by decide +kernel
  have hnot : ¬∃ b, doublyPlaced.finish = .ok b := by simp [hfinish]
  obtain ⟨hnormalize, hwell, -⟩ := doublyPlaced.finish_ok_iff_normalize_ok hsize
  exact ⟨hsize, hfinish, hnormalize.not.1 hnot, hwell.not.1 hnot⟩

end BytecodeVerifier
