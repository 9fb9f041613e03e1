import BytecodeVerifier.Code.NormalForm
import BytecodeVerifier.Proofs.Yields
import Mathlib.Data.List.Nodup

/-!
# Control flow of a body

Execution enters a body at its first position. From there it goes on to the next instruction, to the
label of a branch, or with an exception to a handler of a range that covers the instruction
(`Body.Edge`). Where it can arrive other than from the instruction before is a branch target
(`Body.IsTarget`).

In normal form every label is placed at most once, and the entry has a label
(`Body.labeled_of_normalize`).
-/

namespace BytecodeVerifier

/-- Execution may go on to what follows the instruction. -/
def Instruction.fallsThrough (i : Instruction) : Bool := i.opcode?.all Opcode.canContinue

/-- The instruction may raise an exception. -/
def Instruction.canThrow (i : Instruction) : Bool := i.opcode?.any Opcode.canThrow

/-- The ways to leave an instruction. -/
inductive EdgeKind where
  | next
  | branch
  | exception
  deriving DecidableEq, Repr

namespace Body

/-- The label `l` is placed at position `i`. -/
def Marks (b : Body) (i : Nat) (l : Label) : Prop := b.code[i]? = some (.label l)

/-- The range covers position `i`. -/
def Covers (b : Body) (r : TryRange) (i : Nat) : Prop :=
  ∃ start stop, b.Marks start r.start ∧ b.Marks stop r.stop ∧ start ≤ i ∧ i < stop

/-- Execution may go from position `i` to position `j`. -/
inductive Edge (b : Body) (i : Nat) : EdgeKind → Nat → Prop
  | next {ins : Instruction} : b.code[i]? = some ins → ins.fallsThrough = true →
      Edge b i .next (i + 1)
  | branch {ins : Instruction} {l : Label} {j : Nat} : b.code[i]? = some ins → l ∈ ins.targets →
      b.Marks j l → Edge b i .branch j
  | exception {ins : Instruction} {r : TryRange} {l : Label} {j : Nat} : b.code[i]? = some ins →
      ins.canThrow = true → r ∈ b.tries → b.Covers r i → l ∈ r.catches.map Prod.fst →
      b.Marks j l → Edge b i .exception j

/-- Execution can get to position `i` from the entry. -/
inductive Reachable (b : Body) : Nat → Prop
  | entry : Reachable b 0
  | step {i j : Nat} {k : EdgeKind} : Reachable b i → b.Edge i k j → Reachable b j

/-- A path through a body from its entry: the positions that it has left, each with the way it has
    left them, and the position where it has arrived. -/
inductive Path (b : Body) : List (Nat × EdgeKind) → Nat → Prop
  | entry : Path b [] 0
  | step {steps : List (Nat × EdgeKind)} {i j : Nat} {k : EdgeKind} : Path b steps i →
      b.Edge i k j → Path b (steps ++ [(i, k)]) j

/-- A handler starts at position `i`. -/
def IsHandler (b : Body) (i : Nat) : Prop :=
  ∃ l, b.Marks i l ∧ ∃ r ∈ b.tries, l ∈ r.catches.map Prod.fst

/-- Position `i` is the entry, or some branch or handler refers to it. -/
def IsTarget (b : Body) (i : Nat) : Prop :=
  i = 0 ∨ ∃ l, b.Marks i l ∧ (l ∈ b.code.flatMap Instruction.targets ∨
    ∃ r ∈ b.tries, l ∈ r.catches.map Prod.fst)

/-- Each label is placed at most once, and the first one at the entry. -/
structure Labeled (b : Body) : Prop where
  entry : b.Marks 0 ⟨0⟩
  unique {i j : Nat} {l : Label} : b.Marks i l → b.Marks j l → i = j

variable {b b' : Body} {i j : Nat} {k : EdgeKind} {steps : List (Nat × EdgeKind)}

theorem Path.reachable (h : b.Path steps i) : b.Reachable i := by
  induction h with
  | entry => exact .entry
  | step _ hedge ih => exact .step ih hedge

/-- Where a path arrives or passes, another one arrives that has not been there before. -/
theorem Path.exists_first_arrival {a : Nat} (h : b.Path steps i)
    (ha : a = i ∨ ∃ step ∈ steps, step.1 = a) :
    ∃ steps', b.Path steps' a ∧ ∀ step ∈ steps', step.1 ≠ a := by
  induction h with
  | entry =>
    have ha : a = 0 := by simpa using ha
    exact ⟨[], ha ▸ .entry, by simp⟩
  | @step steps i j k hpath hedge ih =>
    by_cases hbefore : a = i ∨ ∃ step ∈ steps, step.1 = a
    · exact ih hbefore
    -- the path itself has not been at `a` before its end
    · rw [not_or, not_exists] at hbefore
      have hnew : ∀ step ∈ steps ++ [(i, k)], step.1 ≠ a := by
        intro step hstep
        rcases List.mem_append.1 hstep with hstep | hstep
        · exact fun heq => hbefore.2 step ⟨hstep, heq⟩
        · rw [List.mem_singleton.1 hstep]
          exact fun heq => hbefore.1 heq.symm
      have haj : a = j := by
        refine ha.resolve_right ?_
        rintro ⟨step, hstep, heq⟩
        exact hnew step hstep heq
      exact ⟨_, haj ▸ .step hpath hedge, hnew⟩

/-- Only by falling through does execution arrive at what is no branch target. -/
theorem Edge.eq_next_or_isTarget (h : b.Edge i k j) : k = .next ∧ j = i + 1 ∨ b.IsTarget j := by
  cases h with
  | next => exact .inl ⟨rfl, rfl⟩
  | @branch ins l _ hins hl hj =>
    exact .inr (.inr ⟨l, hj, .inl (List.mem_flatMap.2 ⟨ins, List.mem_of_getElem? hins, hl⟩)⟩)
  | @exception ins r l _ _ _ hr _ hl hj => exact .inr (.inr ⟨l, hj, .inr ⟨r, hr, hl⟩⟩)

theorem IsHandler.isTarget (h : b.IsHandler i) : b.IsTarget i := by
  obtain ⟨l, hl, hr⟩ := h
  exact .inr ⟨l, hl, .inr hr⟩

/-- A branch target is a label. -/
theorem IsTarget.marks (hb : b.Labeled) (h : b.IsTarget i) : ∃ l, b.Marks i l := by
  rcases h with rfl | ⟨l, hl, -⟩
  · exact ⟨_, hb.entry⟩
  · exact ⟨l, hl⟩

theorem IsTarget.lt (hb : b.Labeled) (h : b.IsTarget i) : i < b.code.length := by
  obtain ⟨l, hl⟩ := h.marks hb
  exact (List.getElem?_eq_some_iff.1 hl).1

/-- Execution can only go on behind a label. -/
theorem Marks.eq_next {l : Label} (hl : b.Marks i l) (h : b.Edge i k j) :
    k = .next ∧ j = i + 1 := by
  cases h with
  | next => exact ⟨rfl, rfl⟩
  | branch hins htarget =>
    cases hl.symm.trans hins
    simp [Instruction.targets] at htarget
  | exception hins hthrow =>
    cases hl.symm.trans hins
    simp [Instruction.canThrow, Instruction.opcode?] at hthrow

theorem Marks.edge_next {l : Label} (hl : b.Marks i l) : b.Edge i .next (i + 1) := .next hl rfl

/-! ## Normal form -/

end Body

/-- What is no label, whether or not a label stands right in front, places none. -/
theorem Relabeling.placed?_eq_none {atLabel : Bool} {i : Instruction}
    (htrue : ∀ l, atLabel = true → i = .label l → False)
    (hfalse : ∀ l, atLabel = false → i = .label l → False) : i.placed? = none := by
  cases i with
  | label l =>
    cases atLabel with
    | true => exact (htrue l rfl rfl).elim
    | false => exact (hfalse l rfl rfl).elim
  | _ => rfl

/-- The labels of collapsed code are numbered in the order in which they are placed. -/
theorem Relabeling.placed_collapse (count : Nat) (atLabel : Bool) (code : List Instruction) :
    ∃ n, (collapse count atLabel code).code.filterMap Instruction.placed? =
      (List.range' count n).map Label.mk := by
  fun_induction collapse count atLabel code with
  | case1 => exact ⟨0, rfl⟩
  -- a label right behind a label is dropped
  | case2 count l rest r ih => exact ih
  | case3 count l rest r ih =>
    obtain ⟨n, hn⟩ := ih
    exact ⟨n + 1, by simp [Instruction.placed?, hn, List.range'_succ, r]⟩
  | case4 count atLabel i rest r hnot hnot' ih =>
    have hi := placed?_eq_none hnot hnot'
    obtain ⟨n, hn⟩ := ih
    exact ⟨n, by simpa [hi] using hn⟩

/-- The first label is `0`, and the numbers of the others go up from `1`. -/
theorem Relabeling.placed_ofCode (code : List Instruction) :
    ∃ n, (ofCode code).code.filterMap Instruction.placed? =
      (List.range' 0 (n + 1)).map Label.mk := by
  obtain ⟨n, hn⟩ := placed_collapse 1 true code
  exact ⟨n, by simp [ofCode, Instruction.placed?, hn, List.range'_succ]⟩

/-- No label is placed twice in collapsed code. -/
theorem Relabeling.nodup_placed_ofCode (code : List Instruction) :
    ((ofCode code).code.filterMap Instruction.placed?).Nodup := by
  obtain ⟨n, hplaced⟩ := placed_ofCode code
  rw [hplaced]
  exact List.Nodup.map (fun _ _ h => by injection h) List.nodup_range'

/-- A label that is placed once has one position. -/
theorem Instruction.position_unique {code : List Instruction} {i j : Nat} {l : Label}
    (hnodup : (code.filterMap placed?).Nodup) (hi : code[i]? = some (.label l))
    (hj : code[j]? = some (.label l)) : i = j := by
  obtain ⟨hilt, hi⟩ := List.getElem?_eq_some_iff.1 hi
  obtain ⟨hjlt, hj⟩ := List.getElem?_eq_some_iff.1 hj
  -- of two marks of one label neither can come before the other
  have hpairs := List.pairwise_iff_getElem.1 (List.pairwise_filterMap.1 hnodup)
  rcases Nat.lt_trichotomy i j with hlt | heq | hlt
  · exact absurd rfl (hpairs i j hilt hjlt hlt l (by rw [hi]; rfl) l (by rw [hj]; rfl))
  · exact heq
  · exact absurd rfl (hpairs j i hjlt hilt hlt l (by rw [hj]; rfl) l (by rw [hi]; rfl))

/-- Replacing what an instruction refers to keeps label marks, and makes none. -/
theorem Instruction.retarget_eq_label {ε : Type} {f : Label → Except ε Label} {i : Instruction}
    {l : Label} : i.retarget f = .ok (.label l) ↔ i = .label l := by
  cases i with
  | withTarget op rs t =>
    cases hf : f t <;> simp [retarget, hf, bind, Except.bind, pure, Except.pure]
  | withTable op rs ks ts =>
    cases hf : ts.mapM f <;> simp [retarget, hf, bind, Except.bind, pure, Except.pure]
  | _ => simp [retarget, pure, Except.pure]

namespace Body

variable {b b' : Body}

/-- The stages of a normalization that succeeds. -/
theorem normalize_eq_ok : b.normalize = .ok b' ↔
    (Relabeling.ofCode b.code).code.countP Instruction.isLabel ≤ Label.limit ∧
    b.firstPlacedTwice? = none ∧
    (Relabeling.ofCode b.code).code.mapM
      (Instruction.retarget (Relabeling.ofCode b.code).rename) = .ok b'.code ∧
    b.tries.mapM (TryRange.retarget (Relabeling.ofCode b.code).rename) = .ok b'.tries ∧
    b.lines.mapM (LineAnchor.retarget (Relabeling.ofCode b.code).rename) = .ok b'.lines ∧
    b'.labelCount = (Relabeling.ofCode b.code).code.countP Instruction.isLabel := by
  unfold normalize
  dsimp only
  split
  · rename_i hlimit
    simp [throw, throwThe, MonadExceptOf.throw, bind, Except.bind, Nat.not_le.2 hlimit]
  rename_i hlimit
  split
  · rename_i htwice
    obtain ⟨l, hl⟩ := Option.isSome_iff_exists.1 htwice
    simp [throw, throwThe, MonadExceptOf.throw, bind, Except.bind, hl]
  rename_i htwice
  simp only [Option.not_isSome_iff_eq_none] at htwice
  simp only [bind_eq_ok, Nat.not_lt.1 hlimit, htwice, true_and]
  constructor
  · rintro ⟨code, hcode, tries, htries, lines, hlines, h⟩
    cases h
    exact ⟨hcode, htries, hlines, rfl⟩
  · rintro ⟨hcode, htries, hlines, hcount⟩
    exact ⟨_, hcode, _, htries, _, hlines, by rw [← hcount]; rfl⟩

/-- A body in normal form has the code of a relabeling, with its references renamed. -/
theorem code_of_normalize (h : b.normalize = .ok b') :
    (Relabeling.ofCode b.code).code.mapM
      (Instruction.retarget (Relabeling.ofCode b.code).rename) = .ok b'.code :=
  (normalize_eq_ok.1 h).2.2.1

/-- In normal form every label is placed at most once, and the first one at the entry. -/
theorem labeled_of_normalize (h : b.normalize = .ok b') : b'.Labeled := by
  have hmarks : ∀ i l, b'.Marks i l ↔ (Relabeling.ofCode b.code).code[i]? = some (.label l) := by
    intro i l
    rw [Marks, getElem?_mapM_iff (code_of_normalize h)]
    simp only [Instruction.retarget_eq_label, exists_eq_right]
  refine ⟨(hmarks 0 _).2 rfl, fun {i j l} hi hj => ?_⟩
  rw [hmarks] at hi hj
  exact Instruction.position_unique (Relabeling.nodup_placed_ofCode b.code) hi hj

end Body

end BytecodeVerifier
