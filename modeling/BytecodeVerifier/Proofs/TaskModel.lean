import BytecodeVerifier.Proofs.ControlFlow
import BytecodeVerifier.Proofs.LayoutPasses
import BytecodeVerifier.Verifier

/-!
# Tasks and bodies

A task looks control flow up by position: where a label is placed, which handlers cover an
instruction, what is a branch target. `Task.Models` says that what it finds is the control flow of
the body (`mem_handlers`, `mem_jumps`, `canContinue_iff`), and `Method.models_of_task` that this is
so for every method whose structure has been checked.
-/

namespace BytecodeVerifier

/-! ## Label positions -/

namespace LabelMap

variable {m : LabelMap} {l : Label} {i : Nat}

/-- The positions of the labels of a body are where it places them. -/
private theorem position_iff_marks {b : Body} (hb : b.Labeled) (h : ofBody b = .ok m) :
    m.position l = .ok i ↔ b.Marks i l := by
  refine ⟨getElem?_of_position h, fun hmark => ?_⟩
  obtain ⟨j, hj⟩ := enter_complete 0 b.code h (.inr (List.mem_of_getElem? hmark))
  rwa [hb.unique hmark (getElem?_of_position h hj)]

/-- A range by positions covers what it covers by labels, and its handlers are where their labels
    are placed. -/
private theorem span_spec {b : Body} (hpos : ∀ {l i}, m.position l = .ok i ↔ b.Marks i l)
    (hb : b.Labeled) {r : TryRange} {s : Span} (h : m.span r = .ok s) :
    (s.covers i = true ↔ b.Covers r i) ∧
      (i ∈ s.targets ↔ ∃ l ∈ r.catches.map Prod.fst, b.Marks i l) := by
  obtain ⟨start, hstart, h⟩ := bind_eq_ok.1 h
  obtain ⟨stop, hstop, h⟩ := bind_eq_ok.1 h
  obtain ⟨handlers, hhandlers, h⟩ := bind_eq_ok.1 h
  cases h
  rw [hpos] at hstart hstop
  constructor
  · simp only [Span.covers, Bool.and_eq_true, decide_eq_true_eq]
    constructor
    · exact fun hi => ⟨start, stop, hstart, hstop, hi.1, hi.2⟩
    · rintro ⟨start', stop', hstart', hstop', hi⟩
      rw [hb.unique hstart hstart', hb.unique hstop hstop']
      exact hi
  · simp only [Span.targets, List.mem_map, mem_mapM_iff hhandlers, bind_eq_ok, hpos]
    constructor
    · rintro ⟨⟨j, d⟩, ⟨c, hc, j', hj', heq⟩, rfl⟩
      cases heq
      exact ⟨c.1, ⟨c, hc, rfl⟩, hj'⟩
    · rintro ⟨l, ⟨c, hc, rfl⟩, hi⟩
      exact ⟨(i, c.2), ⟨c, hc, i, hi, rfl⟩, rfl⟩

end LabelMap

/-! ## Sites and handlers -/

namespace Layout

variable {b : Body} {lay : Layout} {i j : Nat}

/-- The layout of a body describes its control flow. -/
structure Describes (lay : Layout) (b : Body) : Prop where
  size : lay.size = b.code.length
  position {l : Label} {i : Nat} : lay.labels.position l = .ok i ↔ b.Marks i l
  protects {i : Nat} : i < b.code.length → (lay.isProtected i = true ↔ ∃ r ∈ b.tries, b.Covers r i)
  handlers {i j : Nat} : j ∈ lay.handlersCovering i ↔
    ∃ r ∈ b.tries, b.Covers r i ∧ ∃ l ∈ r.catches.map Prod.fst, b.Marks j l
  site {i : Nat} {s : Site} : lay.site i = .ok s →
    i < b.code.length ∧ (s.isTarget = true ↔ b.IsTarget i) ∧ (s.isHandler = true ↔ b.IsHandler i)

theorem describes_of_ofBody (hb : b.Labeled) (h : ofBody b = .ok lay) : lay.Describes b := by
  obtain ⟨hlabels, hspans, branches, hbranches, hsites⟩ := parts_of_ofBody h
  have hpos : ∀ {l i}, lay.labels.position l = .ok i ↔ b.Marks i l :=
    LabelMap.position_iff_marks hb hlabels
  have hhandler : ∀ {i}, i ∈ lay.spans.flatMap Span.targets ↔ b.IsHandler i := by
    intro i
    simp only [List.mem_flatMap, mem_mapM_iff hspans, Body.IsHandler]
    constructor
    · rintro ⟨s, ⟨r, hr, hs⟩, hi⟩
      obtain ⟨l, hl, hi⟩ := (LabelMap.span_spec hpos hb hs).2.1 hi
      exact ⟨l, hi, r, hr, hl⟩
    · rintro ⟨l, hi, r, hr, hl⟩
      obtain ⟨s, hs⟩ := exists_of_mapM hspans hr
      exact ⟨s, ⟨r, hr, hs⟩, (LabelMap.span_spec hpos hb hs).2.2 ⟨l, hl, hi⟩⟩
  refine ⟨by simp [size, hsites], hpos, ?_, ?_, ?_⟩
  · intro i hi
    simp only [isProtected_iff hsites hi, mem_mapM_iff hspans]
    constructor
    · rintro ⟨s, ⟨r, hr, hs⟩, hcovers⟩
      exact ⟨r, hr, (LabelMap.span_spec hpos hb hs).1.1 hcovers⟩
    · rintro ⟨r, hr, hcovers⟩
      obtain ⟨s, hs⟩ := exists_of_mapM hspans hr
      exact ⟨s, ⟨r, hr, hs⟩, (LabelMap.span_spec hpos hb hs).1.2 hcovers⟩
  · intro i j
    simp only [handlersCovering, List.mem_flatMap, List.mem_filter, mem_mapM_iff hspans]
    constructor
    · rintro ⟨s, ⟨⟨r, hr, hs⟩, hcovers⟩, hj⟩
      exact ⟨r, hr, (LabelMap.span_spec hpos hb hs).1.1 hcovers,
        (LabelMap.span_spec hpos hb hs).2.1 hj⟩
    · rintro ⟨r, hr, hcovers, hj⟩
      obtain ⟨s, hs⟩ := exists_of_mapM hspans hr
      exact ⟨s, ⟨⟨r, hr, hs⟩, (LabelMap.span_spec hpos hb hs).1.2 hcovers⟩,
        (LabelMap.span_spec hpos hb hs).2.2 hj⟩
  · intro i s hs
    obtain ⟨hi, rfl⟩ := (site_eq_ok_iff hsites).1 hs
    refine ⟨hi, ?_, isHandler_siteAt.trans hhandler⟩
    simp only [siteAt, List.contains_iff_mem, List.cons_append, List.mem_cons, List.mem_append,
      mem_mapM_iff hbranches, hpos, hhandler]
    constructor
    -- the entry, a label referred to, or the label of a handler
    · rintro (rfl | ⟨l, hl, hi⟩ | hi)
      · exact .inl rfl
      · exact .inr ⟨l, hi, .inl hl⟩
      · exact hi.isTarget
    · rintro (rfl | ⟨l, hi, hl | hr⟩)
      · exact .inl rfl
      · exact .inr (.inl ⟨l, hl, hi⟩)
      · exact .inr (.inr ⟨l, hi, hr⟩)

end Layout

/-! ## Operations -/

namespace Operation

private theorem ofPlain?_spec {op : Opcode} {regs : List Nat} {o : Operation}
    (h : ofPlain? op regs = some o) : o.opcode = op ∧ o.targets = [] := by
  unfold ofPlain? at h
  split at h <;> cases h <;> exact ⟨rfl, rfl⟩

private theorem ofConstant?_spec {op : Opcode} {regs : List Nat} {c : Constant} {o : Operation}
    (h : ofConstant? op regs c = some o) : o.opcode = op ∧ o.targets = [] := by
  unfold ofConstant? at h
  split at h <;> cases h <;> exact ⟨rfl, rfl⟩

private theorem ofTarget?_spec {op : Opcode} {regs : List Nat} {l : Label} {o : Operation}
    (h : ofTarget? op regs l = some o) : o.opcode = op ∧ o.targets = [l] := by
  unfold ofTarget? at h
  split at h <;> cases h <;> exact ⟨rfl, rfl⟩

private theorem ofTable?_spec {op : Opcode} {regs : List Nat} {ls : List Label} {o : Operation}
    (h : ofTable? op regs ls = some o) : o.opcode = op ∧ o.targets = ls := by
  unfold ofTable? at h
  split at h <;> cases h
  exact ⟨rfl, rfl⟩

/-- An operation has the opcode of its instruction and refers to the same labels. -/
theorem ofInstruction?_spec {ins : Instruction} {o : Operation} (h : ofInstruction? ins = some o) :
    ins.opcode? = some o.opcode ∧ ins.targets = o.targets := by
  cases ins with
  | label => simp [ofInstruction?] at h
  | plain op rs => obtain ⟨rfl, ht⟩ := ofPlain?_spec h; exact ⟨rfl, ht.symm⟩
  | withConstant op rs c => obtain ⟨rfl, ht⟩ := ofConstant?_spec h; exact ⟨rfl, ht.symm⟩
  | withTarget op rs l => obtain ⟨rfl, ht⟩ := ofTarget?_spec h; exact ⟨rfl, ht.symm⟩
  | withTable op rs ks ls => obtain ⟨rfl, ht⟩ := ofTable?_spec h; exact ⟨rfl, ht.symm⟩

end Operation

/-- The operation at a position of a body. A label has none. -/
def Body.operation? (b : Body) (i : Nat) : Option Operation :=
  b.code[i]?.bind Operation.ofInstruction?

/-- Execution may arrive at position `j` other than by an exception: if a handler starts there, it
    does not take its exception. -/
def Body.Enterable (b : Body) (j : Nat) : Prop :=
  b.IsHandler j → ∀ o, b.operation? (j + 1) = some o → o.isMoveException = false

/-- An instruction that has passed the check of its operands has an operation, unless it is a
    label. -/
theorem Instruction.toOperation?_spec {ins : Instruction} {size : Nat} {o : Option Operation}
    (h : ins.toOperation? size = .ok o) :
    o = Operation.ofInstruction? ins ∧ (o = none → ∃ l, ins = .label l) := by
  unfold toOperation? at h
  split at h
  · cases h
    cases ins with
    | label l => exact ⟨rfl, fun _ => ⟨l, rfl⟩⟩
    | _ => simp_all [opcode?]
  · split at h
    · simp at h
    · split at h
      · rename_i ho
        cases h
        exact ⟨ho.symm, by simp⟩
      · simp at h

/-- The operations of a body, position by position. -/
theorem operationsFrom_spec {size pc : Nat} {code : List Instruction}
    {ops : List (Option Operation)} (h : operationsFrom size pc code = .ok ops) (i : Nat) :
    ops[i]?.join = code[i]?.bind Operation.ofInstruction? ∧
      ∀ ins, code[i]? = some ins → Operation.ofInstruction? ins = none → ∃ l, ins = .label l := by
  induction code generalizing pc ops i with
  | nil =>
    cases h
    simp
  | cons ins rest ih =>
    unfold operationsFrom at h
    split at h
    · exact nomatch h
    · rename_i o ho
      obtain ⟨rfl, hlabel⟩ := Instruction.toOperation?_spec ho
      cases hrest : operationsFrom size (pc + 1) rest with
      | error e => rw [hrest] at h; exact nomatch h
      | ok ops' =>
        rw [hrest] at h
        cases h
        cases i with
        | zero => simpa using hlabel
        | succ i => simpa using ih hrest i

/-! ## Tasks -/

namespace Task

variable {task : Task} {b : Body} {i j : Nat} {o : Operation}

/-- The task looks up the control flow of the body. -/
structure Models (task : Task) (b : Body) : Prop where
  labeled : b.Labeled
  layout : task.env.layout.Describes b
  operation (i : Nat) : task.operation? i = b.code[i]?.bind Operation.ofInstruction?
  label {i : Nat} {ins : Instruction} : b.code[i]? = some ins →
    Operation.ofInstruction? ins = none → ∃ l, ins = .label l

namespace Models

/-- Where there is an operation, there is its instruction. -/
theorem instruction (h : task.Models b) (ho : task.operation? i = some o) :
    ∃ ins, b.code[i]? = some ins ∧ Operation.ofInstruction? ins = some o := by
  rw [h.operation] at ho
  exact Option.bind_eq_some_iff.1 ho

/-- An instruction has an operation with its opcode. -/
theorem exists_operation (h : task.Models b) {ins : Instruction} {op : Opcode}
    (hins : b.code[i]? = some ins) (hop : ins.opcode? = some op) :
    ∃ o, task.operation? i = some o ∧ o.opcode = op := by
  rw [h.operation, hins, Option.bind_some]
  cases ho : Operation.ofInstruction? ins with
  | none =>
    obtain ⟨l, rfl⟩ := h.label hins ho
    exact nomatch hop
  | some o =>
    have hopcode := (Operation.ofInstruction?_spec ho).1
    exact ⟨o, rfl, Option.some.inj (hopcode.symm.trans hop)⟩

/-- Where there is none, there is a label. -/
theorem marks (h : task.Models b) (hi : i < b.code.length) (ho : task.operation? i = none) :
    ∃ l, b.Marks i l := by
  rw [h.operation, List.getElem?_eq_getElem hi] at ho
  obtain ⟨l, hl⟩ := h.label (List.getElem?_eq_getElem hi) ho
  exact ⟨l, by rw [Body.Marks, List.getElem?_eq_getElem hi, hl]⟩

theorem mem_handlers (h : task.Models b) (ho : task.operation? i = some o) :
    j ∈ task.handlers i o ↔ b.Edge i .exception j := by
  obtain ⟨ins, hins, hspec⟩ := h.instruction ho
  obtain ⟨hopcode, -⟩ := Operation.ofInstruction?_spec hspec
  have hi : i < b.code.length := (List.getElem?_eq_some_iff.1 hins).1
  unfold handlers
  constructor
  · intro hmem
    split at hmem
    · rename_i hthrow
      rw [Bool.and_eq_true] at hthrow
      obtain ⟨r, hr, hcovers, l, hl, hj⟩ := h.layout.handlers.1 hmem
      exact .exception hins (by simp [Instruction.canThrow, hopcode, hthrow.1]) hr hcovers hl hj
    · exact absurd hmem List.not_mem_nil
  · intro hedge
    cases hedge with
    | exception hins' hthrow hr hcovers hl hj =>
      cases hins.symm.trans hins'
      have hthrow : o.opcode.canThrow = true := by simpa [Instruction.canThrow, hopcode] using hthrow
      -- the range that covers the instruction has marked it
      rw [if_pos (by simp [hthrow, (h.layout.protects hi).2 ⟨_, hr, hcovers⟩])]
      exact h.layout.handlers.2 ⟨_, hr, hcovers, _, hl, hj⟩

theorem mem_jumps (h : task.Models b) (ho : task.operation? i = some o) {js : List Nat}
    (hjs : task.jumps o = .ok js) : j ∈ js ↔ b.Edge i .branch j := by
  obtain ⟨ins, hins, hspec⟩ := h.instruction ho
  obtain ⟨-, htargets⟩ := Operation.ofInstruction?_spec hspec
  rw [mem_mapM_iff hjs]
  simp only [h.layout.position, ← htargets]
  constructor
  · rintro ⟨l, hl, hj⟩
    exact .branch hins hl hj
  · intro hedge
    cases hedge with
    | branch hins' hl hj =>
      cases hins.symm.trans hins'
      exact ⟨_, hl, hj⟩

theorem canContinue_iff (h : task.Models b) (ho : task.operation? i = some o) :
    o.opcode.canContinue = true ↔ b.Edge i .next (i + 1) := by
  obtain ⟨ins, hins, hspec⟩ := h.instruction ho
  obtain ⟨hopcode, -⟩ := Operation.ofInstruction?_spec hspec
  constructor
  · exact fun hc => .next hins (by simp [Instruction.fallsThrough, hopcode, hc])
  · intro hedge
    cases hedge with
    | next hins' hfalls =>
      cases hins.symm.trans hins'
      simpa [Instruction.fallsThrough, hopcode] using hfalls

end Models

end Task

@[simp] theorem Failure.unplaced_eq_ok {ε α : Type} {f : ε → Violation} {x : Except ε α} {a : α} :
    unplaced f x = .ok a ↔ x = .ok a := by
  cases x <;> simp [unplaced]

/-- A method whose structure has been checked is modelled by its task. -/
theorem Method.models_of_task {p : ClassPool} {config : Config} {m : Method} {b : Body}
    {task : Task} (hb : b.Labeled) (h : m.task p config b = .ok task) :
    task.Models b ∧ task.env.pool = p ∧ task.env.method = m := by
  obtain ⟨_, -, h⟩ := bind_eq_ok.1 h
  obtain ⟨ops, hops, h⟩ := bind_eq_ok.1 h
  split at h
  · exact nomatch h
  obtain ⟨layout, hlayout, h⟩ := bind_eq_ok.1 h
  obtain ⟨_, -, h⟩ := bind_eq_ok.1 h
  cases h
  have hlayout : Layout.ofBody b = .ok layout := Failure.unplaced_eq_ok.1 hlayout
  have hoperation := operationsFrom_spec hops
  refine ⟨⟨hb, Layout.describes_of_ofBody hb hlayout, fun i => ?_, ?_⟩, rfl, rfl⟩
  · simpa [Task.operation?] using (hoperation i).1
  · exact fun {i ins} => (hoperation i).2 ins

end BytecodeVerifier
