import BytecodeVerifier.Proofs.Transfer
import BytecodeVerifier.Proofs.Worklist

/-!
# Verified methods

A verified method has the frames at the labels that were reached. They are the frames that the
worklist has stored (`frame?_eq_stored?`), and so they are closed under execution
(`Method.verified_of_verify`).
-/

namespace BytecodeVerifier

/-- The frame at position `i`, if a label that was reached is placed there. -/
def VerifiedMethod.frame? (v : VerifiedMethod) (i : Nat) : Option Frame :=
  (v.body.code[i]?.bind Instruction.placed?).bind v.state?

/-! ## Frames after an operation -/

namespace Task

variable {task : Task} {i : Nat} {f g : Frame}

theorem after_yields (h : task.after i f = .ok g) :
    task.operation? i = none ∧ g = f ∨ ∃ o, task.operation? i = some o ∧
      (task.env.transfer i o (o.meets f)).Yields g := by
  unfold after at h
  split at h
  · exact .inr ⟨_, ‹_›, ReportT.yields_of_outcome h⟩
  · cases h
    exact .inl ⟨‹_›, rfl⟩

theorem after_cases (h : task.after i f = .ok g) :
    task.operation? i = none ∧ g = f ∨ ∃ o, task.operation? i = some o ∧
      task.env.Effect o (o.meets f) g := by
  rcases after_yields h with hnone | ⟨o, ho, hyields⟩
  · exact .inl hnone
  · exact .inr ⟨o, ho, task.env.transfer_cases hyields⟩

/-- What operations cannot break holds of all types afterwards. -/
theorem after_all {Q : RegType → Prop} (hQ : RegType.Stable task.env.pool Q)
    (h : task.after i f = .ok g) (hf : f.All Q) : g.All Q := by
  rcases after_cases h with ⟨-, rfl⟩ | ⟨o, -, heffect⟩
  · exact hf
  · exact heffect.all _ hQ (o.all_meets (hQ.fresh RegType.isComputed_undefined.toIsFresh) hf)

theorem after_shape (h : task.after i f = .ok g) : g.shape = f.shape := by
  rcases after_cases h with ⟨-, rfl⟩ | ⟨o, -, heffect⟩
  · rfl
  · exact (heffect.shape _).trans (o.shape_meets f)

end Task

/-! ## The entry -/

namespace Method

variable {p : ClassPool} {m : Method} {entry : Frame}

/-- Parameters go to the registers from `reg` on. -/
private theorem assigns_writeParams {f f' : Frame} {reg : Nat} (params : List Descriptor)
    (h : writeParams p f reg params = .ok f') :
    ∃ ws, f.Assigns ws RegType.IsComputed f' ∧ ∀ r ∈ ws, reg ≤ r := by
  induction params generalizing f reg with
  | nil =>
    cases h
    exact ⟨[], .refl _, by simp⟩
  | cons param params ih =>
    unfold writeParams at h
    dsimp only at h
    split at h
    · exact nomatch h
    · split at h
      · exact nomatch h
      · rename_i f₁ hwrite
        have hfirst := Frame.assigns_write (P := RegType.IsComputed) (fun _ => id)
          (RegType.isComputed_ofDescriptor p param false) hwrite
        obtain ⟨ws, hrest, hws⟩ := ih h
        refine ⟨_, hfirst.append hrest, fun r hr => ?_⟩
        rcases List.mem_append.1 hr with hr | hr
        · exact le_of_mem_extent hr
        · exact Nat.le_of_add_right_le (hws r hr)

private theorem blank_all {Q : RegType → Prop} (hQ : Q .undefined) (locals params : Nat) :
    (Frame.blank locals params).All Q := by
  refine Frame.all_iff.2 ⟨?_, ?_, hQ, hQ⟩ <;>
    · intro t ht
      exact List.eq_of_mem_replicate ht ▸ hQ

/-- On entry the registers are blank, then the receiver is written, then the parameters. -/
private theorem entryFrame_cases (h : m.entryFrame p (m.classType p) = .ok entry) :
    ∃ f ws, Frame.Assigns f ws RegType.IsComputed entry ∧ (∀ r ∈ ws, m.locals ≤ r) ∧
      (f = Frame.blank m.locals m.ins ∧ m.isStatic = true ∨ f =
        { (Frame.blank m.locals m.ins).put m.locals (if m.entersUninitialized then
            (m.classType p).asUninitializedThis else m.classType p) with
          thisInitialized := !m.entersUninitialized }) := by
  unfold entryFrame at h
  dsimp only at h
  split at h
  · obtain ⟨ws, hassigns, hws⟩ := assigns_writeParams _ h
    exact ⟨_, ws, hassigns, hws, .inl ⟨rfl, ‹_›⟩⟩
  · split at h
    · exact nomatch h
    · rename_i f hwrite
      obtain rfl := Frame.writeSingle_eq_ok hwrite
      obtain ⟨ws, hassigns, hws⟩ := assigns_writeParams _ h
      exact ⟨_, ws, hassigns, fun r hr => Nat.le_of_succ_le (hws r hr), .inr rfl⟩

/-- On entry every type is fresh, but for that of a receiver on which a constructor is still to be
    called. -/
theorem entryFrame_all {Q : RegType → Prop} (hQ : RegType.Stable p Q)
    (hthis : m.entersUninitialized = true → Q (m.classType p).asUninitializedThis)
    (h : m.entryFrame p (m.classType p) = .ok entry) : entry.All Q := by
  have hblank := blank_all (hQ.fresh RegType.isComputed_undefined.toIsFresh) m.locals m.ins
  obtain ⟨f, ws, hassigns, -, hf⟩ := entryFrame_cases h
  have hevolves : f.Evolves p entry :=
    hassigns.evolves fun _ ht => Frame.supplies_of_isFresh ht.toIsFresh
  rcases hf with ⟨rfl, -⟩ | rfl
  · exact hevolves.all hQ hblank
  · refine hevolves.all hQ (hblank.put m.locals ?_)
    -- the receiver of a constructor is the only type that is not fresh
    split
    · exact hthis ‹_›
    · exact hQ.fresh (RegType.isComputed_ofReference p m.owner false).toIsFresh

theorem entryFrame_wellFormed (hp : p.Regular) (h : m.entryFrame p (m.classType p) = .ok entry) :
    entry.All RegType.WellFormed := by
  refine entryFrame_all (RegType.stable_wellFormed hp) (fun _ => ?_) h
  unfold RegType.asUninitializedThis
  split <;> trivial

/-- Whether a constructor is still to be called on the receiver. -/
theorem entryFrame_thisInitialized (h : m.entryFrame p (m.classType p) = .ok entry) :
    entry.thisInitialized = !m.entersUninitialized := by
  obtain ⟨f, ws, hassigns, -, ⟨rfl, hstatic⟩ | rfl⟩ := entryFrame_cases h
  · rw [hassigns.this]
    simp [Frame.blank, entersUninitialized, isConstructor, hstatic]
  · rw [hassigns.this]

theorem entryFrame_shape (h : m.entryFrame p (m.classType p) = .ok entry) :
    entry.shape = (m.locals, m.ins) := by
  have hblank : (Frame.blank m.locals m.ins).shape = (m.locals, m.ins) := by
    simp [Frame.shape, Frame.blank]
  obtain ⟨f, ws, hassigns, -, ⟨rfl, -⟩ | rfl⟩ := entryFrame_cases h
  · exact hassigns.shape.trans hblank
  · exact hassigns.shape.trans ((Frame.shape_put ..).trans hblank)

/-- On entry no call has left a value behind. -/
theorem entryFrame_result (h : m.entryFrame p (m.classType p) = .ok entry) :
    entry.result.1.IsComputed := by
  obtain ⟨f, ws, hassigns, -, hf⟩ := entryFrame_cases h
  have hblank : f.result = Frame.noResult := by
    rcases hf with ⟨rfl, -⟩ | rfl
    · rfl
    · unfold Frame.put
      split <;> rfl
  rcases hassigns.result with hsame | hcomputed
  · rw [hsame, hblank]
    exact RegType.isComputed_undefined
  · exact hcomputed.1

/-- On entry no local has been written, and of the other registers only that of the receiver can
    hold an object on which no constructor has run. -/
theorem entryFrame_get? {reg : Nat} {t : RegType}
    (h : m.entryFrame p (m.classType p) = .ok entry) (ht : entry.get? reg = some t) :
    (reg < m.locals → t = .undefined) ∧ (t.IsComputed ∨ reg = m.locals ∧
      m.entersUninitialized = true ∧ t = (m.classType p).asUninitializedThis) := by
  obtain ⟨f, ws, hassigns, hws, hf⟩ := entryFrame_cases h
  by_cases hreg : reg ∈ ws
  · exact ⟨fun hlt => absurd (hws reg hreg) (Nat.not_le.2 hlt), .inl (hassigns.written hreg ht)⟩
  rw [hassigns.kept hreg] at ht
  rcases hf with ⟨rfl, -⟩ | rfl
  · obtain rfl := Frame.get?_blank ht
    exact ⟨fun _ => rfl, .inl RegType.isComputed_undefined⟩
  · change ((Frame.blank m.locals m.ins).put m.locals _).get? reg = some t at ht
    rw [Frame.get?_put] at ht
    split at ht
    · rename_i hthis
      obtain ⟨_, -, rfl⟩ := Option.map_eq_some_iff.1 ht
      refine ⟨fun hlt => absurd hthis (Nat.ne_of_lt hlt), ?_⟩
      split
      · exact .inr ⟨hthis, ‹_›, rfl⟩
      · exact .inl (RegType.isComputed_ofReference p m.owner false)
    · obtain rfl := Frame.get?_blank ht
      exact ⟨fun _ => rfl, .inl RegType.isComputed_undefined⟩

theorem writeParams_ne_fault {f : Frame} {reg : Nat} {e : Fault}
    (params : List Descriptor) : writeParams p f reg params ≠ .error (.fault e) := by
  fun_induction writeParams p f reg params with
  | case1 => simp
  | case2 => simp
  | case3 => simp
  | case4 => assumption

theorem entryFrame_ne_fault {t : RegType} {e : Fault} :
    m.entryFrame p t ≠ .error (.fault e) := by
  unfold entryFrame
  dsimp only
  split
  · exact writeParams_ne_fault _
  · split
    · simp
    · exact writeParams_ne_fault _

end Method

/-! ## Stored frames -/

theorem mem_reached {code : List Instruction} {points : Array Point} {ins : Instruction}
    {f : Frame} : (ins, f) ∈ (code.zip points.toList).filterMap
        (fun (i, point) => point.entry.map (i, ·)) ↔
      ∃ i : Nat, code[i]? = some ins ∧ points[i]?.bind Point.entry = some f := by
  simp only [List.mem_filterMap, Option.map_eq_some_iff, Prod.mk.injEq, Option.bind_eq_some_iff]
  constructor
  · rintro ⟨⟨ins, point⟩, hmem, _, hf, rfl, rfl⟩
    obtain ⟨i, hi⟩ := List.mem_iff_getElem?.1 hmem
    obtain ⟨hins, hpoint⟩ := List.getElem?_zip_eq_some.1 hi
    exact ⟨i, hins, point, by simpa using hpoint, hf⟩
  · rintro ⟨i, hins, point, hpoint, hf⟩
    refine ⟨(ins, point), List.mem_of_getElem? (i := i) ?_, f, hf, rfl, rfl⟩
    exact List.getElem?_zip_eq_some.2 ⟨hins, by simpa using hpoint⟩

/-- A position that was reached by a branch has a label, with its frame. -/
private theorem reachedLabels_spec {b : Body} {points : Array Point}
    {states : List (Label × Frame)} (h : reachedLabels b.code points = .ok states) :
    (∀ {l f}, (l, f) ∈ states ↔ ∃ i, b.Marks i l ∧ points[i]?.bind Point.entry = some f) ∧
      ∀ {i : Nat} {ins f}, b.code[i]? = some ins → points[i]?.bind Point.entry = some f →
        ∃ l, ins = .label l := by
  constructor
  · intro l f
    rw [mem_mapM_iff h]
    constructor
    · rintro ⟨⟨ins, f'⟩, hmem, ha⟩
      cases ins with
      | label l' =>
        obtain ⟨rfl, rfl⟩ := Prod.mk.inj (Except.ok.inj ha)
        exact mem_reached.1 hmem
      | _ => simp [Instruction.placed?] at ha
    · exact fun hex => ⟨_, mem_reached.2 hex, rfl⟩
  · intro i ins f hins hf
    obtain ⟨a, ha⟩ := exists_of_mapM h (mem_reached.2 ⟨i, hins, hf⟩)
    cases ins with
    | label l => exact ⟨l, rfl⟩
    | _ => simp [Instruction.placed?] at ha

private theorem mem_of_lookup {states : List (Label × Frame)} {l : Label} {f : Frame}
    (h : states.lookup l = some f) : (l, f) ∈ states := by
  obtain ⟨before, rest, rfl, -⟩ := List.lookup_eq_some_iff.1 h
  simp

/-- Looking a label up finds its frame, if it has only one. -/
private theorem lookup_eq_some_iff_mem {states : List (Label × Frame)} {l : Label} {f : Frame}
    (hunique : ∀ f f', (l, f) ∈ states → (l, f') ∈ states → f = f') :
    states.lookup l = some f ↔ (l, f) ∈ states := by
  refine ⟨mem_of_lookup, fun h => ?_⟩
  cases hlookup : states.lookup l with
  | none => simpa using List.lookup_eq_none_iff.1 hlookup _ h
  | some f' => rw [hunique f f' h (mem_of_lookup hlookup)]

/-- The frames of a verified method are those that the worklist has stored. -/
theorem VerifiedMethod.frame?_eq_stored? {v : VerifiedMethod} {s : Progress}
    (hb : v.body.Labeled) (hsize : s.points.size = v.body.code.length)
    (h : reachedLabels v.body.code s.points = .ok v.states) : v.frame? = s.stored? := by
  funext i
  obtain ⟨hmem, hlabel⟩ := reachedLabels_spec h
  unfold frame?
  cases hins : v.body.code[i]? with
  | none =>
    have hout : s.points[i]? = none := by
      rw [Array.getElem?_eq_none_iff, hsize]
      exact List.getElem?_eq_none_iff.1 hins
    simp [Progress.stored?, hout]
  | some ins =>
    -- a frame without a label would have been an error
    cases hplaced : ins.placed? with
    | none =>
      cases hentry : s.stored? i with
      | none => simp [hplaced]
      | some f =>
        obtain ⟨l, rfl⟩ := hlabel hins hentry
        simp [Instruction.placed?] at hplaced
    | some l =>
      obtain rfl : ins = .label l := by cases ins <;> simp_all [Instruction.placed?]
      ext f
      simp only [Option.bind_some, hplaced]
      rw [state?, lookup_eq_some_iff_mem, hmem]
      · constructor
        · rintro ⟨j, hj, hf⟩
          rwa [hb.unique hins hj]
        · exact fun hf => ⟨i, hins, hf⟩
      · intro f f' hf hf'
        obtain ⟨j, hj, hf⟩ := hmem.1 hf
        obtain ⟨j', hj', hf'⟩ := hmem.1 hf'
        cases hb.unique hj hj'
        exact Option.some.inj (hf.symm.trans hf')

/-! ## Verification -/

namespace Method

variable {p : ClassPool} {config : Config} {m : Method} {v : VerifiedMethod}

/-- The stages of a verification that succeeds. -/
theorem verifyWithin_eq_ok {n : Nat} (h : m.verifyWithin n p config = .ok v) :
    ∃ task entry final, m.body.normalize = .ok v.body ∧ m.task p config v.body = .ok task ∧
      m.entryFrame p (m.classType p) = .ok entry ∧
      task.solve config n (.start task.env.layout.size entry) = .ok final ∧
      reachedLabels v.body.code final.points = .ok v.states ∧ v.flags = final.flags := by
  obtain ⟨body, hbody, h⟩ := bind_eq_ok.1 h
  obtain ⟨task, htask, h⟩ := bind_eq_ok.1 h
  obtain ⟨entry, hentry, h⟩ := bind_eq_ok.1 h
  obtain ⟨final, hfinal, h⟩ := bind_eq_ok.1 h
  obtain ⟨states, hstates, h⟩ := bind_eq_ok.1 h
  rw [Failure.unplaced_eq_ok] at hbody hentry hstates
  cases h
  exact ⟨task, entry, final, hbody, htask, hentry, hfinal, hstates, rfl⟩

/-- What a verification has at hand when the loop starts. -/
structure Preparation where
  body : Body
  task : Task
  entry : Frame

/-- The progress with which the loop starts. -/
def Preparation.start (prep : Preparation) : Progress :=
  .start prep.task.env.layout.size prep.entry

/-- The stages before the loop. Of the settings only the one about constants matters to them. -/
def prepare (p : ClassPool) (config : Config) (m : Method) : Except Failure Preparation := do
  let body ← Failure.unplaced .fault m.body.normalize
  let task ← m.task p config body
  let entry ← Failure.unplaced id (m.entryFrame p (m.classType p))
  return { body, task, entry }

theorem prepare_eq_ok {prep : Preparation} (h : m.prepare p config = .ok prep) :
    m.body.normalize = .ok prep.body ∧ m.task p config prep.body = .ok prep.task ∧
      m.entryFrame p (m.classType p) = .ok prep.entry := by
  obtain ⟨body, hbody, h⟩ := bind_eq_ok.1 h
  obtain ⟨task, htask, h⟩ := bind_eq_ok.1 h
  obtain ⟨entry, hentry, h⟩ := bind_eq_ok.1 h
  cases h
  exact ⟨Failure.unplaced_eq_ok.1 hbody, htask, Failure.unplaced_eq_ok.1 hentry⟩

/-- The stage after the loop. -/
def conclude (body : Body) (final : Progress) : Except Failure VerifiedMethod := do
  let states ← Failure.unplaced .fault (reachedLabels body.code final.points)
  return { body, states, flags := final.flags, visits := final.visits }

/-- A verification is the loop, with what comes before it and after it. -/
theorem verifyWithin_eq (n : Nat) (p : ClassPool) (config : Config) (m : Method) :
    m.verifyWithin n p config = m.prepare p config >>= fun prep =>
      prep.task.solve config n prep.start >>= conclude prep.body := by
  unfold verifyWithin prepare
  simp only [bind_assoc, pure_bind]
  rfl

/-- A method that has been verified, with the task and the entry frame that this took. -/
structure Verified (p : ClassPool) (config : Config) (m : Method) (v : VerifiedMethod) (task : Task)
    (entry : Frame) : Prop where
  normal : m.body.normalize = .ok v.body
  task_eq : m.task p config v.body = .ok task
  entry_eq : m.entryFrame p (m.classType p) = .ok entry
  models : task.Models v.body
  pool : task.env.pool = p
  method : task.env.method = m
  /-- Only labels of the body have frames. -/
  placed {l : Label} {f : Frame} : v.state? l = some f → ∃ i, v.body.Marks i l
  /-- The frames are closed under execution. -/
  closed {W : Frame → Prop} {R : Frame → Frame → Prop} : task.Domain W R → W entry →
    task.Closed v.body W R entry v.frame?

theorem verified_of_verify (h : m.verify p config = .ok v) :
    ∃ task entry, m.Verified p config v task entry := by
  obtain ⟨task, entry, final, hbody, htask, hentry, hfinal, hstates, -⟩ := verifyWithin_eq_ok h
  have hlabeled := Body.labeled_of_normalize hbody
  obtain ⟨hm, hpool, hmethod⟩ := models_of_task hlabeled htask
  refine ⟨task, entry, hbody, htask, hentry, hm, hpool, hmethod, fun hf => ?_, fun hd hW => ?_⟩
  · obtain ⟨i, hi, -⟩ := (reachedLabels_spec hstates).1.1 (mem_of_lookup hf)
    exact ⟨i, hi⟩
  · obtain ⟨hsize, hclosed⟩ := Task.closed_of_solve hm hd hW hfinal
    rw [VerifiedMethod.frame?_eq_stored? hlabeled hsize hstates]
    exact hclosed

end Method

/-- The frame at a position is the one of the label placed there. -/
theorem VerifiedMethod.frame?_of_marks {v : VerifiedMethod} {i : Nat} {l : Label}
    (h : v.body.Marks i l) : v.frame? i = v.state? l := by
  rw [frame?, h]
  rfl

end BytecodeVerifier
