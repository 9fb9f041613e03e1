import BytecodeVerifier.Dataflow.Visit
import BytecodeVerifier.Proofs.OperationObjections

/-!
# What visits object to

A visit objects to what the operation at its position objects to, to execution that goes where it
must not, and to a number of monitors that differs from the one held on another path.
`Task.MayRaise` lists all that, and `Task.raises_visit` shows that there is nothing else. A fault is
raised only by a visit that does not find its way, because it would lead to a position that there is
not (`Task.Guided`).

As every part of a visit does, the visit runs in lock step: where warnings are allowed and where
they are not, it does the same up to the first one.
-/

namespace BytecodeVerifier

namespace Operation

/-- The frame in which the operation is applied. Only an operation that fetches the value left
    behind by a call still finds it. -/
def meets (o : Operation) (f : Frame) : Frame :=
  if o.opcode.isMoveResult then f else f.clearResult

variable (o : Operation) (f : Frame)

@[simp] theorem get?_meets : (o.meets f).get? = f.get? := by
  unfold meets
  split <;> rfl

@[simp] theorem shape_meets : (o.meets f).shape = f.shape := by
  unfold meets
  split <;> rfl

@[simp] theorem thisInitialized_meets : (o.meets f).thisInitialized = f.thisInitialized := by
  unfold meets
  split <;> rfl

@[simp] theorem monitors_meets : (o.meets f).monitors = f.monitors := by
  unfold meets
  split <;> rfl

theorem result_meets :
    (o.meets f).result = if o.opcode.isMoveResult then f.result else Frame.noResult := by
  unfold meets
  split <;> rfl

variable {f}

theorem all_meets {Q : RegType → Prop} (hQ : Q .undefined) (hf : f.All Q) : (o.meets f).All Q := by
  unfold meets
  split
  · exact hf
  · exact hf.clearResult hQ

end Operation

namespace Task

/-- All positions to which a visit of `pc` may lead are there. -/
structure Guided (task : Task) (s : Progress) (pc : Nat) : Prop where
  size : s.points.size = task.env.layout.size
  handlers {o : Operation} {j : Nat} : task.operation? pc = some o → j ∈ task.handlers pc o →
    j < task.env.layout.size
  jumps {o : Operation} : task.operation? pc = some o →
    ∃ js, task.jumps o = .ok js ∧ ∀ j ∈ js, j < task.env.layout.size

/-- All that the visit of `pc` in frame `before` may object to. -/
inductive MayRaise (task : Task) (s : Progress) (pc : Nat) (before : Frame) : Objection → Prop
  | operation {o : Operation} {e : Objection} : task.operation? pc = some o →
      task.env.MayRaise pc o (o.meets before) e → MayRaise task s pc before e
  /-- Execution goes where it must not. -/
  | edge (e : FlowViolation) : MayRaise task s pc before (.violation (.flow e))
  | monitors (incoming held target : Nat) :
      MayRaise task s pc before (.warning (.monitorMismatch incoming held target))
  /-- It goes where nothing is. -/
  | astray (e : Fault) : ¬task.Guided s pc → MayRaise task s pc before (.violation (.fault e))

open ReportT

variable {task : Task} {s : Progress} {pc t : Nat} {o : Operation} {before f : Frame}
  {points : Array Point}

private theorem ensures_size_deliver :
    (task.deliver f points t).Ensures fun points' => points'.size = points.size := by
  unfold deliver
  split
  · exact ensures_reject _
  · rw [lift_bind]
    split
    · exact .seq fun _ => ensures_pure.2 (Array.size_setIfInBounds ..)
    · exact ensures_pure.2 (Array.size_setIfInBounds ..)

private theorem raises_deliver (ht : task.Guided s pc → t < points.size) :
    (task.deliver f points t).Raises (task.MayRaise s pc before) := by
  unfold deliver
  split
  · rename_i hnone
    refine raises_reject (.astray _ fun hguided => ?_)
    exact Nat.not_le.2 (ht hguided) (Array.getElem?_eq_none_iff.1 hnone)
  · rw [lift_bind]
    split
    · rename_i w hw
      refine .seq (raises_flag ?_) fun _ => raises_pure
      unfold Point.monitorMismatch? at hw
      split at hw
      · obtain ⟨-, hw⟩ := Option.ite_none_left_eq_some.1 hw
        cases hw
        exact .monitors _ _ _
      · cases hw
    · exact raises_pure

private theorem raises_deliverNormally (hsize : points.size = s.points.size)
    (ht : task.Guided s pc → t < task.env.layout.size) :
    (task.deliverNormally f points t).Raises (task.MayRaise s pc before) := by
  refine .seq (.seq (raises_ofFault fun e he => .astray e fun hguided => ?_) fun site => ?_)
    fun _ => raises_deliver fun hguided => hsize ▸ hguided.size ▸ ht hguided
  · obtain ⟨site, hsite⟩ := Layout.exists_site (ht hguided)
    cases hsite.symm.trans he
  · exact raises_ite (fun _ => raises_reject (.edge _)) fun _ => raises_pure

private theorem raises_fallThrough (hsize : points.size = s.points.size) :
    (task.fallThrough f points t).Raises (task.MayRaise s pc before) := by
  refine raises_guard (.edge _) fun hend => ?_
  have ht : t < task.env.layout.size := Nat.not_le.1 hend
  obtain ⟨site, hsite⟩ := Layout.exists_site ht
  rw [hsite]
  exact .seq raises_pure fun site =>
    raises_ite (fun _ => raises_deliverNormally hsize fun _ => ht) fun _ => raises_pure

private theorem raises_depart (ho : task.operation? pc = some o) (s : Progress)
    (before after : Frame) :
    (task.depart s pc o before after).Raises (task.MayRaise s pc before) := by
  -- no arrival changes the number of points, so all of them are still there for the next one
  obtain ⟨hhandlers, hpoints⟩ := raises_foldlM (P := task.MayRaise s pc before)
    (k := task.deliver before.clearResult) (Q := fun points => points.size = s.points.size)
    (task.handlers pc o) (fun points hpoints t ht =>
      ⟨raises_deliver fun hguided => hpoints ▸ hguided.size ▸ hguided.handlers ho ht,
        fun points' h => (ensures_size_deliver points' h).trans hpoints⟩) s.points rfl
  refine .bind hhandlers fun points₁ h₁ => ?_
  refine .bind (raises_ofFault fun e he => .astray e fun hguided => ?_) fun js hjs => ?_
  · obtain ⟨js, hjs, -⟩ := hguided.jumps ho
    cases hjs.symm.trans he
  have hinside (hguided : task.Guided s pc) : ∀ j ∈ js, j < task.env.layout.size := by
    obtain ⟨js', hjs', hlt⟩ := hguided.jumps ho
    cases (yields_ofFault.1 hjs).symm.trans hjs'
    exact hlt
  obtain ⟨hjumps, hpoints'⟩ := raises_foldlM (P := task.MayRaise s pc before)
    (k := task.deliverNormally after) (Q := fun points => points.size = s.points.size)
    js (fun points hpoints t ht =>
      ⟨raises_deliverNormally hpoints fun hguided => hinside hguided t ht,
        .seq fun _ => fun points' h => (ensures_size_deliver points' h).trans hpoints⟩)
    points₁ (hpoints points₁ h₁)
  refine .bind hjumps fun points₂ h₂ => raises_ite (fun _ => ?_) fun _ => raises_pure
  exact .seq (raises_fallThrough (hpoints' points₂ h₂)) fun _ => raises_pure

private theorem raises_visitOperation (ho : task.operation? pc = some o) :
    (task.visitOperation s pc o before).Raises (task.MayRaise s pc before) :=
  .seq ((task.env.raises_transfer pc o (o.meets before)).mono fun _ h => .operation ho h)
    fun after => raises_depart ho s before after

/-- A visit objects to nothing but what it may object to. -/
theorem raises_visit (task : Task) (s : Progress) (pc : Nat) (before : Frame) :
    (task.visit s pc before).Raises (task.MayRaise s pc before) := by
  unfold visit
  cases ho : task.operation? pc with
  | some o => exact .seq (raises_visitOperation ho) fun _ => raises_pure
  | none =>
    exact .seq (.seq (raises_fallThrough rfl) fun _ => raises_pure) fun _ => raises_pure

/-- The warnings of an operation are among those of the visit. -/
theorem subset_of_visit {ws : List Warning} {s' : Progress} (ho : task.operation? pc = some o)
    (h : (task.visit s pc before).outcome = (.ok s', ws)) :
    (task.frameAfter pc o before).outcome.2 ⊆ ws := by
  unfold visit at h
  rw [ho] at h
  obtain ⟨s₁, ws₁, hvisit, hleave⟩ := runs_bind_eq_ok.1 h
  cases hleave
  -- what comes after the operation delivers its frame, and only adds warnings
  exact subset_of_bind (raises_depart ho s before) hvisit

end Task

end BytecodeVerifier
