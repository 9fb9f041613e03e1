import BytecodeVerifier.Proofs.TaskModel

/-!
# What a visit does

`Task.Visited` says what a visit changes, position by position. The position itself is no longer
queued. A branch target takes in the frames of all edges that lead there, and any other position can
only be queued, by the position before it. `Task.visited_of_visit` shows that every visit that comes
to an end is of this kind.
-/

namespace BytecodeVerifier

/-- The frame with which execution leaves an instruction: an exception leaves with the frame before
    it, everything else with the frame after it. -/
def EdgeKind.carries (k : EdgeKind) (before after : Frame) : Frame :=
  match k with
  | .exception => before.clearResult
  | .next | .branch => after

namespace Point

variable {p : ClassPool} {point : Point} {f g : Frame}

/-- The point after execution has arrived in frame `f`. -/
def arrived (p : ClassPool) (point : Point) (f : Frame) : Point := Id.run (point.arrive p f)

theorem arrived_of_none (h : point.entry = none) :
    point.arrived p f = { point with entry := some f, queued := true } := by
  unfold arrived arrive
  rw [h]
  rfl

theorem arrived_of_some (h : point.entry = some g) : point.arrived p f =
    { point with entry := some (g.merge p f), queued := point.queued || g.merge p f != g } := by
  unfold arrived arrive
  rw [h]
  rfl

/-- The point after execution has arrived in all the frames, one after another. -/
def arriveAll (p : ClassPool) (point : Point) (frames : List Frame) : Point :=
  frames.foldl (arrived p) point

end Point

namespace Task

/-- The frame after position `i`, given the frame before it. A label changes nothing. -/
def after (task : Task) (i : Nat) (f : Frame) : Except Objection Frame :=
  match task.operation? i with
  | some o => (task.frameAfter i o f).outcome.1
  | none => .ok f

/-- The visit of `pc` in frame `before` leads from the progress `s` to `s'`. -/
structure Visited (task : Task) (b : Body) (s : Progress) (pc : Nat) (before after : Frame)
    (s' : Progress) : Prop where
  after_eq : task.after pc before = .ok after
  work : s'.work = after
  falls : b.Edge pc .next (pc + 1) → pc + 1 < b.code.length ∧ s'.cursor = pc + 1
  size : s'.points.size = s.points.size
  /-- The position itself has been looked at. -/
  leave {point : Point} : s.points[pc]? = some point → s'.points[pc]? = some point.leave
  /-- A branch target takes in what arrives there. -/
  target {j : Nat} {point : Point} : j ≠ pc → b.IsTarget j → s.points[j]? = some point →
    ∃ frames, (∀ x, x ∈ frames ↔ ∃ k, b.Edge pc k j ∧ x = k.carries before after) ∧
      s'.points[j]? = some (point.arriveAll task.env.pool frames)
  /-- A branch target where execution arrives other than by an exception allows that. -/
  admitted {j : Nat} {k : EdgeKind} : b.Edge pc k j → k ≠ .exception → b.IsTarget j → b.Enterable j
  /-- Any other position is queued if execution falls through to it. -/
  other {j : Nat} {point : Point} : j ≠ pc → ¬b.IsTarget j → s.points[j]? = some point →
    ∃ point', s'.points[j]? = some point' ∧ point'.entry = point.entry ∧
      (point'.queued = true ↔ point.queued = true ∨ b.Edge pc .next j)

variable {task : Task} {b : Body} {s s' : Progress} {pc : Nat} {before : Frame}

open ReportT

/-! ## Arrivals -/

/-- The points after execution has arrived in several frames at several positions. -/
private def arrivals (p : ClassPool) (points : Array Point) (as : List (Nat × Frame)) :
    Array Point :=
  as.foldl (fun points a => points.modify a.1 (·.arrived p a.2)) points

private theorem getElem?_arrivals (p : ClassPool) (points : Array Point) (as : List (Nat × Frame))
    (j : Nat) : (arrivals p points as)[j]? = points[j]?.map
      (·.arriveAll p ((as.filter (·.1 = j)).map Prod.snd)) := by
  induction as generalizing points with
  | nil => simp [arrivals, Point.arriveAll]
  | cons a as ih =>
    show (arrivals p (points.modify a.1 (·.arrived p a.2)) as)[j]? = _
    rw [ih, Array.getElem?_modify]
    by_cases h : a.1 = j
    · simp [h, Point.arriveAll, Function.comp_def]
    · simp [h]

private theorem ensures_deliver (f : Frame) (points : Array Point) (t : Nat) :
    (task.deliver f points t).Ensures (· = arrivals task.env.pool points [(t, f)]) := by
  unfold deliver
  split
  · exact ensures_reject _
  · rename_i point hpoint
    have hmodify : points.setIfInBounds t (point.arrived task.env.pool f) =
        arrivals task.env.pool points [(t, f)] := by
      apply Array.ext_getElem?
      intro j
      simp only [arrivals, List.foldl_cons, List.foldl_nil, Array.getElem?_modify,
        Array.getElem?_setIfInBounds]
      by_cases h : t = j
      · subst h
        obtain ⟨hlt, rfl⟩ := Array.getElem?_eq_some_iff.1 hpoint
        simp [hlt]
      · simp [h]
    rw [lift_bind]
    split
    · exact .seq fun _ => ensures_pure.2 hmodify
    · exact ensures_pure.2 hmodify

private theorem ensures_checkNormalEdge (hm : task.Models b) (t : Nat) :
    (task.checkNormalEdge t).Ensures fun _ => b.Enterable t := by
  refine .bind fun site hsite => ?_
  have hhandler := (hm.layout.site (yields_ofFault.1 hsite)).2.2
  split
  · exact ensures_reject _
  · rename_i hfree
    refine ensures_pure.2 fun hstarts o ho => ?_
    rw [hhandler.2 hstarts, Bool.true_and, hm.operation] at hfree
    simpa [show b.code[t + 1]?.bind Operation.ofInstruction? = some o from ho] using hfree

private theorem ensures_deliverNormally (hm : task.Models b) (f : Frame) (points : Array Point)
    (t : Nat) : (task.deliverNormally f points t).Ensures
      fun points' => points' = arrivals task.env.pool points [(t, f)] ∧ b.Enterable t :=
  .bind fun _ h => fun points' h' =>
    ⟨ensures_deliver f points t points' h', ensures_checkNormalEdge hm t _ h⟩

/-- Delivering to several positions, one after another. -/
private theorem ensures_foldlM {f : Frame} {step : Array Point → Nat → Report (Array Point)}
    {P : Nat → Prop} (hstep : ∀ points t, (step points t).Ensures
      fun points' => points' = arrivals task.env.pool points [(t, f)] ∧ P t)
    (points : Array Point) (ts : List Nat) : (ts.foldlM step points).Ensures fun points' =>
      points' = arrivals task.env.pool points (ts.map (·, f)) ∧ ∀ t ∈ ts, P t := by
  induction ts generalizing points with
  | nil => exact ensures_pure.2 ⟨rfl, by simp⟩
  | cons t ts ih =>
    rw [List.foldlM_cons]
    refine .bind fun points' h => fun points'' h' => ?_
    obtain ⟨rfl, ht⟩ := hstep points t points' h
    obtain ⟨rfl, hts⟩ := ih _ points'' h'
    exact ⟨rfl, List.forall_mem_cons.2 ⟨ht, hts⟩⟩

private theorem arrivals_append (p : ClassPool) (points : Array Point)
    (as as' : List (Nat × Frame)) :
    arrivals p points (as ++ as') = arrivals p (arrivals p points as) as' :=
  List.foldl_append ..

private theorem size_arrivals (p : ClassPool) (points : Array Point) (as : List (Nat × Frame)) :
    (arrivals p points as).size = points.size := by
  induction as generalizing points with
  | nil => rfl
  | cons a as ih => exact (ih _).trans (Array.size_modify ..)

/-- Execution goes on to a branch target, or to a position that it queues. -/
private theorem ensures_fallThrough (hm : task.Models b) (f : Frame) (points : Array Point)
    (next : Nat) : (task.fallThrough f points next).Ensures fun points' =>
      next < b.code.length ∧
        (b.IsTarget next ∧ b.Enterable next ∧
            points' = arrivals task.env.pool points [(next, f)] ∨
          ¬b.IsTarget next ∧ points' = points.modify next Point.queue) := by
  unfold fallThrough
  refine ensures_guard.2 fun _ => .bind fun site hsite => ?_
  obtain ⟨hlt, htarget, -⟩ := hm.layout.site (yields_ofFault.1 hsite)
  -- only a branch target stores the frame
  split
  · intro points' h
    obtain ⟨heq, henterable⟩ := ensures_deliverNormally hm f points next _ h
    exact ⟨hlt, .inl ⟨htarget.1 ‹_›, henterable, heq⟩⟩
  · exact ensures_pure.2 ⟨hlt, .inr ⟨mt htarget.2 ‹_›, rfl⟩⟩

/-- The arrivals of a visit are those of all edges into branch targets. -/
private theorem mem_arrivals_iff {after : Frame} {hs js : List Nat} {nexts : List (Nat × Frame)}
    (hhs : ∀ j, j ∈ hs ↔ b.Edge pc .exception j) (hjs : ∀ j, j ∈ js ↔ b.Edge pc .branch j)
    (hnexts : ∀ t x, (t, x) ∈ nexts ↔ b.Edge pc .next t ∧ b.IsTarget t ∧ x = after)
    (t : Nat) (x : Frame) :
    (t, x) ∈ hs.map (·, before.clearResult) ++ js.map (·, after) ++ nexts ↔
      ∃ k, b.Edge pc k t ∧ b.IsTarget t ∧ x = k.carries before after := by
  -- edges other than to the next position lead to branch targets only
  have htarget : ∀ k, k ≠ .next → b.Edge pc k t → b.IsTarget t := fun k hk h =>
    h.eq_next_or_isTarget.resolve_left fun h => hk h.1
  simp only [List.mem_append, List.mem_map, Prod.mk.injEq, hnexts]
  constructor
  · rintro ((⟨j, hj, rfl, rfl⟩ | ⟨j, hj, rfl, rfl⟩) | h)
    · exact ⟨.exception, (hhs j).1 hj, htarget _ (by simp) ((hhs j).1 hj), rfl⟩
    · exact ⟨.branch, (hjs j).1 hj, htarget _ (by simp) ((hjs j).1 hj), rfl⟩
    · exact ⟨.next, h⟩
  · rintro ⟨k, hedge, ht, rfl⟩
    cases k with
    | exception => exact .inl (.inl ⟨t, (hhs t).2 hedge, rfl, rfl⟩)
    | branch => exact .inl (.inr ⟨t, (hjs t).2 hedge, rfl, rfl⟩)
    | next => exact .inr ⟨hedge, ht, rfl⟩

/-! ## Visits -/

/-- A visit is described by its arrivals and by whether it queues the next position. -/
private theorem visited_of_points {after : Frame} (hm : task.Models b) (as : List (Nat × Frame))
    (has : ∀ t x, (t, x) ∈ as ↔ ∃ k, b.Edge pc k t ∧ b.IsTarget t ∧ x = k.carries before after)
    (queues : Bool) (hqueues : queues = true ↔ b.Edge pc .next (pc + 1) ∧ ¬b.IsTarget (pc + 1))
    (hpoints : s'.points = Array.modify (if queues then
        (arrivals task.env.pool s.points as).modify (pc + 1) Point.queue
      else arrivals task.env.pool s.points as) pc Point.leave)
    (hadmitted : ∀ {j k}, b.Edge pc k j → k ≠ .exception → b.IsTarget j → b.Enterable j)
    (hafter : task.after pc before = .ok after) (hwork : s'.work = after)
    (hfalls : b.Edge pc .next (pc + 1) → pc + 1 < b.code.length ∧ s'.cursor = pc + 1) :
    task.Visited b s pc before after s' := by
  -- where no frame arrives, the point stays as it is
  have hnone : ∀ j, (∀ k, b.Edge pc k j → ¬b.IsTarget j) → as.filter (·.1 = j) = [] := by
    intro j hj
    rw [List.filter_eq_nil_iff]
    rintro ⟨t, x⟩ hmem htj
    obtain rfl : t = j := by simpa using htj
    obtain ⟨k, hedge, ht, -⟩ := (has t x).1 hmem
    exact hj k hedge ht
  have hnext : ∀ {j}, b.Edge pc .next j → j = pc + 1 := by
    intro j hedge
    cases hedge
    rfl
  -- a label leads nowhere but to the next position
  have hself : ∀ k, b.Edge pc k pc → ¬b.IsTarget pc := by
    intro k hedge htarget
    obtain ⟨l, hl⟩ := htarget.marks hm.labeled
    have := (hl.eq_next hedge).2
    omega
  refine ⟨hafter, hwork, hfalls, ?_, ?_, ?_, hadmitted, ?_⟩
  · rw [hpoints, Array.size_modify]
    cases queues <;> simp [size_arrivals]
  · intro point hpoint
    rw [hpoints, Array.getElem?_modify, if_pos rfl]
    cases queues <;>
      simp [Array.getElem?_modify, getElem?_arrivals, hpoint, hnone pc hself, Point.arriveAll]
  · intro j point hj htarget hpoint
    refine ⟨(as.filter (·.1 = j)).map Prod.snd, fun x => ?_, ?_⟩
    · have hmem := has j x
      simp only [htarget, true_and] at hmem
      rw [← hmem]
      simp
    · rw [hpoints, Array.getElem?_modify, if_neg (Ne.symm hj)]
      cases queues with
      | false => simp [getElem?_arrivals, hpoint]
      | true =>
        have hne : pc + 1 ≠ j := fun h => (hqueues.1 rfl).2 (h ▸ htarget)
        simp [Array.getElem?_modify, hne, getElem?_arrivals, hpoint]
  · intro j point hj htarget hpoint
    have hsame : (arrivals task.env.pool s.points as)[j]? = some point := by
      simp [getElem?_arrivals, hpoint, hnone j fun _ _ => htarget, Point.arriveAll]
    rw [hpoints, Array.getElem?_modify, if_neg (Ne.symm hj)]
    by_cases hq : queues = true ∧ j = pc + 1
    · obtain ⟨rfl, rfl⟩ := hq
      exact ⟨point.queue, by simp [Array.getElem?_modify, hsame], rfl,
        by simp [Point.queue, (hqueues.1 rfl).1]⟩
    · refine ⟨point, ?_, rfl, ?_⟩
      · cases queues with
        | false => simpa using hsame
        | true =>
          have hne : pc + 1 ≠ j := fun h => hq ⟨rfl, h.symm⟩
          simp [Array.getElem?_modify, hne, hsame]
      · have hno : ¬b.Edge pc .next j := by
          intro hedge
          obtain rfl := hnext hedge
          exact hq ⟨hqueues.2 ⟨hedge, htarget⟩, rfl⟩
        simp [hno]

/-- The arrival at the next position, if it is a branch target. -/
private theorem mem_nexts_iff {after : Frame} (hnext : b.Edge pc .next (pc + 1))
    (htarget : b.IsTarget (pc + 1)) (t : Nat) (x : Frame) :
    (t, x) ∈ [(pc + 1, after)] ↔ b.Edge pc .next t ∧ b.IsTarget t ∧ x = after := by
  simp only [List.mem_singleton, Prod.mk.injEq]
  constructor
  · rintro ⟨rfl, rfl⟩
    exact ⟨hnext, htarget, rfl⟩
  · rintro ⟨hedge, -, rfl⟩
    cases hedge
    exact ⟨rfl, rfl⟩

/-- There is no arrival at the next position if that is no branch target or cannot follow. -/
private theorem mem_nil_iff {after : Frame} (h : b.Edge pc .next (pc + 1) → ¬b.IsTarget (pc + 1))
    (t : Nat) (x : Frame) : (t, x) ∈ [] ↔ b.Edge pc .next t ∧ b.IsTarget t ∧ x = after := by
  simp only [List.not_mem_nil, false_iff]
  rintro ⟨hedge, htarget, -⟩
  obtain rfl : t = pc + 1 := by cases hedge; rfl
  exact h hedge htarget

private theorem visited_of_visitLabel (hm : task.Models b) {l : Label} (hl : b.Marks pc l)
    {s₁ : Progress} (h : (task.visitLabel s pc before).Yields s₁) :
    task.Visited b s pc before before { s₁ with points := s₁.points.modify pc Point.leave } := by
  have hafter : task.after pc before = .ok before := by
    unfold after
    rw [hm.operation, hl]
    rfl
  have hno : ∀ {k j}, k ≠ .next → ¬b.Edge pc k j := fun hk hedge => hk (hl.eq_next hedge).1
  have hhs : ∀ j, j ∈ [] ↔ b.Edge pc .exception j := by simp [hno]
  have hjs : ∀ j, j ∈ [] ↔ b.Edge pc .branch j := by simp [hno]
  obtain ⟨points, hpoints, h⟩ := h.bind
  obtain rfl := yields_pure.1 h
  obtain ⟨hlt, ⟨htarget, henterable, rfl⟩ | ⟨htarget, rfl⟩⟩ :=
    ensures_fallThrough hm _ _ _ _ hpoints
  · exact visited_of_points hm [(pc + 1, before)]
      (mem_arrivals_iff hhs hjs (mem_nexts_iff hl.edge_next htarget)) false (by simp [htarget]) rfl
      (fun hedge _ _ => (hl.eq_next hedge).2 ▸ henterable) hafter rfl fun _ => ⟨hlt, rfl⟩
  · exact visited_of_points hm []
      (mem_arrivals_iff hhs hjs (mem_nil_iff fun _ => htarget)) true
      (by simp [htarget, hl.edge_next]) rfl
      (fun hedge _ h => absurd ((hl.eq_next hedge).2 ▸ h) htarget) hafter rfl fun _ => ⟨hlt, rfl⟩

private theorem visited_of_visitOperation (hm : task.Models b) {o : Operation}
    (ho : task.operation? pc = some o) {s₁ : Progress}
    (h : (task.visitOperation s pc o before).outcome.1 = .ok s₁) :
    ∃ after,
      task.Visited b s pc before after { s₁ with points := s₁.points.modify pc Point.leave } := by
  obtain ⟨after, hafter, h⟩ := outcome_bind h
  refine ⟨after, ?_⟩
  have hafter : task.after pc before = .ok after := by
    unfold Task.after
    rw [ho]
    exact hafter
  obtain ⟨points₁, hpoints₁, h⟩ := h.bind
  obtain ⟨js, hjs, h⟩ := h.bind
  obtain ⟨points₂, hpoints₂, h⟩ := h.bind
  obtain ⟨rfl, -⟩ := ensures_foldlM (P := fun _ => True)
    (fun points t points' h => ⟨ensures_deliver _ points t points' h, trivial⟩) _ _ _ hpoints₁
  obtain ⟨rfl, henterable⟩ := ensures_foldlM (ensures_deliverNormally hm _) _ _ _ hpoints₂
  rw [← arrivals_append] at h
  have hhs : ∀ j, j ∈ task.handlers pc o ↔ b.Edge pc .exception j := fun j => hm.mem_handlers ho
  have hjs : ∀ j, j ∈ js ↔ b.Edge pc .branch j := fun j => hm.mem_jumps ho (yields_ofFault.1 hjs)
  have hadmitted (hnext : b.Edge pc .next (pc + 1) → b.IsTarget (pc + 1) → b.Enterable (pc + 1))
      {j : Nat} {k : EdgeKind} (hedge : b.Edge pc k j) (hk : k ≠ .exception) (hj : b.IsTarget j) :
      b.Enterable j := by
    cases k with
    | exception => exact absurd rfl hk
    | branch => exact henterable j ((hjs j).2 hedge)
    | next =>
      obtain rfl : j = pc + 1 := by cases hedge; rfl
      exact hnext hedge hj
  -- handlers and jumps are served; what is left is the next position
  by_cases hnext : b.Edge pc .next (pc + 1)
  · rw [if_pos ((hm.canContinue_iff ho).2 hnext)] at h
    obtain ⟨points, hpoints, h⟩ := h.bind
    obtain rfl := yields_pure.1 h
    obtain ⟨hlt, ⟨htarget, hfall, rfl⟩ | ⟨htarget, rfl⟩⟩ := ensures_fallThrough hm _ _ _ _ hpoints
    · rw [← arrivals_append]
      exact visited_of_points hm _ (mem_arrivals_iff hhs hjs (mem_nexts_iff hnext htarget)) false
        (by simp [htarget]) rfl (hadmitted fun _ _ => hfall) hafter rfl fun _ => ⟨hlt, rfl⟩
    · exact visited_of_points hm _
        (by simpa using mem_arrivals_iff hhs hjs (mem_nil_iff fun _ => htarget)) true
        (by simp [htarget, hnext]) rfl (hadmitted fun _ h => absurd h htarget) hafter rfl
        fun _ => ⟨hlt, rfl⟩
  · rw [if_neg (mt (hm.canContinue_iff ho).1 hnext)] at h
    obtain rfl := yields_pure.1 h
    exact visited_of_points hm _
      (by simpa using mem_arrivals_iff hhs hjs (mem_nil_iff fun h => absurd h hnext)) false
      (by simp [hnext]) rfl (hadmitted fun h => absurd h hnext) hafter rfl
      fun h => absurd h hnext

/-- Every visit that comes to an end does what `Visited` says. -/
theorem visited_of_visit (hm : task.Models b) (hpc : pc < b.code.length)
    (h : (task.visit s pc before).outcome.1 = .ok s') :
    ∃ after, task.Visited b s pc before after s' := by
  unfold visit at h
  dsimp only at h
  cases ho : task.operation? pc with
  | none =>
    rw [ho] at h
    obtain ⟨s₁, hs₁, h⟩ := outcome_bind h
    obtain rfl := yields_pure.1 h
    obtain ⟨l, hl⟩ := hm.marks hpc ho
    exact ⟨before, visited_of_visitLabel hm hl (yields_of_outcome hs₁)⟩
  | some o =>
    rw [ho] at h
    obtain ⟨s₁, hs₁, h⟩ := outcome_bind h
    obtain rfl := yields_pure.1 h
    exact visited_of_visitOperation hm ho hs₁

end Task

end BytecodeVerifier
