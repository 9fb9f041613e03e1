import BytecodeVerifier.Proofs.Visit
import BytecodeVerifier.Proofs.VisitObjections

/-!
# The worklist

When no position is queued any more, the frames at the branch targets are closed under execution:
from each of them execution passes through the code without a violation, and at the next branch
target it finds a frame that takes in what it brings along (`Task.Closed`). `Task.closed_of_solve`
is about any notion `R` of taking in that merging does not break (`Task.Domain`).

A position between branch targets has no frame of its own. Its frame is passed on from the position
before it (`Task.FrameAt`), and so a change at a branch target concerns all positions up to the next
one, although only the target itself is queued. They are pending (`Task.Pending`), and what the
worklist keeps true is that each frame is settled or pending.
-/

namespace BytecodeVerifier

/-- The frame in which execution arrives at a branch target, as far as known. -/
def Progress.stored? (s : Progress) (i : Nat) : Option Frame := s.points[i]?.bind Point.entry

namespace Task

/-- The frame before position `i`, if `store` has the frames at the branch targets. -/
inductive FrameAt (task : Task) (b : Body) (store : Nat → Option Frame) : Nat → Frame → Prop
  | stored {i : Nat} {f : Frame} : b.IsTarget i → store i = some f → FrameAt task b store i f
  | passed {i : Nat} {f g : Frame} : FrameAt task b store i f → b.Edge i .next (i + 1) →
      ¬b.IsTarget (i + 1) → task.after i f = .ok g → FrameAt task b store (i + 1) g

/-- Execution can go to position `j`, with the frame `f` before it leaves and `g` afterwards. A
    branch target has a frame that takes in what it brings along, and allows it to arrive. -/
structure Leads (b : Body) (R : Frame → Frame → Prop) (store : Nat → Option Frame) (f g : Frame)
    (k : EdgeKind) (j : Nat) : Prop where
  inside : j < b.code.length
  takenIn : b.IsTarget j → ∃ e, store j = some e ∧ R e (k.carries f g)
  admitted : k ≠ .exception → b.IsTarget j → b.Enterable j

/-- Execution passes position `i` in frame `f` without a violation, and finds frames that take it in
    at all branch targets that it can go to. -/
def Settled (task : Task) (b : Body) (R : Frame → Frame → Prop) (store : Nat → Option Frame)
    (i : Nat) (f : Frame) : Prop :=
  ∃ g, task.after i f = .ok g ∧ ∀ k j, b.Edge i k j → Leads b R store f g k j

/-- What `closed_of_solve` asks of the frames that occur, and of the way in which one takes another
    in: merging goes on to take in what it has taken in before. -/
structure Domain (task : Task) (W : Frame → Prop) (R : Frame → Frame → Prop) : Prop where
  clearResult {f : Frame} : W f → W f.clearResult
  after {i : Nat} {f g : Frame} : W f → task.after i f = .ok g → W g
  merge {f g : Frame} : W f → W g → W (f.merge task.env.pool g)
  refl (f : Frame) : R f f
  right {f g : Frame} : W f → W g → R (f.merge task.env.pool g) g
  left {f g x : Frame} : W f → W g → W x → R f x → R (f.merge task.env.pool g) x

/-- The frames in `store` are those at the branch targets that execution can reach, and they are
    closed under execution from the frame `seed` on. -/
structure Closed (task : Task) (b : Body) (W : Frame → Prop) (R : Frame → Frame → Prop)
    (seed : Frame) (store : Nat → Option Frame) : Prop where
  seeded : ∃ e, store 0 = some e ∧ R e seed
  stored {i : Nat} {f : Frame} : store i = some f → b.IsTarget i ∧ b.Reachable i
  covered {i : Nat} : b.Reachable i → ∃ f, task.FrameAt b store i f
  valid {i : Nat} {f : Frame} : task.FrameAt b store i f → W f
  settled {i : Nat} {f : Frame} : task.FrameAt b store i f → task.Settled b R store i f

variable {task : Task} {b : Body} {W : Frame → Prop} {R : Frame → Frame → Prop} {seed : Frame}
  {store : Nat → Option Frame} {i j : Nat} {f g : Frame}

/-- There is only one frame before a position. -/
theorem FrameAt.unique (h : task.FrameAt b store i f) (h' : task.FrameAt b store i g) : f = g := by
  induction h generalizing g with
  | stored htarget hf =>
    cases h' with
    | stored _ hg => exact Option.some.inj (hf.symm.trans hg)
    | passed _ _ hno => exact absurd htarget hno
  | passed _ _ hno hafter ih =>
    cases h' with
    | stored htarget => exact absurd htarget hno
    | passed h' _ _ hafter' =>
      cases ih h'
      exact Except.ok.inj (hafter.symm.trans hafter')

/-- Reachability needs no relation between the frames. -/
theorem domain_true (task : Task) : task.Domain (fun _ => True) (fun _ _ => True) :=
  ⟨fun _ => trivial, fun _ _ => trivial, fun _ _ => trivial, fun _ => trivial, fun _ _ => trivial,
    fun _ _ _ _ => trivial⟩

theorem Domain.carries (hd : task.Domain W R) (k : EdgeKind) (hf : W f)
    (hg : task.after i f = .ok g) : W (k.carries f g) := by
  cases k with
  | exception => exact hd.clearResult hf
  | next => exact hd.after hf hg
  | branch => exact hd.after hf hg

/-! ## Arrivals at a branch target -/

/-- What happens to a point where execution arrives in the given frames. -/
private structure TakesIn (W : Frame → Prop) (R : Frame → Frame → Prop) (point : Point)
    (frames : List Frame) (point' : Point) : Prop where
  changed : point'.entry = point.entry ∨ point'.queued = true
  stays : point.queued = true → point'.queued = true
  queued : point'.queued = true → point.queued = true ∨ frames ≠ []
  present : point'.entry.isSome = true → point.entry.isSome = true ∨ frames ≠ []
  valid {e : Frame} : point'.entry = some e → W e
  absorbs {x : Frame} : W x → x ∈ frames ∨ (∃ e, point.entry = some e ∧ R e x) →
    ∃ e, point'.entry = some e ∧ R e x

private theorem takesIn_arrive (hd : task.Domain W R) {point : Point}
    (hpoint : ∀ e, point.entry = some e → W e) (hf : W f) :
    TakesIn W R point [f] (point.arrived task.env.pool f) := by
  cases hentry : point.entry with
  | none =>
    rw [Point.arrived_of_none hentry]
    refine ⟨.inr rfl, fun _ => rfl, fun _ => .inr (by simp), fun _ => .inr (by simp),
      fun h => Option.some.inj h ▸ hf, fun {x} _ hx => ⟨f, rfl, ?_⟩⟩
    have hxf : x = f := by simpa [hentry] using hx
    exact hxf ▸ hd.refl f
  | some e =>
    rw [Point.arrived_of_some hentry]
    have he := hpoint e hentry
    refine ⟨?_, fun h => by simp [h], fun _ => .inr (by simp), fun _ => .inr (by simp), ?_, ?_⟩
    · by_cases hsame : e.merge task.env.pool f = e
      · exact .inl (by simp [hsame, hentry])
      · exact .inr (by simp [hsame])
    · exact fun h => Option.some.inj h ▸ hd.merge he hf
    · intro x hx hmem
      refine ⟨_, rfl, ?_⟩
      rcases hmem with hmem | ⟨e', he', hR⟩
      · obtain rfl := List.mem_singleton.1 hmem
        exact hd.right he hf
      · cases hentry.symm.trans he'
        exact hd.left he hf hx hR

private theorem takesIn_arriveAll (hd : task.Domain W R) {point : Point} (frames : List Frame)
    (hpoint : ∀ e, point.entry = some e → W e) (hframes : ∀ x ∈ frames, W x) :
    TakesIn W R point frames (point.arriveAll task.env.pool frames) := by
  induction frames generalizing point with
  | nil => exact ⟨.inl rfl, id, .inl, .inl, hpoint _, fun _ h => h.resolve_left (by simp)⟩
  | cons x frames ih =>
    simp only [List.mem_cons, forall_eq_or_imp] at hframes
    have hx := takesIn_arrive hd hpoint hframes.1
    have hrest := ih (fun _ => hx.valid) hframes.2
    refine ⟨?_, fun h => hrest.stays (hx.stays h), fun _ => .inr (by simp), fun _ => .inr (by simp),
      hrest.valid, ?_⟩
    · rcases hrest.changed with hsame | hqueued
      · exact hx.changed.imp (hsame.trans ·) hrest.stays
      · exact .inr hqueued
    · intro y hy hmem
      refine hrest.absorbs hy ?_
      rcases hmem with hmem | hold
      · rcases List.mem_cons.1 hmem with rfl | hmem
        · exact .inr (hx.absorbs hy (.inl (by simp)))
        · exact .inl hmem
      · exact .inr (hx.absorbs hy (.inr hold))

/-! ## A visit as seen from the frames -/

variable {s s' : Progress} {pc : Nat} {before after : Frame}

private theorem stored?_eq {point : Point} (h : s.points[i]? = some point) :
    s.stored? i = point.entry := by
  simp [Progress.stored?, h]

private theorem isQueued_eq {point : Point} (h : s.points[i]? = some point) :
    s.isQueued i = point.queued := by
  simp [Progress.isQueued, h]

/-- What the visit of `pc` means for position `j`. -/
structure StepAt (b : Body) (W : Frame → Prop) (R : Frame → Frame → Prop) (s : Progress)
    (pc : Nat) (before after : Frame) (s' : Progress) (j : Nat) : Prop where
  changed : s'.stored? j = s.stored? j ∨ s'.isQueued j = true
  stays : j ≠ pc → s.isQueued j = true → s'.isQueued j = true
  queued : s'.isQueued j = true → j ≠ pc ∧ (s.isQueued j = true ∨ ∃ k, b.Edge pc k j)
  stored {e : Frame} : s'.stored? j = some e →
    W e ∧ ((s.stored? j).isSome = true ∨ b.IsTarget j ∧ ∃ k, b.Edge pc k j)
  absorbed {e x : Frame} : W x → s.stored? j = some e → R e x →
    ∃ e', s'.stored? j = some e' ∧ R e' x
  arrived {k : EdgeKind} : b.Edge pc k j → b.IsTarget j →
    ∃ e, s'.stored? j = some e ∧ R e (k.carries before after)
  passes : b.Edge pc .next j → ¬b.IsTarget j → s'.isQueued j = true

/-- No execution leads from a position straight back into it, if it is a branch target, nor does it
    fall through to itself. -/
private theorem not_edge_self {k : EdgeKind} (hm : task.Models b) (h : b.Edge i k i)
    (hk : k = .next ∨ b.IsTarget i) : False := by
  have hnext : k = .next → False := by
    rintro rfl
    generalize hj : i = j at h
    cases h
  rcases hk with hk | htarget
  · exact hnext hk
  · obtain ⟨l, hl⟩ := htarget.marks hm.labeled
    exact hnext (hl.eq_next h).1

/-- A position where no frame arrives keeps the one that it has. -/
private theorem stepAt_of_stored?_eq (hvalid : ∀ e, s.stored? j = some e → W e)
    (hsame : s'.stored? j = s.stored? j) (hno : ∀ k, b.Edge pc k j → ¬b.IsTarget j)
    (hstays : j ≠ pc → s.isQueued j = true → s'.isQueued j = true)
    (hqueued : s'.isQueued j = true → j ≠ pc ∧ (s.isQueued j = true ∨ ∃ k, b.Edge pc k j))
    (hpasses : b.Edge pc .next j → ¬b.IsTarget j → s'.isQueued j = true) :
    StepAt b W R s pc before after s' j where
  changed := .inl hsame
  stays := hstays
  queued := hqueued
  stored {e} he := by
    rw [hsame] at he
    exact ⟨hvalid e he, .inl (by simp [he])⟩
  absorbed _ he hR := ⟨_, hsame.trans he, hR⟩
  arrived hedge htarget := absurd htarget (hno _ hedge)
  passes := hpasses

/-- A branch target takes in the frames that arrive there. -/
private theorem stepAt_target (hd : task.Domain W R) (hvalid : ∀ e, s.stored? j = some e → W e)
    (hbefore : W before) (hv : task.Visited b s pc before after s') (hpc : j ≠ pc)
    (htarget : b.IsTarget j) {point : Point} (hpoint : s.points[j]? = some point) :
    StepAt b W R s pc before after s' j := by
  obtain ⟨frames, hframes, hpoint'⟩ := hv.target hpc htarget hpoint
  have hentry := stored?_eq hpoint
  have hqueued := isQueued_eq hpoint
  have hentry' := stored?_eq hpoint'
  have hqueued' := isQueued_eq hpoint'
  have hcarries : ∀ k : EdgeKind, W (k.carries before after) :=
    fun k => hd.carries k hbefore hv.after_eq
  have htakes : TakesIn W R point frames (point.arriveAll task.env.pool frames) := by
    refine takesIn_arriveAll hd frames (fun e he => hvalid e (hentry.trans he)) fun x hx => ?_
    obtain ⟨k, -, rfl⟩ := (hframes x).1 hx
    exact hcarries k
  have hedge : frames ≠ [] → ∃ k, b.Edge pc k j := by
    intro hne
    obtain ⟨x, hx⟩ := List.exists_mem_of_ne_nil frames hne
    obtain ⟨k, hk, -⟩ := (hframes x).1 hx
    exact ⟨k, hk⟩
  refine ⟨?_, ?_, ?_, ?_, ?_, ?_, fun _ h => absurd htarget h⟩
  · rw [hentry', hentry, hqueued']
    exact htakes.changed
  · rw [hqueued', hqueued]
    exact fun _ => htakes.stays
  · rw [hqueued', hqueued]
    exact fun h => ⟨hpc, (htakes.queued h).imp_right hedge⟩
  · intro e he
    rw [hentry'] at he
    rw [hentry]
    exact ⟨htakes.valid he,
      (htakes.present (by simp [he])).imp_right fun hne => ⟨htarget, hedge hne⟩⟩
  · intro e x hx he hR
    rw [hentry']
    exact htakes.absorbs hx (.inr ⟨e, hentry.symm.trans he, hR⟩)
  · intro k hk _
    rw [hentry']
    exact htakes.absorbs (hcarries k) (.inl ((hframes _).2 ⟨k, hk, rfl⟩))

theorem stepAt_of_visited (hm : task.Models b) (hd : task.Domain W R)
    (hsize : s.points.size = b.code.length) (hvalid : ∀ j e, s.stored? j = some e → W e)
    (hbefore : W before) (hv : task.Visited b s pc before after s') (j : Nat) :
    StepAt b W R s pc before after s' j := by
  by_cases hj : j < b.code.length
  case neg =>
    -- behind the end of the code there is nothing, and a visit does not lead there
    have hout : s.points[j]? = none ∧ s'.points[j]? = none := by
      simp only [Array.getElem?_eq_none_iff, hv.size, hsize]
      omega
    have hno : ¬b.IsTarget j := fun htarget => hj (htarget.lt hm.labeled)
    refine stepAt_of_stored?_eq (hvalid j) (by simp [Progress.stored?, hout]) (fun _ _ => hno)
      ?_ ?_ ?_
    · simp [Progress.isQueued, hout]
    · simp [Progress.isQueued, hout]
    · intro hedge _
      cases hedge with
      | next hins hfalls => exact absurd (hv.falls (.next hins hfalls)).1 hj
  obtain ⟨point, hpoint⟩ : ∃ point, s.points[j]? = some point :=
    ⟨_, Array.getElem?_eq_getElem (hsize ▸ hj)⟩
  have hentry := stored?_eq hpoint
  by_cases hpc : j = pc
  · subst hpc
    have hentry' := stored?_eq (hv.leave hpoint)
    have hqueued' := isQueued_eq (hv.leave hpoint)
    refine stepAt_of_stored?_eq (hvalid j) (hentry'.trans hentry.symm)
      (fun k hedge htarget => not_edge_self hm hedge (.inr htarget)) (fun h => absurd rfl h) ?_ ?_
    · rw [hqueued']
      exact fun h => nomatch h
    · exact fun hedge _ => (not_edge_self hm hedge (.inl rfl)).elim
  by_cases htarget : b.IsTarget j
  · exact stepAt_target hd (hvalid j) hbefore hv hpc htarget hpoint
  · obtain ⟨point', hpoint', hsame, hiff⟩ := hv.other hpc htarget hpoint
    have hsame : s'.stored? j = s.stored? j := by rw [stored?_eq hpoint', hsame, hentry]
    rw [← isQueued_eq hpoint', ← isQueued_eq hpoint] at hiff
    refine stepAt_of_stored?_eq (hvalid j) hsame (fun _ _ => htarget) (fun _ h => hiff.2 (.inl h))
      ?_ (fun hedge _ => hiff.2 (.inr hedge))
    exact fun h => ⟨hpc, (hiff.1 h).imp_right fun hedge => ⟨.next, hedge⟩⟩

/-! ## The invariant -/

/-- The frame before position `i` may still change, since that before a position from which
    execution falls through to it is to be looked at. -/
inductive Pending (b : Body) (s : Progress) : Nat → Prop
  | queued {i : Nat} : s.isQueued i = true → Pending b s i
  | passed {i : Nat} : Pending b s i → b.Edge i .next (i + 1) → ¬b.IsTarget (i + 1) →
      Pending b s (i + 1)

/-- What holds between visits. -/
structure Consistent (task : Task) (b : Body) (W : Frame → Prop) (R : Frame → Frame → Prop)
    (seed : Frame) (s : Progress) : Prop where
  size : s.points.size = b.code.length
  seeded : ∃ e, s.stored? 0 = some e ∧ R e seed
  work : W s.work
  stored {i : Nat} {f : Frame} : s.stored? i = some f → W f ∧ b.IsTarget i ∧ b.Reachable i
  queued {i : Nat} : s.isQueued i = true → b.Reachable i
  /-- Between branch targets only the position at the cursor is queued, and the frame before it is
      at hand, unless it is going to be computed again anyway. -/
  cursor {i : Nat} : s.isQueued i = true → ¬b.IsTarget i → i = s.cursor ∧
    ∃ j, i = j + 1 ∧ b.Edge j .next i ∧ (task.FrameAt b s.stored? i s.work ∨ Pending b s j)
  settled {i : Nat} {f : Frame} : task.FrameAt b s.stored? i f →
    task.Settled b R s.stored? i f ∨ Pending b s i

theorem FrameAt.valid (hd : task.Domain W R) (hstore : ∀ i f, store i = some f → W f)
    (h : task.FrameAt b store i f) : W f := by
  induction h with
  | stored _ hf => exact hstore _ _ hf
  | passed _ _ _ hafter ih => exact hd.after ih hafter

/-- A frame that is different in another store is pending, if the difference is queued. -/
private theorem FrameAt.transfer {store' : Nat → Option Frame} (h : task.FrameAt b store i f)
    (hstore : ∀ j, store' j = store j ∨ s.isQueued j = true) :
    task.FrameAt b store' i f ∨ Pending b s i := by
  induction h with
  | @stored i f htarget hf =>
    rcases hstore i with hsame | hqueued
    · exact .inl (.stored htarget (hsame.trans hf))
    · exact .inr (.queued hqueued)
  | passed _ hedge hno hafter ih =>
    exact ih.imp (.passed · hedge hno hafter) (.passed · hedge hno)

/-- What is pending stays so, but for the position that is visited. -/
private theorem Pending.step (hstep : ∀ j, StepAt b W R s pc before after s' j)
    (h : Pending b s i) : Pending b s' i ∨ i = pc := by
  induction h with
  | @queued i hi =>
    by_cases hpc : i = pc
    · exact .inr hpc
    · exact .inl (.queued ((hstep i).stays hpc hi))
  | @passed i _ hedge hno ih =>
    rcases ih with ih | rfl
    · exact .inl (.passed ih hedge hno)
    · exact .inl (.queued ((hstep (i + 1)).passes hedge hno))

private theorem Settled.step (hd : task.Domain W R)
    (hstep : ∀ j, StepAt b W R s pc before after s' j) (hf : W f)
    (h : task.Settled b R s.stored? i f) : task.Settled b R s'.stored? i f := by
  obtain ⟨g, hg, h⟩ := h
  refine ⟨g, hg, fun k j hedge =>
    ⟨(h k j hedge).1, fun htarget => ?_, (h k j hedge).admitted⟩⟩
  obtain ⟨e, he, hR⟩ := (h k j hedge).2 htarget
  exact (hstep j).absorbed (hd.carries k hf hg) he hR

/-- What a visit establishes of the frame that it looks at, and keeps of the others, holds of every
    frame that is not pending, if it did so before. -/
private theorem settles_step {P P' : Nat → Frame → Prop}
    (hstep : ∀ j, StepAt b W R s pc before after s' j)
    (hpc : task.FrameAt b s.stored? pc before ∨ Pending b s' pc)
    (hkeep : ∀ {i f}, task.FrameAt b s.stored? i f → P i f → P' i f) (hnew : P' pc before)
    (h : ∀ {i f}, task.FrameAt b s.stored? i f → P i f ∨ Pending b s i)
    (hf : task.FrameAt b s'.stored? i f) : P' i f ∨ Pending b s' i := by
  -- a frame after the visit is one before it, or follows a branch target that has changed
  rcases hf.transfer (s := s') fun j => (hstep j).changed.imp_left Eq.symm with hold | hpending
  · rcases h hold with hP | hpending
    · exact .inl (hkeep hold hP)
    · rcases hpending.step hstep with hpending | rfl
      · exact .inr hpending
      · exact hpc.imp_left fun hframe => hold.unique hframe ▸ hnew
  · exact .inr hpending

/-- The frame that a visit looks at is the one before `pc`, or it will be computed again. -/
private theorem Consistent.frameAt_or_pending (hc : task.Consistent b W R seed s)
    (hpc : s.isQueued pc = true)
    (hbefore : b.IsTarget pc ∧ s.stored? pc = some before ∨ ¬b.IsTarget pc ∧ before = s.work)
    (hstep : ∀ j, StepAt b W R s pc before after s' j) :
    task.FrameAt b s.stored? pc before ∨ Pending b s' pc := by
  rcases hbefore with ⟨htarget, h⟩ | ⟨hno, rfl⟩
  · exact .inl (.stored htarget h)
  · obtain ⟨-, j, rfl, hedge, h⟩ := hc.cursor hpc hno
    refine h.imp_right fun hpending => ?_
    rcases hpending.step hstep with hpending | heq
    · exact .passed hpending hedge hno
    · omega

private theorem Consistent.valid_before (hc : task.Consistent b W R seed s)
    (hbefore : b.IsTarget pc ∧ s.stored? pc = some before ∨ ¬b.IsTarget pc ∧ before = s.work) :
    W before := by
  rcases hbefore with ⟨-, h⟩ | ⟨-, rfl⟩
  · exact (hc.stored h).1
  · exact hc.work

/-- What holds between visits holds after the next one. -/
private theorem Consistent.step (hm : task.Models b) (hd : task.Domain W R) (hseed : W seed)
    (hc : task.Consistent b W R seed s) (hpc : s.isQueued pc = true)
    (hcursor : s.isQueued s.cursor = true → pc = s.cursor)
    (hbefore : b.IsTarget pc ∧ s.stored? pc = some before ∨ ¬b.IsTarget pc ∧ before = s.work)
    (hv : task.Visited b s pc before after s') : task.Consistent b W R seed s' := by
  have hvalid : ∀ i f, s.stored? i = some f → W f := fun i f h => (hc.stored h).1
  have hW := hc.valid_before hbefore
  have hstep := stepAt_of_visited hm hd hc.size hvalid hW hv
  have hreach := hc.queued hpc
  have hpcSettled : task.Settled b R s'.stored? pc before := by
    refine ⟨after, hv.after_eq, fun k j hedge =>
      ⟨?_, (hstep j).arrived hedge, hv.admitted hedge⟩⟩
    rcases hedge.eq_next_or_isTarget with ⟨rfl, rfl⟩ | htarget
    · exact (hv.falls hedge).1
    · exact htarget.lt hm.labeled
  have hpcFrame := hc.frameAt_or_pending hpc hbefore hstep
  refine ⟨hv.size.trans hc.size, ?_, ?_, ?_, ?_, ?_, ?_⟩
  · obtain ⟨e, he, hR⟩ := hc.seeded
    exact (hstep 0).absorbed hseed he hR
  · rw [hv.work]
    exact hd.after hW hv.after_eq
  · intro i f hf
    obtain ⟨hW, hold | ⟨htarget, k, hedge⟩⟩ := (hstep i).stored hf
    · obtain ⟨f₀, hf₀⟩ := Option.isSome_iff_exists.1 hold
      exact ⟨hW, (hc.stored hf₀).2⟩
    · exact ⟨hW, htarget, .step hreach hedge⟩
  · intro i hi
    obtain ⟨-, hold | ⟨k, hedge⟩⟩ := (hstep i).queued hi
    · exact hc.queued hold
    · exact .step hreach hedge
  · intro i hi hno
    obtain ⟨hne, hold | ⟨k, hedge⟩⟩ := (hstep i).queued hi
    · -- the one queued position between branch targets was at the cursor, and has been visited
      obtain ⟨hi, -⟩ := hc.cursor hold hno
      exact absurd (hi.trans (hcursor (hi ▸ hold)).symm) hne
    · obtain ⟨rfl, rfl⟩ := hedge.eq_next_or_isTarget.resolve_right hno
      refine ⟨(hv.falls hedge).2.symm, pc, rfl, hedge, ?_⟩
      rcases hpcFrame with hframe | hpending
      · refine (hframe.transfer fun j => (hstep j).changed).imp_left fun hframe => ?_
        exact .passed hframe hedge hno (hv.work ▸ hv.after_eq)
      · exact .inr hpending
  · exact settles_step hstep hpcFrame
      (fun hframe hsettled => hsettled.step hd hstep (hframe.valid hd hvalid)) hpcSettled hc.settled

/-! ## The loop -/

theorem lt_of_isQueued (h : s.isQueued i = true) : i < s.points.size := by
  by_contra hge
  simp [Progress.isQueued, Array.getElem?_eq_none (Nat.le_of_not_lt hge)] at h

/-- The first queued position from `i` on is queued, and it is `i` if that is. -/
private theorem queuedFrom?_spec (h : s.queuedFrom? i = some pc) :
    s.isQueued pc = true ∧ (s.isQueued i = true → pc = i) := by
  have hqueued := List.find?_some h
  refine ⟨hqueued, fun hi => ?_⟩
  have hlt := lt_of_isQueued hi
  unfold Progress.queuedFrom? at h
  rw [show s.points.size - i = (s.points.size - i - 1) + 1 by omega, List.range'_succ,
    List.find?_cons_of_pos hi] at h
  exact (Option.some.inj h).symm

private theorem not_isQueued_of_queuedFrom? (h : s.queuedFrom? 0 = none) (i : Nat) :
    s.isQueued i = false := by
  by_cases hi : i < s.points.size
  · simpa using List.find?_eq_none.1 h i (by simpa using hi)
  · simp [Progress.isQueued, Array.getElem?_eq_none (Nat.le_of_not_lt hi)]

/-- The position that is visited next is queued; it is the one at the cursor if that is queued. -/
theorem next?_eq_some {c : Nat} (h : s.next? = some (pc, c)) :
    s.isQueued pc = true ∧ (s.isQueued s.cursor = true → pc = s.cursor) := by
  unfold Progress.next? at h
  split at h
  · rename_i hfrom
    cases h
    exact queuedFrom?_spec hfrom
  · rename_i hnone
    cases hzero : s.queuedFrom? 0 with
    | none => simp [hzero] at h
    | some pc' =>
      simp only [hzero, Option.map_some, Option.some.injEq, Prod.mk.injEq] at h
      obtain ⟨rfl, -⟩ := h
      -- the search starts over only if nothing is queued from the cursor on
      refine ⟨(queuedFrom?_spec hzero).1, fun hcursor => ?_⟩
      have hlt := lt_of_isQueued hcursor
      have := List.find?_eq_none.1 hnone s.cursor (by rw [List.mem_range'_1]; omega)
      exact absurd hcursor this

/-- Nothing is queued when nothing is left to visit. -/
theorem next?_eq_none (h : s.next? = none) (i : Nat) : s.isQueued i = false := by
  unfold Progress.next? at h
  split at h
  · exact nomatch h
  · exact not_isQueued_of_queuedFrom? (Option.map_eq_none_iff.1 h) i

variable {config : Config}

/-- The frame before a position is the stored one at a branch target, and elsewhere the one that the
    last visit has left. -/
theorem frameBefore_eq_ok (hm : task.Models b) (h : task.frameBefore s pc = .ok before) :
    pc < b.code.length ∧
      (b.IsTarget pc ∧ s.stored? pc = some before ∨ ¬b.IsTarget pc ∧ before = s.work) := by
  obtain ⟨site, hsite, h⟩ := bind_eq_ok.1 h
  obtain ⟨hlt, htarget, -⟩ := hm.layout.site hsite
  refine ⟨hlt, ?_⟩
  split at h
  · refine .inl ⟨htarget.1 ‹_›, ?_⟩
    unfold Progress.stored?
    split at h
    · cases h
      assumption
    · exact nomatch h
  · cases h
    exact .inr ⟨mt htarget.2 ‹_›, rfl⟩

/-- A turn of the loop runs a visit in the frame before the position. -/
theorem advance_eq : task.advance config s pc =
    match task.frameBefore s pc with
    | .error fault => .error (.hard (.fault fault) none)
    | .ok before =>
      match (task.visit s pc before).runs config.allowWarnings [] with
      | (.error objection, _) => .error (objection.failure pc)
      | (.ok s', warnings) =>
        .ok { s' with visits := s.visits + 1, flags := Progress.addFlags s.flags pc warnings } := by
  unfold advance advanceM ReportT.runs
  cases task.frameBefore s pc with
  | error fault => rfl
  | ok before =>
    rcases hruns : (task.visit s pc before).runFrom config.allowWarnings [] with ⟨e | s', ws⟩
    all_goals
      dsimp only
      rw [hruns]
      rfl

/-- A turn of the loop succeeds if the visit does, without a warning that is not allowed. -/
theorem advance_eq_ok_iff : task.advance config s pc = .ok s' ↔ ∃ before s₁ warnings,
    task.frameBefore s pc = .ok before ∧ (task.visit s pc before).outcome = (.ok s₁, warnings) ∧
    (warnings = [] ∨ config.allowWarnings = true) ∧
    s' = { s₁ with visits := s.visits + 1, flags := Progress.addFlags s.flags pc warnings } := by
  rw [advance_eq]
  cases task.frameBefore s pc with
  | error e => simp
  | ok before =>
    -- a visit comes to the same end whether warnings are allowed or not, unless it warns
    have hiff (s₁ : Progress) (ws : List Warning) :
        (task.visit s pc before).runs config.allowWarnings [] = (.ok s₁, ws) ↔
          (task.visit s pc before).outcome = (.ok s₁, ws) ∧
            (ws = [] ∨ config.allowWarnings = true) :=
      (task.raises_visit s pc before).runs_eq_ok_iff
    rcases hruns : (task.visit s pc before).runs config.allowWarnings [] with ⟨e | s₁, ws⟩
    all_goals
      dsimp only
      rw [hruns] at hiff ⊢
    · constructor
      · exact fun h => nomatch h
      · rintro ⟨_, s₁, ws', h, hvisit, hallowed, -⟩
        cases h
        exact nomatch (hiff s₁ ws').2 ⟨hvisit, hallowed⟩
    · obtain ⟨hvisit, hallowed⟩ := (hiff s₁ ws).1 rfl
      constructor
      · intro h
        cases h
        exact ⟨before, s₁, ws, rfl, hvisit, hallowed, rfl⟩
      · rintro ⟨_, s₂, ws', h, hvisit', -, rfl⟩
        cases h
        cases hvisit.symm.trans hvisit'
        rfl

/-- The warnings after a visit are those before it and those that it has raised. -/
theorem mem_addFlags_iff {flags : List Flag} {ws : List Warning} {flag : Flag} :
    flag ∈ Progress.addFlags flags pc ws ↔
      flag ∈ flags ∨ ∃ w ∈ ws, flag = { warning := w, pc } := by
  have hadd {flags : List Flag} {new : Flag} :
      flag ∈ Progress.addFlag flags new ↔ flag ∈ flags ∨ flag = new := by
    unfold Progress.addFlag
    split
    · exact ⟨.inl, fun h => h.elim id fun heq => heq ▸ ‹_›⟩
    · rw [List.mem_append, List.mem_singleton]
  unfold Progress.addFlags
  induction ws generalizing flags with
  | nil => simp
  | cons w ws ih => simp [ih, hadd, or_assoc]

/-- One turn of the loop is a visit in the frame before the position. -/
theorem advance_eq_ok (hm : task.Models b) {c : Nat}
    (h : task.advance config { s with cursor := c } pc = .ok s') :
    ∃ before after, task.frameBefore { s with cursor := c } pc = .ok before ∧
      (b.IsTarget pc ∧ s.stored? pc = some before ∨ ¬b.IsTarget pc ∧ before = s.work) ∧
      task.Visited b s pc before after s' := by
  obtain ⟨before, s₁, warnings, hbefore, hvisit, -, rfl⟩ := advance_eq_ok_iff.1 h
  obtain ⟨hlt, hframe⟩ := frameBefore_eq_ok hm hbefore
  obtain ⟨after, hv⟩ := visited_of_visit hm hlt (congrArg Prod.fst hvisit)
  exact ⟨before, after, hbefore, hframe, hv.after_eq, hv.work, hv.falls, hv.size, hv.leave,
    hv.target, hv.admitted, hv.other⟩

/-- What holds between visits holds after the next turn of the loop. -/
theorem Consistent.advance (hm : task.Models b) (hd : task.Domain W R) (hseed : W seed)
    (hc : task.Consistent b W R seed s) {c : Nat} (hnext : s.next? = some (pc, c))
    (h : task.advance config { s with cursor := c } pc = .ok s') :
    task.Consistent b W R seed s' := by
  obtain ⟨before, after, -, hbefore, hv⟩ := advance_eq_ok hm h
  obtain ⟨hpc, hcursor⟩ := next?_eq_some hnext
  exact hc.step hm hd hseed hpc hcursor hbefore hv

theorem solve_of_next?_eq_none (h : s.next? = none) (n : Nat) : task.solve config n s = .ok s := by
  unfold solve solveM
  rw [h]
  rfl

theorem solve_zero {c : Nat} (h : s.next? = some (pc, c)) :
    task.solve config 0 s = .error (.hard (.fault .visitOverflow) none) := by
  unfold solve solveM
  rw [h]
  rfl

theorem solve_of_exhausted {c max : Nat} (hbudget : config.exhausted? s.visits = some max)
    (h : s.next? = some (pc, c)) (n : Nat) :
    task.solve config (n + 1) s = .error (.hard (.budget max) (some pc)) := by
  unfold solve solveM
  simp only [h, hbudget]
  rfl

/-- A turn of the loop is one visit, unless the budget is used up. -/
theorem solve_of_budget {c : Nat} (hbudget : config.exhausted? s.visits = none)
    (h : s.next? = some (pc, c)) (n : Nat) : task.solve config (n + 1) s =
      task.advance config { s with cursor := c } pc >>= task.solve config n := by
  show Id.run (task.solveM config (n + 1) s) = _
  unfold solveM advance
  simp only [h, hbudget]
  rcases hadvance : task.advanceM config { s with cursor := c } pc with e | s'
  all_goals rfl

/-- A property that every visit keeps holds when nothing is queued any more. -/
theorem solve_invariant {P : Progress → Prop} {n : Nat}
    (hstep : ∀ s pc c s', P s → s.next? = some (pc, c) →
      task.advance config { s with cursor := c } pc = .ok s' → P s')
    (hs : P s) (h : task.solve config n s = .ok s') : P s' ∧ s'.next? = none := by
  induction n generalizing s with
  | zero =>
    cases hnext : s.next? with
    | none =>
      rw [solve_of_next?_eq_none hnext] at h
      cases h
      exact ⟨hs, hnext⟩
    | some next =>
      rw [solve_zero hnext] at h
      cases h
  | succ n ih =>
    cases hnext : s.next? with
    | none =>
      rw [solve_of_next?_eq_none hnext] at h
      cases h
      exact ⟨hs, hnext⟩
    | some next =>
      cases hbudget : config.exhausted? s.visits with
      | some max =>
        rw [solve_of_exhausted hbudget hnext] at h
        cases h
      | none =>
        rw [solve_of_budget hbudget hnext] at h
        obtain ⟨s₁, hadvance, h⟩ := bind_eq_ok.1 h
        exact ih (hstep _ _ _ _ hs hnext hadvance) h

/-- At the start only the entry is known, and it is queued. -/
theorem start_spec (size : Nat) (hsize : 0 < size) (seed : Frame) :
    (∀ i, (Progress.start size seed).stored? i = if i = 0 then some seed else none) ∧
      ∀ i, (Progress.start size seed).isQueued i = decide (i = 0) := by
  have hpoints : ∀ i, (Progress.start size seed).points[i]? =
      if i = 0 then some { entry := some seed, queued := true }
      else if i < size then some {} else none := by
    intro i
    simp only [Progress.start, Array.getElem?_modify, Array.getElem?_replicate]
    by_cases hi : i = 0
    · simp [hi, hsize]
    · simp [hi, Ne.symm hi]
  constructor
  · intro i
    simp only [Progress.stored?, hpoints]
    repeat' split
    all_goals rfl
  · intro i
    simp only [Progress.isQueued, hpoints]
    repeat' split
    all_goals simp_all

/-- At the start nothing has been looked at. -/
private theorem pending_start (hm : task.Models b)
    (hf : task.FrameAt b (Progress.start task.env.layout.size seed).stored? i f) :
    Pending b (.start task.env.layout.size seed) i := by
  have hlt := (show b.IsTarget 0 from .inl rfl).lt hm.labeled
  rw [← hm.layout.size] at hlt
  obtain ⟨hstored, hqueued⟩ := start_spec _ hlt seed
  induction hf with
  | @stored i f _ hf =>
    rw [hstored, Option.ite_none_right_eq_some] at hf
    exact .queued (by simp [hqueued, hf.1])
  | passed _ hedge hno _ ih => exact .passed ih hedge hno

theorem consistent_start (hm : task.Models b) (hd : task.Domain W R) (hseed : W seed) :
    task.Consistent b W R seed (.start task.env.layout.size seed) := by
  have hentry : b.IsTarget 0 := .inl rfl
  have hlt := hentry.lt hm.labeled
  rw [← hm.layout.size] at hlt
  obtain ⟨hstored, hqueued⟩ := start_spec _ hlt seed
  refine ⟨by simp [Progress.start, hm.layout.size], ⟨seed, hstored 0, hd.refl seed⟩, hseed,
    ?_, ?_, ?_, ?_⟩
  · intro i f hf
    rw [hstored, Option.ite_none_right_eq_some] at hf
    obtain ⟨rfl, hf⟩ := hf
    cases hf
    exact ⟨hseed, hentry, .entry⟩
  · intro i hi
    obtain rfl : i = 0 := by simpa [hqueued] using hi
    exact .entry
  · intro i hi hno
    obtain rfl : i = 0 := by simpa [hqueued] using hi
    exact absurd hentry hno
  · exact fun hf => .inr (pending_start hm hf)

/-- Nothing is pending when nothing is left to visit. -/
private theorem not_pending (h : s.next? = none) : ¬Pending b s i := by
  intro hi
  induction hi with
  | queued hi => simp [next?_eq_none h] at hi
  | passed _ _ _ ih => exact ih

/-- What a turn of the loop establishes of the frame that it looks at, and keeps of the others,
    holds afterwards of every frame that is not pending. -/
private theorem Consistent.settles_advance {P P' : Nat → Frame → Prop} {c : Nat}
    (hm : task.Models b) (hc : task.Consistent b (fun _ => True) (fun _ _ => True) seed s)
    (hnext : s.next? = some (pc, c))
    (hadvance : task.advance config { s with cursor := c } pc = .ok s')
    (hkeep : ∀ {i f}, P i f → P' i f)
    (hnew : ∀ {before}, task.frameBefore { s with cursor := c } pc = .ok before → P' pc before)
    (h : ∀ {i f}, task.FrameAt b s.stored? i f → P i f ∨ Pending b s i)
    (hf : task.FrameAt b s'.stored? i f) : P' i f ∨ Pending b s' i := by
  obtain ⟨before, after, hbefore, hframe, hv⟩ := advance_eq_ok hm hadvance
  have hstep := stepAt_of_visited hm task.domain_true hc.size (fun _ _ _ => trivial) trivial hv
  exact settles_step hstep (hc.frameAt_or_pending (next?_eq_some hnext).1 hframe hstep)
    (fun _ => hkeep) (hnew hbefore) h hf

/-- What every visit establishes of the frame that it looks at, and no visit undoes, holds of all
    frames when the worklist has come to an end. -/
theorem frames_of_solve {P : Progress → Nat → Frame → Prop} (hm : task.Models b)
    (hkeep : ∀ {s s' : Progress} {pc c i : Nat} {f : Frame},
      task.advance config { s with cursor := c } pc = .ok s' → P s i f → P s' i f)
    (hnew : ∀ {s s' : Progress} {pc c : Nat} {before : Frame},
      task.frameBefore { s with cursor := c } pc = .ok before →
      task.advance config { s with cursor := c } pc = .ok s' → P s' pc before) {n : Nat}
    (h : task.solve config n (.start task.env.layout.size seed) = .ok s)
    (hf : task.FrameAt b s.stored? i f) : P s i f := by
  have hd := task.domain_true
  obtain ⟨⟨-, hsettles⟩, hnone⟩ := solve_invariant
    (P := fun s => task.Consistent b (fun _ => True) (fun _ _ => True) seed s ∧
      ∀ {i f}, task.FrameAt b s.stored? i f → P s i f ∨ Pending b s i)
    (fun _ _ _ _ hs hnext hadvance => ⟨hs.1.advance hm hd trivial hnext hadvance,
      hs.1.settles_advance hm hnext hadvance (hkeep hadvance) (hnew · hadvance) hs.2⟩)
    ⟨consistent_start hm hd trivial, fun hf => .inr (pending_start hm hf)⟩ h
  exact (hsettles hf).resolve_right (not_pending hnone)

/-- When the worklist has come to an end, the frames at the branch targets are closed under
    execution. -/
theorem closed_of_solve (hm : task.Models b) (hd : task.Domain W R) (hseed : W seed) {n : Nat}
    (h : task.solve config n (.start task.env.layout.size seed) = .ok s) :
    s.points.size = b.code.length ∧ task.Closed b W R seed s.stored? := by
  obtain ⟨hc, hnone⟩ := solve_invariant (P := task.Consistent b W R seed)
    (fun _ _ _ _ hc hnext hadvance => hc.advance hm hd hseed hnext hadvance)
    (consistent_start hm hd hseed) h
  have hsettled : ∀ {i f}, task.FrameAt b s.stored? i f → task.Settled b R s.stored? i f :=
    fun hf => (hc.settled hf).resolve_right (not_pending hnone)
  refine ⟨hc.size, hc.seeded, fun hf => (hc.stored hf).2, fun hi => ?_,
    fun hf => hf.valid hd fun _ _ h => (hc.stored h).1, hsettled⟩
  induction hi with
  | entry =>
    obtain ⟨e, he, -⟩ := hc.seeded
    exact ⟨e, .stored (.inl rfl) he⟩
  | @step i j k _ hedge ih =>
    obtain ⟨f, hf⟩ := ih
    obtain ⟨g, hg, hedges⟩ := hsettled hf
    by_cases htarget : b.IsTarget j
    · obtain ⟨e, he, -⟩ := (hedges k j hedge).2 htarget
      exact ⟨e, .stored htarget he⟩
    · obtain ⟨rfl, rfl⟩ := hedge.eq_next_or_isTarget.resolve_right htarget
      exact ⟨g, .passed hf hedge htarget hg⟩

/-! ## Paths -/

/-- The frame where an edge leads takes in what the edge brings along. -/
theorem Closed.takesIn {e : Frame} {k : EdgeKind} (hc : task.Closed b W R seed store)
    (hrefl : ∀ x, R x x) (hf : task.FrameAt b store i f) (hedge : b.Edge i k j)
    (he : task.FrameAt b store j e) : ∃ g, task.after i f = .ok g ∧ R e (k.carries f g) := by
  obtain ⟨g, hg, hedges⟩ := hc.settled hf
  refine ⟨g, hg, ?_⟩
  -- the frame at `j` is stored there, or it is the one that the edge brings along
  by_cases htarget : b.IsTarget j
  · obtain ⟨e', he', hR⟩ := (hedges k j hedge).2 htarget
    cases he.unique (.stored htarget he')
    exact hR
  · obtain ⟨rfl, rfl⟩ := hedge.eq_next_or_isTarget.resolve_right htarget
    cases he.unique (.passed hf hedge htarget hg)
    exact hrefl _

/-- What holds on entry and is kept by every step holds at the end of every path. -/
theorem Closed.along_path {P : List (Nat × EdgeKind) → Nat → Frame → Prop}
    (hc : task.Closed b W R seed store) (hrefl : ∀ x, R x x) (hentry : ∀ e, R e seed → P [] 0 e)
    (hstep : ∀ {steps i j k f g e}, b.Path steps i → task.FrameAt b store i f → P steps i f →
      task.after i f = .ok g → b.Edge i k j → R e (k.carries f g) → P (steps ++ [(i, k)]) j e)
    {steps : List (Nat × EdgeKind)} (hpath : b.Path steps i) (hf : task.FrameAt b store i f) :
    P steps i f := by
  induction hpath generalizing f with
  | entry =>
    obtain ⟨e, he, hR⟩ := hc.seeded
    cases hf.unique (.stored (.inl rfl) he)
    exact hentry _ hR
  | step hpath hedge ih =>
    obtain ⟨f₀, hf₀⟩ := hc.covered hpath.reachable
    obtain ⟨g, hg, hR⟩ := hc.takesIn hrefl hf₀ hedge hf
    exact hstep hpath hf₀ (ih hf₀) hg hedge hR

end Task

end BytecodeVerifier
