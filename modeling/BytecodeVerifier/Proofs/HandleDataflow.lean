import BytecodeVerifier.Proofs.HandleTransfer
import BytecodeVerifier.Proofs.Worklist
import BytecodeVerifier.TypeTable.HandleVerifier

/-!
# Dataflow by handles

On frames of handles the worklist takes the same way as on frames of types: a frame of handles
changes by a merge if and only if the frame that it shows does, so the same positions are queued,
and visited in the same order (`Task.gives_solve`).
-/

namespace BytecodeVerifier

open TypeTable (Extends Reachable Denotes)
open Related (Reads)

instance {α β : Type} [Related α β] : Related (Array α) (Array β) where
  Reads t as bs := Reads t as.toList bs.toList
  mono ht h := Related.mono ht h

/-- The table reads the frame that is known of a position as the other. -/
structure Point.Shows (t : TypeTable) (P : Point HandleFrame) (q : Point) : Prop where
  visited : P.visited = q.visited
  queued : P.queued = q.queued
  entry : Reads t P.entry q.entry

instance : Related (Point HandleFrame) Point where
  Reads := Point.Shows
  mono ht h := { h with entry := Related.mono ht h.entry }

/-- The table reads what is known of a method as the other. -/
structure Progress.Shows (t : TypeTable) (S : Progress HandleFrame) (s : Progress) : Prop where
  points : Reads t S.points s.points
  work : Reads t S.work s.work
  cursor : S.cursor = s.cursor
  visits : S.visits = s.visits
  flags : S.flags = s.flags

theorem Progress.Shows.mono {t t' : TypeTable} {S : Progress HandleFrame} {s : Progress}
    (h : S.Shows t s) (ht : t.Extends t') : S.Shows t' s :=
  { h with
    points := Related.mono ht h.points
    work := Related.mono ht h.work }

instance : Related (Progress HandleFrame) Progress where
  Reads := Progress.Shows
  mono ht h := h.mono ht

variable {t : TypeTable} {F : HandleFrame} {f : Frame}

/-! ## Positions -/

namespace Point

variable {P : Point HandleFrame} {q : Point} {Ps : Array (Point HandleFrame)} {qs : Array Point}

open Lookup (Gives gives_pure)

/-- Execution arrives in both frames, and both positions are queued or neither is. -/
theorem gives_arrive (p : ClassPool) (hP : P.Shows t q) (hF : F.Shows t f) :
    Gives t (P.arrive p F) (q.arrived p f) := by
  obtain ⟨visited, queued, entry⟩ := P
  obtain ⟨visited', queued', entry'⟩ := q
  obtain ⟨rfl, rfl, hentry⟩ := hP
  dsimp only at hentry
  cases hentry with
  | none =>
    rw [arrived_of_none rfl]
    exact gives_pure fun _ => ⟨rfl, rfl, .some hF⟩
  | @some G g hG =>
    rw [arrived_of_some rfl]
    unfold arrive
    dsimp only [Flow.absorb]
    rw [HandleFrame.absorb_eq, bind_assoc]
    apply Lookup.Gives.bind (HandleFrame.gives_mergeFrames p hG hF)
    intro t' M hext hM
    apply gives_pure
    intro ht
    -- the handles change if and only if the types do
    have heq := HandleFrame.Shows.eq_iff ht hM (hG.mono hext)
    have hne : (M != G) = (g.merge p f != g) := by
      by_cases hsame : M = G
      · rw [bne_eq_false_iff_eq.2 hsame, bne_eq_false_iff_eq.2 (heq.1 hsame)]
      · rw [bne_iff_ne.2 hsame, bne_iff_ne.2 fun h => hsame (heq.2 h)]
    exact ⟨rfl, congrArg (queued || ·) hne, .some hM⟩

theorem Shows.monitorMismatch?_eq (hP : P.Shows t q) (hF : F.Shows t f) (pc : Nat) :
    P.monitorMismatch? F pc = q.monitorMismatch? f pc := by
  obtain ⟨visited, queued, entry⟩ := P
  obtain ⟨visited', queued', entry'⟩ := q
  have hentry : entry.bind HandleFrame.monitors = entry'.bind Frame.monitors := by
    cases hP.entry with
    | none => rfl
    | some hG => exact hG.monitors
  unfold monitorMismatch?
  dsimp only [Flow.monitors]
  rw [hF.monitors, hentry]

theorem Shows.queue (hP : P.Shows t q) : P.queue.Shows t q.queue :=
  ⟨hP.visited, rfl, hP.entry⟩

theorem Shows.leave (hP : P.Shows t q) : P.leave.Shows t q.leave :=
  ⟨rfl, rfl, hP.entry⟩

theorem getElem?_points (h : Reads t Ps qs) (i : Nat) :
    Option.Rel (Point.Shows t) Ps[i]? qs[i]? := by
  rw [← Array.getElem?_toList, ← Array.getElem?_toList]
  exact List.Forall₂.getElem? h i

theorem set_points (h : Reads t Ps qs) (i : Nat) (hP : P.Shows t q) :
    Reads t (Ps.setIfInBounds i P) (qs.setIfInBounds i q) := by
  show Reads t (Ps.setIfInBounds i P).toList (qs.setIfInBounds i q).toList
  rw [Array.toList_setIfInBounds, Array.toList_setIfInBounds]
  exact List.Forall₂.set h i hP

theorem modify_points {k : Point HandleFrame → Point HandleFrame} {l : Point → Point}
    (h : Reads t Ps qs) (i : Nat) (hkl : ∀ P q, P.Shows t q → (k P).Shows t (l q)) :
    Reads t (Ps.modify i k) (qs.modify i l) := by
  show Reads t (Ps.modify i k).toList (qs.modify i l).toList
  rw [Array.toList_modify, Array.toList_modify]
  exact List.Forall₂.modify h i hkl

end Point

namespace Progress

variable {S : Progress HandleFrame} {s : Progress}

theorem shows_start (hF : F.Shows t f) (size : Nat) :
    (start size F).Shows t (start size f) := by
  have hblank : Reads t (Array.replicate size ({} : Point HandleFrame))
      (Array.replicate size ({} : Point)) := by
    show Reads t (Array.replicate size ({} : Point HandleFrame)).toList
      (Array.replicate size ({} : Point)).toList
    rw [Array.toList_replicate, Array.toList_replicate]
    exact List.forall₂_replicate size ⟨rfl, rfl, .none⟩
  refine ⟨?_, hF, rfl, rfl, rfl⟩
  exact Point.modify_points hblank 0 fun P q hP => ⟨hP.visited, rfl, .some hF⟩

/-- The same positions are queued. -/
theorem Shows.isQueued_eq (hS : S.Shows t s) (pc : Nat) : S.isQueued pc = s.isQueued pc := by
  have hpoint := Point.getElem?_points hS.points pc
  unfold isQueued
  revert hpoint
  generalize S.points[pc]? = P
  generalize s.points[pc]? = q
  intro hpoint
  cases hpoint with
  | none => rfl
  | some hP => exact hP.queued

theorem Shows.next?_eq (hS : S.Shows t s) : S.next? = s.next? := by
  have hsize : S.points.size = s.points.size := List.Forall₂.length_eq hS.points
  have hqueued : S.isQueued = s.isQueued := funext hS.isQueued_eq
  have hfrom : ∀ i, S.queuedFrom? i = s.queuedFrom? i := by
    intro i
    rw [queuedFrom?, queuedFrom?, hsize, hqueued]
  unfold next?
  rw [hS.cursor, hfrom s.cursor]
  cases s.queuedFrom? s.cursor with
  | some pc => rfl
  | none => exact congrArg (Option.map (·, 0)) (hfrom 0)

end Progress

instance {α β : Type} [Related α β] : Related (α × List Warning) (β × List Warning) where
  Reads t a b := Reads t a.1 b.1 ∧ a.2 = b.2
  mono ht h := ⟨Related.mono ht h.1, h.2⟩

namespace TableReport

open Lookup (Gives gives_pure)

/-- A check as work with the table. -/
theorem Simulates.gives {α β : Type} [Related α β] {r : TableReport α} {s : Report β}
    (hr : Simulates t r s) (allowed : Bool) :
    Gives t (r.runFrom allowed []) (s.runs allowed []) := by
  intro ht
  obtain ⟨ht', hext, hws, hread⟩ := hr ht allowed []
  exact ⟨ht', hext, hread, hws⟩

variable {S : Progress HandleFrame} {s : Progress} {Ps : Array (Point HandleFrame)}
  {qs : Array Point} (task : Task)

/-! ## Visits -/

theorem simulates_deliver (hF : F.Shows t f) (hPs : Reads t Ps qs) (target : Nat) :
    Simulates t (task.deliver F Ps target) (task.deliver f qs target) := by
  have hpoint := Point.getElem?_points hPs target
  unfold Task.deliver
  revert hpoint
  generalize Ps[target]? = P
  generalize qs[target]? = q
  intro hpoint
  cases hpoint with
  | none => exact simulates_reject _
  | @some P q hP =>
    dsimp only
    rw [ReportT.lift_bind, hP.monitorMismatch?_eq hF target]
    apply simulates_lift_bind (Point.gives_arrive task.env.pool hP hF)
    intro t' P' hext hP'
    have hend : Simulates t' (pure (Ps.setIfInBounds target P'))
        (pure (qs.setIfInBounds target (q.arrived task.env.pool f))) :=
      simulates_pure fun _ => Point.set_points (Related.mono hext hPs) target hP'
    cases q.monitorMismatch? f target with
    | none => exact hend
    | some w => exact (agrees_flag w).bind_simulates fun _ => hend

theorem simulates_deliverNormally (hF : F.Shows t f) (hPs : Reads t Ps qs) (target : Nat) :
    Simulates t (task.deliverNormally F Ps target) (task.deliverNormally f qs target) := by
  have hedge : Agrees t (task.checkNormalEdge target) (task.checkNormalEdge target) := by
    apply (agrees_ofFault _).bind
    intro site
    split
    · exact agrees_reject _
    · exact agrees_pure ()
  exact hedge.bind_simulates fun _ => simulates_deliver task hF hPs target

theorem simulates_fallThrough (hF : F.Shows t f) (hPs : Reads t Ps qs) (next : Nat) :
    Simulates t (task.fallThrough F Ps next) (task.fallThrough f qs next) := by
  unfold Task.fallThrough
  apply simulates_guard fun _ => Iff.rfl
  apply (agrees_ofFault _).bind_simulates
  intro site
  split
  · exact simulates_deliverNormally task hF hPs next
  · apply simulates_pure
    intro _
    exact Point.modify_points hPs next fun _ _ hP => hP.queue

/-- Execution arrives at one position after another. -/
theorem simulates_foldlM
    {k : Array (Point HandleFrame) → Nat → TableReport (Array (Point HandleFrame))}
    {l : Array Point → Nat → Report (Array Point)} (targets : List Nat) (hPs : Reads t Ps qs)
    (hkl : ∀ t' Ps qs target, t.Extends t' → Reads t' Ps qs →
      Simulates t' (k Ps target) (l qs target)) :
    Simulates t (targets.foldlM k Ps) (targets.foldlM l qs) := by
  -- each arrival may issue handles by a merge, so the table goes on with the induction
  induction targets generalizing t Ps qs with
  | nil => exact simulates_pure fun _ => hPs
  | cons target targets ih =>
    rw [List.foldlM_cons, List.foldlM_cons]
    apply (hkl t Ps qs target (.refl t) hPs).bind
    intro t' Ps' qs' hext hPs'
    exact ih hPs' fun t'' Ps qs target hext' hPs => hkl t'' Ps qs target (hext.trans hext') hPs

theorem reads_frameBefore (hS : S.Shows t s) (pc : Nat) :
    Reads t (task.frameBefore S pc) (task.frameBefore s pc) := by
  have hpoint := Point.getElem?_points hS.points pc
  unfold Task.frameBefore
  cases task.env.layout.site pc with
  | error e => exact .error e
  | ok site =>
    dsimp only [bind, Except.bind]
    split
    · revert hpoint
      generalize S.points[pc]? = P
      generalize s.points[pc]? = q
      intro hpoint
      cases hpoint with
      | none => exact .error _
      | @some P q hP =>
        obtain ⟨visited, queued, entry⟩ := P
        obtain ⟨visited', queued', entry'⟩ := q
        cases hP.entry with
        | none => exact .error _
        | some hG => exact .ok hG
    · exact .ok hS.work

private theorem simulates_frameAfter (hF : F.Shows t f) (pc : Nat) (o : Operation) :
    Simulates t (task.frameAfter pc o F) (task.frameAfter pc o f) := by
  intro ht
  unfold Task.frameAfter
  split
  · exact simulates_transfer task.env hF pc o ht
  · exact simulates_transfer task.env (hF.clearResult ht) pc o ht

private theorem simulates_depart {G : HandleFrame} {g : Frame} (hS : S.Shows t s)
    (hF : F.Shows t f) (hG : G.Shows t g) (pc : Nat) (o : Operation) :
    Simulates t (task.depart S pc o F G) (task.depart s pc o f g) := by
  intro ht
  -- an exception leaves with the frame before the operation
  have hcleared := hF.clearResult ht
  revert ht
  unfold Task.depart
  apply Simulates.bind (simulates_foldlM _ hS.points
    fun t' Ps qs target hext hPs => simulates_deliver task (hcleared.mono hext) hPs target)
  intro t₁ Ps₁ qs₁ hext₁ hPs₁
  have hG₁ := hG.mono hext₁
  apply (agrees_ofFault _).bind_simulates
  intro jumps
  apply Simulates.bind (simulates_foldlM _ hPs₁
    fun t' Ps qs target hext hPs => simulates_deliverNormally task (hG₁.mono hext) hPs target)
  intro t₂ Ps₂ qs₂ hext₂ hPs₂
  have hG₂ := hG₁.mono hext₂
  split
  · apply (simulates_fallThrough task hG₂ hPs₂ (pc + 1)).bind
    intro t₃ Ps₃ qs₃ hext₃ hPs₃
    apply simulates_pure
    intro _
    exact ⟨hPs₃, hG₂.mono hext₃, rfl, hS.visits, hS.flags⟩
  · apply simulates_pure
    intro _
    exact ⟨hPs₂, hG₂, congrArg jumps.headD hS.cursor, hS.visits, hS.flags⟩

theorem simulates_visitOperation (hS : S.Shows t s) (hF : F.Shows t f) (pc : Nat)
    (o : Operation) :
    Simulates t (task.visitOperation S pc o F) (task.visitOperation s pc o f) := by
  apply (simulates_frameAfter task hF pc o).bind
  intro t' G g hext hG
  exact simulates_depart task (hS.mono hext) (hF.mono hext) hG pc o

theorem simulates_visitLabel (hS : S.Shows t s) (hF : F.Shows t f) (pc : Nat) :
    Simulates t (task.visitLabel S pc F) (task.visitLabel s pc f) := by
  apply (simulates_fallThrough task hF hS.points (pc + 1)).bind
  intro t' Ps qs hext hPs
  apply simulates_pure
  intro _
  exact ⟨hPs, hF.mono hext, rfl, hS.visits, hS.flags⟩

/-- A visit does to frames of handles what it does to the frames that they show. -/
theorem simulates_visit (hS : S.Shows t s) (hF : F.Shows t f) (pc : Nat) :
    Simulates t (task.visit S pc F) (task.visit s pc f) := by
  have hleave : ∀ (t' : TypeTable) (S' : Progress HandleFrame) (s' : Progress), t.Extends t' →
      Reads t' S' s' → Simulates t'
      (pure { S' with points := S'.points.modify pc Point.leave } :
        TableReport (Progress HandleFrame))
      (pure { s' with points := s'.points.modify pc Point.leave }) := by
    intro t' S' s' _ hS'
    apply simulates_pure
    intro _
    exact { hS' with points := Point.modify_points hS'.points pc fun _ _ hP => hP.leave }
  unfold Task.visit
  cases task.operation? pc with
  | some o => exact (simulates_visitOperation task hS hF pc o).bind hleave
  | none => exact (simulates_visitLabel task hS hF pc).bind hleave

end TableReport

namespace Task

open Lookup (Gives gives_pure)
open TableReport

variable {S : Progress HandleFrame} {s : Progress} (task : Task) (config : Config)

/-! ## The worklist -/

theorem gives_advance (hS : S.Shows t s) (pc : Nat) :
    Gives t (task.advanceM config S pc) (task.advance config s pc) := by
  have hbefore := reads_frameBefore task hS pc
  rw [advance_eq]
  unfold advanceM
  revert hbefore
  generalize task.frameBefore S pc = before
  generalize task.frameBefore s pc = before'
  intro hbefore
  cases hbefore with
  | error fault => exact gives_pure fun _ => .error _
  | @ok F f hF =>
    have hvisit := (simulates_visit task hS hF pc).gives config.allowWarnings
    dsimp only
    revert hvisit
    generalize (task.visit s pc f).runs config.allowWarnings [] = outcome
    intro hvisit
    apply Gives.bind hvisit
    intro t' R _ hR
    obtain ⟨R, warnings⟩ := R
    obtain ⟨r, warnings'⟩ := outcome
    obtain ⟨hr, rfl⟩ := hR
    cases hr with
    | error objection => exact gives_pure fun _ => .error _
    | ok hS' =>
      apply gives_pure
      intro _
      exact .ok { hS' with
        visits := congrArg (· + 1) hS.visits
        flags := congrArg (Progress.addFlags · pc warnings) hS.flags }

/-- The same positions are visited in the same order, with the same outcome. -/
theorem gives_solve (n : Nat) (hS : S.Shows t s) :
    Gives t (task.solveM config n S) (task.solve config n s) := by
  -- on the visits that are left; both know the next position from the points alone
  induction n generalizing t S s with
  | zero =>
    unfold solveM
    rw [hS.next?_eq]
    cases hnext : s.next? with
    | none =>
      rw [solve_of_next?_eq_none hnext]
      exact gives_pure fun _ => .ok hS
    | some next =>
      rw [solve_zero hnext]
      exact gives_pure fun _ => .error _
  | succ n ih =>
    unfold solveM
    rw [hS.next?_eq]
    cases hnext : s.next? with
    | none =>
      rw [solve_of_next?_eq_none hnext]
      exact gives_pure fun _ => .ok hS
    | some next =>
      obtain ⟨pc, cursor⟩ := next
      dsimp only
      rw [hS.visits]
      cases hbudget : config.exhausted? s.visits with
      | some max =>
        rw [solve_of_exhausted hbudget hnext]
        exact gives_pure fun _ => .error _
      | none =>
        rw [solve_of_budget hbudget hnext]
        have hS' : Progress.Shows t { S with cursor, visits := s.visits } { s with cursor } :=
          { hS with cursor := rfl, visits := rfl }
        have hadvance := gives_advance task config hS' pc
        revert hadvance
        generalize task.advance config { s with cursor } pc = r
        intro hadvance
        apply Gives.bind hadvance
        intro t' R hext hR
        cases hR with
        | ok hS₁ => exact ih hS₁
        | error e => exact gives_pure fun _ => .error e

end Task

end BytecodeVerifier
