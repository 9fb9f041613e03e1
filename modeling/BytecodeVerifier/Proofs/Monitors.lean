import BytecodeVerifier.Proofs.Bookkeeping

/-!
# Visits without a warning about monitors

A visit warns where a monitor is left that is not held, where the method is left with monitors held,
and where paths meet that do not hold the same number of them. Without such a warning the operation
allows the number of monitors held, and every frame that is stored still knows its number
(`Task.held_of_visit`).
-/

namespace BytecodeVerifier

/-- None of the warnings is about monitors. -/
def Quiet (ws : List Warning) : Prop := ∀ w ∈ ws, w.kind ≠ .locking

namespace Opcode

/-- The number of monitors held after an instruction, given that before it. -/
def heldAfter : Opcode → Nat → Nat
  | .monitorEnter, n => n + 1
  | .monitorExit, n => n - 1
  | _, n => n

/-- A monitor is left only while one is held, and the method only while none is. -/
def Allows : Opcode → Nat → Prop
  | .monitorExit, n => 0 < n
  | .returnVoid, n | .returnValue _, n => n = 0
  | _, _ => True

end Opcode

/-! ## Quiet reports -/

namespace ReportT

variable {α β σ : Type} {r : Report α} {k : α → Report β} {P : α → Prop} {Q : β → Prop} {a : α}

/-- If the report comes to an end without a warning about monitors, there was none before it either,
    and its value satisfies `P`. -/
def EnsuresQuietly (r : Report α) (P : α → Prop) : Prop :=
  ∀ ws ws' a, r.runs true ws = (.ok a, ws') → Quiet ws' → Quiet ws ∧ P a

theorem EnsuresQuietly.bind (hr : r.EnsuresQuietly P)
    (hk : ∀ a, (k a).EnsuresQuietly fun b => P a → Q b) : (r >>= k).EnsuresQuietly Q := by
  intro ws ws' b h hquiet
  obtain ⟨a, ws₁, ha, hb⟩ := runs_bind_eq_ok.1 h
  obtain ⟨hquiet₁, hQ⟩ := hk a ws₁ ws' b hb hquiet
  obtain ⟨hquiet₀, hP⟩ := hr ws ws₁ a ha hquiet₁
  exact ⟨hquiet₀, hQ hP⟩

theorem ensuresQuietly_pure (h : P a) : (pure a : Report α).EnsuresQuietly P := by
  intro ws ws' a' heq hquiet
  cases heq
  exact ⟨hquiet, h⟩

theorem ensuresQuietly_reject (v : Violation) : (reject v : Report α).EnsuresQuietly P := by
  intro ws ws' a h
  cases h

theorem ensuresQuietly_ofFault {e : Except Fault α} (h : ∀ a, e = .ok a → P a) :
    (ofFault e : Report α).EnsuresQuietly P := by
  cases e with
  | error f => exact ensuresQuietly_reject _
  | ok a => exact ensuresQuietly_pure (h a rfl)

/-- No check is quiet that raises a warning about monitors. -/
theorem ensuresQuietly_flag {w : Warning} (hw : w.kind = .locking) {P : Unit → Prop} :
    (flag w : Report Unit).EnsuresQuietly P := by
  intro ws ws' u h hquiet
  cases h
  exact absurd hw (hquiet w (by simp))

theorem ensuresQuietly_guard {c : Prop} [Decidable c] {v : Violation} {k : Unit → Report β}
    {r : Report β} (h : r.EnsuresQuietly Q) :
    (if c then (reject v : Report Unit) >>= k else r).EnsuresQuietly Q := by
  split
  · intro ws ws' b hb
    obtain ⟨_, _, hreject, -⟩ := runs_bind_eq_ok.1 hb
    cases hreject
  · exact h

/-- What each step keeps is kept by all of them. -/
theorem ensuresQuietly_foldlM {step : α → σ → Report α} {C : Prop}
    (hstep : ∀ a x, (step a x).EnsuresQuietly fun a' => C → P a → P a') (a : α) (l : List σ) :
    (l.foldlM step a).EnsuresQuietly fun a' => C → P a → P a' := by
  induction l generalizing a with
  | nil => exact ensuresQuietly_pure fun _ => id
  | cons x l ih =>
    rw [List.foldlM_cons]
    refine .bind (hstep a x) fun a₁ ws ws' a₂ h hquiet => ?_
    obtain ⟨hquiet₁, hrest⟩ := ih a₁ ws ws' a₂ h hquiet
    exact ⟨hquiet₁, fun hfirst hC ha => hrest hC (hfirst hC ha)⟩

/-- The last step of a quiet report is quiet. -/
theorem EnsuresQuietly.last {ws ws' : List Warning} {b : β} (hk : ∀ a, (k a).EnsuresQuietly Q)
    (h : (r >>= k).runs true ws = (.ok b, ws')) (hquiet : Quiet ws') : Q b := by
  obtain ⟨a, ws₁, -, hb⟩ := runs_bind_eq_ok.1 h
  exact (hk a ws₁ ws' b hb hquiet).2

end ReportT

/-! ## Operations -/

namespace Environment

open ReportT

variable (env : Environment) {f f' : Frame} {n : Nat} {ws ws' : List Warning}

/-- A method that returns quietly holds no monitor. -/
private theorem ensuresQuietly_checkMonitors (hn : f.monitors = some n) :
    (checkMonitors f).EnsuresQuietly fun _ => n = 0 := by
  unfold checkMonitors
  rw [hn]
  cases n with
  | zero => exact ensuresQuietly_pure rfl
  | succ n => exact ensuresQuietly_flag rfl

private theorem allows_of_returnVoid (hn : f.monitors = some n)
    (h : (env.returnVoid f).runs true ws = (.ok f', ws')) (hquiet : Quiet ws') : n = 0 := by
  have hreturn : (env.returnVoid f).EnsuresQuietly fun _ => n = 0 :=
    ensuresQuietly_guard (ensuresQuietly_guard
      (.bind (ensuresQuietly_checkMonitors hn) fun _ => ensuresQuietly_pure id))
  exact (hreturn ws ws' f' h hquiet).2

private theorem allows_of_returnValue {form : ValueForm} {src : Nat} (hn : f.monitors = some n)
    (h : (env.returnValue form src f).runs true ws = (.ok f', ws')) (hquiet : Quiet ws') :
    n = 0 := by
  have hend (_ : Unit) : (do checkMonitors f; return f : Report Frame).EnsuresQuietly
      fun _ => n = 0 :=
    .bind (ensuresQuietly_checkMonitors hn) fun _ => ensuresQuietly_pure id
  unfold returnValue at h
  cases form <;>
  · dsimp only at h
    split at h
    · obtain ⟨_, _, hreject, -⟩ := runs_bind_eq_ok.1 h
      cases hreject
    · exact EnsuresQuietly.last (Q := fun _ => n = 0) hend h hquiet

private theorem allows_of_monitorExit {object : Nat} (hn : f.monitors = some n)
    (h : (monitorExit object f).runs true ws = (.ok f', ws')) (hquiet : Quiet ws') : 0 < n := by
  refine EnsuresQuietly.last (Q := fun _ => 0 < n) (fun _ => ?_) h hquiet
  unfold Frame.exitMonitor?
  rw [hn]
  cases n with
  | zero => exact .bind (P := fun _ => False) (ensuresQuietly_flag rfl) fun _ =>
      ensuresQuietly_pure False.elim
  | succ n => exact ensuresQuietly_pure (Nat.succ_pos n)

/-- An operation that raises no warning about monitors allows the number of those held. -/
theorem allows_of_transfer {pc : Nat} {o : Operation} (hn : f.monitors = some n)
    (h : (env.transfer pc o f).runs true ws = (.ok f', ws')) (hquiet : Quiet ws') :
    o.opcode.Allows n := by
  cases o with
  | monitorExit object => exact allows_of_monitorExit hn h hquiet
  | returnVoid => exact env.allows_of_returnVoid hn h hquiet
  | returnValue form src => exact env.allows_of_returnValue hn h hquiet
  | field access form value object ref => cases object <;> trivial
  | _ => trivial

end Environment

/-! ## Visits -/

/-- Every frame that is stored knows how many monitors are held. -/
def Held (points : Array Point) : Prop :=
  ∀ (i : Nat) (point : Point) (f : Frame), points[i]? = some point → point.entry = some f →
    f.monitors.isSome = true

theorem Held.modify {points : Array Point} (h : Held points) (i : Nat) {g : Point → Point}
    (hg : ∀ point, (g point).entry = point.entry) : Held (points.modify i g) := by
  intro j point f hpoint hf
  rw [Array.getElem?_modify] at hpoint
  split at hpoint
  · obtain ⟨point₀, hpoint₀, rfl⟩ := Option.map_eq_some_iff.1 hpoint
    exact h j point₀ f hpoint₀ ((hg point₀).symm.trans hf)
  · exact h j point f hpoint hf

namespace Point

variable {p : ClassPool} {point : Point} {f : Frame} {pc : Nat}

/-- Without a warning, the frames that meet hold the same number of monitors. -/
private theorem held_arrive (h : point.monitorMismatch? f pc = none)
    (hpoint : ∀ e, point.entry = some e → e.monitors.isSome = true)
    (hf : f.monitors.isSome = true) {e : Frame} (he : (point.arrived p f).entry = some e) :
    e.monitors.isSome = true := by
  unfold monitorMismatch? at h
  obtain ⟨n, hn⟩ := Option.isSome_iff_exists.1 hf
  cases hentry : point.entry with
  | none =>
    rw [arrived_of_none hentry] at he
    cases he
    exact hf
  | some g =>
    obtain ⟨n', hn'⟩ := Option.isSome_iff_exists.1 (hpoint g hentry)
    rw [arrived_of_some hentry] at he
    cases he
    simp only [hentry, Option.bind_some, Frame.flow_monitors, hn, hn', ite_eq_left_iff] at h
    have hsame : n' = n := by_contra fun hne => by simp [hne] at h
    simp [Frame.merge, hn, hn', hsame]

end Point

namespace Task

open ReportT

variable {task : Task} {s s' : Progress} {pc : Nat} {before f : Frame} {ws : List Warning}

private theorem held_deliver (task : Task) (f : Frame) (points : Array Point) (t : Nat) :
    (task.deliver f points t).EnsuresQuietly fun points' =>
      f.monitors.isSome = true → Held points → Held points' := by
  unfold deliver
  split
  · exact ensuresQuietly_reject _
  · rename_i point hpoint
    rw [lift_bind]
    split
    · rename_i w hw
      have hlocking : w.kind = .locking := by
        unfold Point.monitorMismatch? at hw
        split at hw
        · split at hw
          · cases hw
          · cases hw
            rfl
        · cases hw
      exact .bind (P := fun _ => False) (ensuresQuietly_flag hlocking) fun _ =>
        ensuresQuietly_pure False.elim
    · rename_i hnone
      refine ensuresQuietly_pure fun hf hheld i point' e hpoint' he => ?_
      rw [Array.getElem?_setIfInBounds] at hpoint'
      split at hpoint'
      · split at hpoint'
        · cases hpoint'
          exact Point.held_arrive (Option.eq_none_iff_forall_ne_some.2 hnone)
            (fun e he => hheld t point e hpoint he) hf he
        · cases hpoint'
      · exact hheld i point' e hpoint' he

private theorem held_deliverNormally (task : Task) (f : Frame) (points : Array Point) (t : Nat) :
    (task.deliverNormally f points t).EnsuresQuietly fun points' =>
      f.monitors.isSome = true → Held points → Held points' := by
  have hcheck : (task.checkNormalEdge t).EnsuresQuietly fun _ => True := by
    refine .bind (P := fun _ => True) (ensuresQuietly_ofFault fun _ _ => trivial) fun site => ?_
    split
    · exact ensuresQuietly_reject _
    · exact ensuresQuietly_pure fun _ => trivial
  refine .bind hcheck fun _ ws ws' points' h hquiet => ?_
  exact (held_deliver task f points t ws ws' points' h hquiet).imp_right fun h _ => h

private theorem held_fallThrough (task : Task) (f : Frame) (points : Array Point) (next : Nat) :
    (task.fallThrough f points next).EnsuresQuietly fun points' =>
      f.monitors.isSome = true → Held points → Held points' := by
  unfold fallThrough
  refine ensuresQuietly_guard (.bind (P := fun _ => True)
    (ensuresQuietly_ofFault fun _ _ => trivial) fun site => ?_)
  split
  · exact fun ws ws' points' h hquiet =>
      (held_deliverNormally task f points next ws ws' points' h hquiet).imp_right fun h _ => h
  · exact ensuresQuietly_pure fun _ _ hheld => hheld.modify next fun _ => rfl

private theorem held_depart {o : Operation} {after : Frame} :
    (task.depart s pc o before after).EnsuresQuietly fun s' =>
      before.monitors.isSome = true → after.monitors.isSome = true → Held s.points →
        Held s'.points := by
  refine .bind (ensuresQuietly_foldlM (held_deliver task before.clearResult) _ _) fun points₁ => ?_
  refine .bind (P := fun _ => True) (ensuresQuietly_ofFault fun _ _ => trivial) fun jumps => ?_
  refine .bind (ensuresQuietly_foldlM (held_deliverNormally task after) _ _) fun points₂ => ?_
  split
  · refine .bind (held_fallThrough task after points₂ (pc + 1)) fun points₃ => ?_
    exact ensuresQuietly_pure fun h₃ h₂ _ h₁ hbefore hafter hs =>
      h₃ hafter (h₂ hafter (h₁ hbefore hs))
  · exact ensuresQuietly_pure fun h₂ _ h₁ hbefore hafter hs => h₂ hafter (h₁ hbefore hs)

/-- A visit without a warning about monitors: the operation allows the number of those held, and
    every frame that is stored knows its number, if the frames that arrive do. -/
theorem held_of_visit (h : (task.visit s pc before).outcome = (.ok s', ws)) (hquiet : Quiet ws) :
    (∀ o n, task.operation? pc = some o → before.monitors = some n → o.opcode.Allows n) ∧
      ∀ after, task.after pc before = .ok after → before.monitors.isSome = true →
        after.monitors.isSome = true → Held s.points → Held s'.points := by
  unfold visit at h
  dsimp only at h
  cases ho : task.operation? pc with
  | none =>
    rw [ho] at h
    obtain ⟨s₁, ws₁, h₁, h⟩ := runs_bind_eq_ok.1 h
    cases h
    refine ⟨by simp, fun after hafter hbefore _ hs => Held.modify ?_ pc fun _ => rfl⟩
    have hlabel : (task.visitLabel s pc before).EnsuresQuietly fun s' =>
        before.monitors.isSome = true → Held s.points → Held s'.points :=
      .bind (held_fallThrough task before s.points (pc + 1)) fun points => ensuresQuietly_pure id
    exact (hlabel [] ws s₁ h₁ hquiet).2 hbefore hs
  | some o =>
    rw [ho] at h
    obtain ⟨s₁, ws₁, h₁, h⟩ := runs_bind_eq_ok.1 h
    cases h
    obtain ⟨after, ws₂, hafter, h₁⟩ := runs_bind_eq_ok.1 h₁
    obtain ⟨hquiet₂, hheld⟩ := held_depart ws₂ ws s₁ h₁ hquiet
    constructor
    · intro o' n ho' hn
      cases ho'
      refine task.env.allows_of_transfer ?_ hafter hquiet₂
      split <;> exact hn
    · intro after' hafter' hbefore hafterHeld hs
      have hsame : after' = after := by
        rw [Task.after, ho] at hafter'
        exact Except.ok.inj (hafter'.symm.trans (congrArg Prod.fst hafter))
      exact (hheld hbefore (hsame ▸ hafterHeld) hs).modify pc fun _ => rfl

end Task

end BytecodeVerifier
