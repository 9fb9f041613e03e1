import BytecodeVerifier.Proofs.Yields

/-!
# Objections

A check can be run in two ways. Where warnings are allowed it collects them, and ends with a value
or in a violation. Where they are not, it ends at the first one. The two runs go in lock step: they
do the same up to the first warning, and without any they end alike (`ReportT.Runs`).

`ReportT.Raises` says this of a check, and what the check may object to on the way. It holds of a
check if it holds of each of its steps (`Raises.bind`).
-/

namespace BytecodeVerifier

namespace ReportT

variable {α β σ : Type} {r : Report α} {k : α → Report β} {a : α} {P : Objection → Prop}

/-- How a check ends that stops at the first of the warnings `new`, and would come to `x` without
    any. -/
def stopped (x : Except Violation α) : (new : List Warning) → Except Objection α
  | [] => x.mapError .violation
  | w :: _ => .error (.warning w)

/-- After the warnings `ws` the check adds the warnings `new` and comes to `x`, or it stops at the
    first of them if none is allowed. -/
structure Runs (r : Report α) (ws : List Warning) (x : Except Violation α) (new : List Warning) :
    Prop where
  permissive : r.runs true ws = (x.mapError .violation, ws ++ new)
  strict : r.runs false ws = (stopped x new, ws)

/-- The check runs in lock step, and all that it objects to satisfies `P`. -/
def Raises (r : Report α) (P : Objection → Prop) : Prop :=
  ∀ ws, ∃ x new, r.Runs ws x new ∧ (∀ w ∈ new, P (.warning w)) ∧
    ∀ v, x = .error v → P (.violation v)

/-! ## Putting checks together -/

theorem Raises.mono {Q : Objection → Prop} (hr : r.Raises P) (h : ∀ e, P e → Q e) :
    r.Raises Q := by
  intro ws
  obtain ⟨x, new, hruns, hnew, hx⟩ := hr ws
  exact ⟨x, new, hruns, fun w hw => h _ (hnew w hw), fun v hv => h _ (hx v hv)⟩

theorem Raises.bind (hr : r.Raises P) (hk : ∀ a, r.Yields a → (k a).Raises P) :
    (r >>= k).Raises P := by
  intro ws
  obtain ⟨x, new, hruns, hnew, hx⟩ := hr ws
  cases x with
  | error v =>
    -- neither run comes to the second step
    refine ⟨.error v, new, ⟨runs_bind_of_error hruns.permissive, ?_⟩, hnew, fun u hu => ?_⟩
    · cases new with
      | nil => exact runs_bind_of_error hruns.strict
      | cons w new => exact runs_bind_of_error hruns.strict
    · cases hu
      exact hx v rfl
  | ok a =>
    obtain ⟨y, more, hruns', hmore, hy⟩ := hk a ⟨true, ws, ws ++ new, hruns.permissive⟩ (ws ++ new)
    refine ⟨y, new ++ more, ⟨?_, ?_⟩, fun w hw => ?_, hy⟩
    · rw [runs_bind_of_ok hruns.permissive, hruns'.permissive, List.append_assoc]
    · -- the strict run comes to the second step only if the first one has not warned
      cases new with
      | nil =>
        rw [runs_bind_of_ok hruns.strict]
        simpa using hruns'.strict
      | cons w new => exact runs_bind_of_error hruns.strict
    · exact (List.mem_append.1 hw).elim (hnew w) (hmore w)

theorem Raises.seq (hr : r.Raises P) (hk : ∀ a, (k a).Raises P) : (r >>= k).Raises P :=
  .bind hr fun a _ => hk a

theorem raises_pure : (pure a : Report α).Raises P :=
  fun ws => ⟨.ok a, [], ⟨by rw [List.append_nil]; rfl, rfl⟩, by simp, by simp⟩

theorem raises_reject {v : Violation} (hv : P (.violation v)) : (reject v : Report α).Raises P :=
  fun ws => ⟨.error v, [], ⟨by rw [List.append_nil]; rfl, rfl⟩, by simp, fun u hu => by
    cases hu
    exact hv⟩

theorem raises_flag {w : Warning} (hw : P (.warning w)) : (flag w : Report Unit).Raises P := by
  intro ws
  -- one run takes the warning down and goes on, the other one ends with it
  exact ⟨.ok (), [w], ⟨rfl, rfl⟩, by simpa using hw, by simp⟩

theorem raises_ofFrame {x : Except FrameError α}
    (h : ∀ e, x = .error e → P (.violation (.frame e))) : (ofFrame x : Report α).Raises P := by
  cases x with
  | ok a => exact raises_pure
  | error e => exact raises_reject (h e rfl)

theorem raises_ofFault {x : Except Fault α}
    (h : ∀ e, x = .error e → P (.violation (.fault e))) : (ofFault x : Report α).Raises P := by
  cases x with
  | ok a => exact raises_pure
  | error e => exact raises_reject (h e rfl)

/-- A guard in front of a check that counts only where the guard is not met. -/
theorem raises_guard {c : Prop} [Decidable c] {v : Violation} {k : Unit → Report β} {r : Report β}
    (hv : P (.violation v)) (hr : ¬c → r.Raises P) :
    (if c then (reject v : Report Unit) >>= k else r).Raises P := by
  split
  · exact .bind (raises_reject hv) fun _ h => absurd h not_yields_reject
  · exact hr ‹_›

/-- A guard at the end of a check. -/
theorem raises_ite {c : Prop} [Decidable c] {r r' : Report β} (hr : c → r.Raises P)
    (hr' : ¬c → r'.Raises P) : (if c then r else r').Raises P := by
  split
  · exact hr ‹_›
  · exact hr' ‹_›

theorem raises_mapM {f : σ → Report α} (l : List σ) (h : ∀ x, (f x).Raises P) :
    (l.mapM f).Raises P := by
  induction l with
  | nil => exact raises_pure
  | cons x l ih =>
    rw [List.mapM_cons]
    exact .seq (h x) fun _ => .seq ih fun _ => raises_pure

theorem raises_forM {f : σ → Report PUnit} (l : List σ) (h : ∀ x ∈ l, (f x).Raises P) :
    (l.forM f).Raises P := by
  induction l with
  | nil => exact raises_pure
  | cons x l ih =>
    rw [List.forall_mem_cons] at h
    exact .seq h.1 fun _ => ih h.2

/-- Of what a fold builds up, `Q` is kept; each step needs it. -/
theorem raises_foldlM {k : α → σ → Report α} {Q : α → Prop} (l : List σ)
    (hk : ∀ a, Q a → ∀ x ∈ l, (k a x).Raises P ∧ (k a x).Ensures Q) (a : α) (ha : Q a) :
    (l.foldlM k a).Raises P ∧ (l.foldlM k a).Ensures Q := by
  induction l generalizing a with
  | nil => exact ⟨raises_pure, ensures_pure.2 ha⟩
  | cons x l ih =>
    rw [List.foldlM_cons]
    obtain ⟨hraises, hensures⟩ := hk a ha x List.mem_cons_self
    have hrest (a' : α) (ha' : (k a x).Yields a') :=
      ih (fun a ha x hx => hk a ha x (List.mem_cons_of_mem _ hx)) a' (hensures a' ha')
    exact ⟨.bind hraises fun a' ha' => (hrest a' ha').1, .bind fun a' ha' => (hrest a' ha').2⟩

/-! ## Whole checks -/

/-- The two outcomes of a check: where warnings are allowed, and where they are not. -/
theorem Raises.outcome (h : r.Raises P) : ∃ x new,
    r.outcome = (x.mapError .violation, new) ∧ r.runs false [] = (stopped x new, []) ∧
      (∀ w ∈ new, P (.warning w)) ∧ ∀ v, x = .error v → P (.violation v) := by
  obtain ⟨x, new, hruns, hnew, hx⟩ := h []
  exact ⟨x, new, hruns.permissive, hruns.strict, hnew, hx⟩

theorem Raises.of_mem_outcome (h : r.Raises P) {w : Warning} (hw : w ∈ r.outcome.2) :
    P (.warning w) := by
  obtain ⟨x, new, houtcome, -, hnew, -⟩ := h.outcome
  rw [houtcome] at hw
  exact hnew w hw

/-- A check objects to what it may object to, however it is run. -/
theorem Raises.of_runs_error (h : r.Raises P) {allowed : Bool} {ws ws' : List Warning}
    {e : Objection} (he : r.runs allowed ws = (.error e, ws')) : P e := by
  obtain ⟨x, new, hruns, hnew, hx⟩ := h ws
  cases allowed with
  | true =>
    rw [hruns.permissive] at he
    cases x with
    | ok a => cases he
    | error v =>
      cases he
      exact hx v rfl
  | false =>
    rw [hruns.strict] at he
    cases new with
    | nil =>
      cases x with
      | ok a => cases he
      | error v =>
        cases he
        exact hx v rfl
    | cons w new =>
      cases he
      exact hnew w List.mem_cons_self

/-- Where no warning is allowed, a check succeeds if it does so without one. -/
theorem Raises.runs_eq_ok_iff (h : r.Raises P) {allowed : Bool} {new : List Warning} :
    r.runs allowed [] = (.ok a, new) ↔
      r.outcome = (.ok a, new) ∧ (new = [] ∨ allowed = true) := by
  obtain ⟨x, ws, houtcome, hstrict, -, -⟩ := h.outcome
  cases allowed with
  | true => simp [ReportT.outcome]
  | false =>
    rw [hstrict, houtcome]
    cases ws with
    | nil =>
      -- without a warning both runs end alike
      constructor
      · intro h
        exact ⟨h, .inl (congrArg Prod.snd h).symm⟩
      · exact And.left
    | cons w ws =>
      constructor
      · intro h
        cases h
      · rintro ⟨h, hnew⟩
        obtain rfl : w :: ws = new := congrArg Prod.snd h
        simp at hnew

/-- The warning at which a check stops is one that it collects where warnings are allowed. -/
theorem Raises.mem_outcome (h : r.Raises P) {w : Warning} {ws : List Warning}
    (hstops : r.runs false [] = (.error (.warning w), ws)) : w ∈ r.outcome.2 := by
  obtain ⟨x, new, houtcome, hstrict, -, -⟩ := h.outcome
  rw [hstrict] at hstops
  rw [houtcome]
  cases new with
  | nil => cases x <;> cases hstops
  | cons w' new =>
    cases hstops
    exact List.mem_cons_self

/-- No check takes a warning back. -/
theorem Raises.subset (h : r.Raises P) {ws ws' : List Warning} {x : Except Objection α}
    (hruns : r.runs true ws = (x, ws')) : ws ⊆ ws' := by
  obtain ⟨_, new, hruns', -, -⟩ := h ws
  cases hruns.symm.trans hruns'.permissive
  exact List.subset_append_left ws new

/-- The warnings of the first step are among those of the whole check. -/
theorem subset_of_bind {b : β} {ws : List Warning} (hk : ∀ a, (k a).Raises P)
    (h : (r >>= k).outcome = (.ok b, ws)) : r.outcome.2 ⊆ ws := by
  obtain ⟨a, ws₁, ha, hb⟩ := runs_bind_eq_ok.1 h
  have hfirst : r.outcome.2 = ws₁ := congrArg Prod.snd ha
  exact hfirst ▸ (hk a).subset hb

end ReportT

end BytecodeVerifier
