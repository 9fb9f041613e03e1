import BytecodeVerifier.Proofs.Verified
import BytecodeVerifier.Proofs.WarningText

/-!
# Strict verification

A verifier either collects the warnings of a method or stops at the first one. Both ways agree
(`Method.verify_strict`): they take the same visits up to the first warning, and what a permissive
verification finds after that is of no account to a strict one.

`Sharpens` says how the outcome of a strict run follows from that of a permissive one. A single
visit is run in lock step by both (`Task.raises_visit`), and the loop puts visits together.
-/

namespace BytecodeVerifier

/-- The settings, with warnings allowed or not. -/
def Config.withWarnings (config : Config) (allowed : Bool) : Config :=
  { config with allowWarnings := allowed }

/-! ## Severities -/

theorem Warning.severity (w : Warning) : w.kind.severity = .soft := by
  cases w <;> rfl

theorem Violation.severity (v : Violation) : v.kind.severity = .hard := by
  unfold kind
  split <;> rfl

@[simp] theorem Failure.severity_hard (v : Violation) (pc : Option Nat) :
    (hard v pc).severity = .hard :=
  v.severity

@[simp] theorem Failure.severity_soft (flag : Flag) : (soft flag).severity = .soft :=
  flag.warning.severity

/-- The outcome of a run that stops at the first warning, given that of the run that collects them;
    `flags` are those that a success comes with. -/
inductive Sharpens {α : Type} (flags : α → List Flag) : Except Failure α → Except Failure α → Prop
  | clean {a : α} : flags a = [] → Sharpens flags (.ok a) (.ok a)
  | flagged {a : α} {flag : Flag} {rest : List Flag} : flags a = flag :: rest →
      Sharpens flags (.ok a) (.error (.soft flag))
  | failed {e : Failure} : e.severity = .hard → Sharpens flags (.error e) (.error e)
  | overtaken {e : Failure} (flag : Flag) : e.severity = .hard →
      Sharpens flags (.error e) (.error (.soft flag))

namespace Sharpens

variable {α : Type} {flags : α → List Flag} {x y : Except Failure α} {a : α}

theorem of_error {e : Failure} (h : Sharpens flags x y) (hx : x = .error e) :
    e.severity = .hard ∧ (y = .error e ∨ ∃ e', y = .error e' ∧ e'.severity = .soft) := by
  cases h with
  | clean | flagged => exact nomatch hx
  | failed hhard =>
    cases hx
    exact ⟨hhard, .inl rfl⟩
  | overtaken flag hhard =>
    cases hx
    exact ⟨hhard, .inr ⟨_, rfl, Failure.severity_soft flag⟩⟩

theorem of_flagged {flag : Flag} {rest : List Flag} (h : Sharpens flags x y) (hx : x = .ok a)
    (hflags : flags a = flag :: rest) : y = .error (.soft flag) := by
  cases h with
  | clean hclean =>
    cases hx
    rw [hclean] at hflags
    exact nomatch hflags
  | flagged hflagged =>
    cases hx
    rw [hflagged] at hflags
    cases hflags
    rfl
  | failed | overtaken => exact nomatch hx

theorem eq_ok_iff (h : Sharpens flags x y) : y = .ok a ↔ x = .ok a ∧ flags a = [] := by
  cases h with
  | clean hclean =>
    constructor
    · intro hy
      cases hy
      exact ⟨rfl, hclean⟩
    · exact fun hx => hx.1
  | flagged hflagged =>
    constructor
    · exact fun hy => nomatch hy
    · rintro ⟨hx, hclean⟩
      cases hx
      rw [hflagged] at hclean
      exact nomatch hclean
  | failed | overtaken => simp

end Sharpens

/-! ## The loop -/

namespace Task

open ReportT

variable {task : Task} {config : Config} {s s' : Progress} {pc limit : Nat}

/-- The warnings of a visit come after those before it. -/
private theorem exists_append_addFlags (flags : List Flag) (pc : Nat) (ws : List Warning) :
    ∃ more, Progress.addFlags flags pc ws = flags ++ more := by
  unfold Progress.addFlags
  induction ws generalizing flags with
  | nil => exact ⟨[], (List.append_nil flags).symm⟩
  | cons w ws ih =>
    rw [List.foldl_cons]
    obtain ⟨more, hmore⟩ := ih (Progress.addFlag flags { warning := w, pc })
    rw [hmore]
    unfold Progress.addFlag
    split
    · exact ⟨more, rfl⟩
    · exact ⟨_ :: more, List.append_assoc ..⟩

private theorem advance_permissive (s : Progress) (pc : Nat) :
    (∃ e, task.advance (config.withWarnings true) s pc = .error e ∧ e.severity = .hard) ∨
      ∃ s' more, task.advance (config.withWarnings true) s pc = .ok s' ∧
        s'.flags = s.flags ++ more := by
  rw [advance_eq]
  cases task.frameBefore s pc with
  | error fault => exact .inl ⟨_, rfl, Failure.severity_hard ..⟩
  | ok before =>
    obtain ⟨x, ws, houtcome, -⟩ := (task.raises_visit s pc before).outcome
    have hruns : (task.visit s pc before).runs (config.withWarnings true).allowWarnings [] =
      (x.mapError .violation, ws) := houtcome
    dsimp only
    rw [hruns]
    cases x with
    | error v => exact .inl ⟨_, rfl, Failure.severity_hard ..⟩
    | ok s' =>
      obtain ⟨more, hmore⟩ := exists_append_addFlags s.flags pc ws
      exact .inr ⟨_, more, rfl, hmore⟩

/-- A permissive run does not stop at a warning, and keeps those that it has. -/
private theorem solve_permissive (limit : Nat) (s : Progress) :
    (∃ e, task.solve (config.withWarnings true) limit s = .error e ∧ e.severity = .hard) ∨
      ∃ s' more, task.solve (config.withWarnings true) limit s = .ok s' ∧
        s'.flags = s.flags ++ more := by
  induction limit generalizing s with
  | zero =>
    cases hnext : s.next? with
    | none =>
      rw [solve_of_next?_eq_none hnext]
      exact .inr ⟨s, [], rfl, (List.append_nil _).symm⟩
    | some next =>
      rw [solve_zero hnext]
      exact .inl ⟨_, rfl, Failure.severity_hard ..⟩
  | succ limit ih =>
    cases hnext : s.next? with
    | none =>
      rw [solve_of_next?_eq_none hnext]
      exact .inr ⟨s, [], rfl, (List.append_nil _).symm⟩
    | some next =>
      cases hbudget : config.exhausted? s.visits with
      | some max =>
        have hbudget : (config.withWarnings true).exhausted? s.visits = some max := hbudget
        rw [solve_of_exhausted hbudget hnext]
        exact .inl ⟨_, rfl, Failure.severity_hard ..⟩
      | none =>
        have hbudget : (config.withWarnings true).exhausted? s.visits = none := hbudget
        rw [solve_of_budget hbudget hnext]
        rcases advance_permissive { s with cursor := next.2 } next.1 with
          ⟨e, he, hhard⟩ | ⟨s₁, more₁, hs₁, hflags₁⟩
        · rw [he]
          exact .inl ⟨e, rfl, hhard⟩
        · rw [hs₁]
          rcases ih s₁ with ⟨e, he, hhard⟩ | ⟨s₂, more₂, hs₂, hflags₂⟩
          · exact .inl ⟨e, he, hhard⟩
          · refine .inr ⟨s₂, more₁ ++ more₂, hs₂, ?_⟩
            rw [hflags₂, hflags₁, List.append_assoc]

/-- A visit without a warning is the same in both runs. The first one with a warning ends a strict
    run, and the warning is the first one that a permissive run collects. -/
private theorem sharpens_advance (task : Task) (config : Config) (s : Progress) (hs : s.flags = [])
    (pc : Nat) :
    Sharpens Progress.flags (task.advance (config.withWarnings true) s pc)
      (task.advance (config.withWarnings false) s pc) := by
  rw [advance_eq, advance_eq]
  cases task.frameBefore s pc with
  | error fault => exact .failed (Failure.severity_hard ..)
  | ok before =>
    -- the two runs of the visit are in lock step up to the first warning
    obtain ⟨x, ws, houtcome, hstopped, -⟩ := (task.raises_visit s pc before).outcome
    have hpermissive : (task.visit s pc before).runs (config.withWarnings true).allowWarnings [] =
      (x.mapError .violation, ws) := houtcome
    have hstrict : (task.visit s pc before).runs (config.withWarnings false).allowWarnings [] =
      (stopped x ws, []) := hstopped
    dsimp only
    rw [hpermissive, hstrict]
    cases ws with
    | nil =>
      cases x with
      | error v => exact .failed (Failure.severity_hard ..)
      | ok s' => exact .clean hs
    | cons w ws =>
      cases x with
      | error v => exact .overtaken _ (Failure.severity_hard ..)
      | ok s' =>
        obtain ⟨rest, hrest⟩ := exists_append_addFlags [{ warning := w, pc }] pc ws
        have hflags : Progress.addFlags s.flags pc (w :: ws) = { warning := w, pc } :: rest := by
          rw [hs]
          exact hrest
        exact .flagged hflags

/-- The two runs take the same visits up to the first warning. -/
private theorem sharpens_solve (limit : Nat) (hs : s.flags = []) :
    Sharpens Progress.flags (task.solve (config.withWarnings true) limit s)
      (task.solve (config.withWarnings false) limit s) := by
  induction limit generalizing s with
  | zero =>
    cases hnext : s.next? with
    | none =>
      rw [solve_of_next?_eq_none hnext, solve_of_next?_eq_none hnext]
      exact .clean hs
    | some next =>
      rw [solve_zero hnext, solve_zero hnext]
      exact .failed (Failure.severity_hard ..)
  | succ limit ih =>
    cases hnext : s.next? with
    | none =>
      rw [solve_of_next?_eq_none hnext, solve_of_next?_eq_none hnext]
      exact .clean hs
    | some next =>
      cases hbudget : config.exhausted? s.visits with
      | some max =>
        have hbudget (b : Bool) : (config.withWarnings b).exhausted? s.visits = some max := hbudget
        rw [solve_of_exhausted (hbudget true) hnext, solve_of_exhausted (hbudget false) hnext]
        exact .failed (Failure.severity_hard ..)
      | none =>
        have hbudget (b : Bool) : (config.withWarnings b).exhausted? s.visits = none := hbudget
        rw [solve_of_budget (hbudget true) hnext, solve_of_budget (hbudget false) hnext]
        have hfirst := sharpens_advance task config { s with cursor := next.2 } hs next.1
        generalize task.advance (config.withWarnings true) { s with cursor := next.2 } next.1 = x,
          task.advance (config.withWarnings false) { s with cursor := next.2 } next.1 = y at hfirst
        cases hfirst with
        | clean hflags => exact ih hflags
        | @flagged s₁ flag rest hflags =>
          -- only the permissive run goes on, and it keeps the warning
          show Sharpens _ (task.solve (config.withWarnings true) limit s₁) (.error (.soft flag))
          rcases solve_permissive limit s₁ with ⟨e, he, hhard⟩ | ⟨s₂, more, hs₂, hmore⟩
          · rw [he]
            exact .overtaken flag hhard
          · rw [hs₂]
            rw [hflags] at hmore
            exact .flagged hmore
        | failed hhard => exact .failed hhard
        | overtaken flag hhard => exact .overtaken flag hhard

/-! ## The warnings of a run -/

/-- Types that name their classes stay so. -/
private theorem domain_named (task : Task) :
    task.Domain (Frame.All (·.isNamed = true)) fun _ _ => True where
  clearResult hf := hf.clearResult rfl
  after hf h := after_all (RegType.stable_isNamed _) h hf
  merge hf hg := hf.merge (RegType.stable_isNamed _).merge hg
  refl _ := trivial
  right _ _ := trivial
  left _ _ _ _ := trivial

/-- What is known of the warnings between visits: each is there once, and the operation at its
    position may raise it. -/
private structure Flagged (task : Task) (s : Progress) : Prop where
  nodup : s.flags.Nodup
  warns {flag : Flag} : flag ∈ s.flags →
    task.env.Warns RegType.IsInstance (task.operation? flag.pc) flag.warning

private theorem nodup_addFlags {flags : List Flag} (h : flags.Nodup) (pc : Nat)
    (ws : List Warning) : (Progress.addFlags flags pc ws).Nodup := by
  unfold Progress.addFlags
  induction ws generalizing flags with
  | nil => exact h
  | cons w ws ih =>
    rw [List.foldl_cons]
    apply ih
    unfold Progress.addFlag
    split
    · exact h
    · rw [← List.concat_eq_append]
      exact h.concat ‹_›

/-- The warnings of a visit are those of the operation at its position. -/
private theorem MayRaise.warns {before : Frame} {w : Warning}
    (h : task.MayRaise s pc before (.warning w)) (hbefore : before.All (·.isNamed = true)) :
    task.env.Warns RegType.IsInstance (task.operation? pc) w := by
  cases h with
  | monitors => exact .monitorMismatch _ _ _
  | @operation o _ ho h =>
    have hmeets : (o.meets before).All (·.isNamed = true) := o.all_meets rfl hbefore
    rw [ho]
    cases h with
    | warning h =>
      exact h.mono fun t ht =>
        RegType.isInstance_of_isNamed (hmeets t ht.mem) ht.nonNull ht.initialized

private theorem Flagged.advance {b : Body} {seed : Frame} {c : Nat} (hm : task.Models b)
    (hc : task.Consistent b (Frame.All (·.isNamed = true)) (fun _ _ => True) seed s)
    (hflagged : task.Flagged s)
    (h : task.advance config { s with cursor := c } pc = .ok s') : task.Flagged s' := by
  obtain ⟨before, s₁, ws, hbefore, hvisit, -, rfl⟩ := advance_eq_ok_iff.1 h
  have hnamed : before.All (·.isNamed = true) := by
    rcases (frameBefore_eq_ok hm hbefore).2 with ⟨-, hstored⟩ | ⟨-, rfl⟩
    · exact (hc.stored hstored).1
    · exact hc.work
  constructor
  · exact nodup_addFlags hflagged.nodup pc ws
  · intro flag hflag
    rcases mem_addFlags_iff.1 hflag with hold | ⟨w, hw, rfl⟩
    · exact hflagged.warns hold
    · have hraised := (task.raises_visit { s with cursor := c } pc before).of_mem_outcome
        (w := w) (by rwa [hvisit])
      exact hraised.warns hnamed

/-- No two warnings of a run have the same kind, message and position. -/
private theorem Flagged.nodup_text (h : task.Flagged s) :
    (s.flags.map fun flag => ((Failure.soft flag).kind, (Failure.soft flag).message,
      (Failure.soft flag).pc?)).Nodup := by
  refine h.nodup.map_on fun x hx y hy heq => ?_
  simp only [Failure.kind, Failure.message, Failure.pc?, Prod.mk.injEq, Option.some.injEq] at heq
  obtain ⟨hkind, hmessage, hpc⟩ := heq
  have hy := h.warns hy
  rw [← hpc] at hy
  have hwarning := (h.warns hx).eq_of_message_eq hy hkind hmessage
  cases x
  cases y
  cases hwarning
  cases hpc
  rfl

private theorem flagged_of_solve {b : Body} {seed : Frame} (hm : task.Models b)
    (hseed : seed.All (·.isNamed = true))
    (h : task.solve config limit (.start task.env.layout.size seed) = .ok s) : task.Flagged s := by
  have hd := domain_named task
  have hrun := solve_invariant (P := fun s => task.Consistent b (Frame.All (·.isNamed = true))
      (fun _ _ => True) seed s ∧ task.Flagged s)
    (fun _ _ _ _ hs hnext hadvance =>
      ⟨hs.1.advance hm hd hseed hnext hadvance, hs.2.advance hm hs.1 hadvance⟩)
    ⟨consistent_start hm hd hseed, List.nodup_nil, fun hflag => nomatch hflag⟩ h
  exact hrun.1.2

end Task

/-! ## Verification -/

namespace Method

variable {p : ClassPool} {config : Config} {m : Method} {v : VerifiedMethod}

private theorem isNamed_entryFrame {entry : Frame}
    (h : m.entryFrame p (m.classType p) = .ok entry) : entry.All (·.isNamed = true) := by
  refine entryFrame_all (RegType.stable_isNamed p) (fun _ => ?_) h
  unfold classType RegType.ofReference
  repeat' split
  all_goals rfl

/-- No two warnings of a verified method have the same kind, message and position. -/
private theorem nodup_flags (h : m.verify p config = .ok v) :
    (v.flags.map fun flag => ((Failure.soft flag).kind, (Failure.soft flag).message,
      (Failure.soft flag).pc?)).Nodup := by
  obtain ⟨task, entry, final, hbody, htask, hentry, hfinal, -, hflags⟩ := verifyWithin_eq_ok h
  obtain ⟨hm, -, -⟩ := models_of_task (Body.labeled_of_normalize hbody) htask
  rw [hflags]
  exact (Task.flagged_of_solve hm (isNamed_entryFrame hentry) hfinal).nodup_text

private theorem operationsFrom_ne_soft {flag : Flag} (size pc : Nat) (code : List Instruction) :
    operationsFrom size pc code ≠ .error (.soft flag) := by
  fun_induction operationsFrom size pc code with
  | case1 => exact pure_ne_error
  | case2 => exact error_ne_error nofun
  | case3 pc i rest o ho ih =>
    cases hrest : operationsFrom size (pc + 1) rest with
    | error e => exact fun h => ih (hrest.trans (by cases h; rfl))
    | ok os => exact pure_ne_error

/-- Only the loop warns. -/
private theorem prepare_ne_soft {flag : Flag} : m.prepare p config ≠ .error (.soft flag) := by
  have hunplaced {ε α : Type} {f : ε → Violation} {x : Except ε α} :
      Failure.unplaced f x ≠ .error (.soft flag) := by
    cases x with
    | ok a => exact pure_ne_error
    | error e => exact error_ne_error nofun
  refine bind_ne_error hunplaced fun body _ => bind_ne_error ?_ fun task _ =>
    bind_ne_error hunplaced fun entry _ => pure_ne_error
  refine bind_ne_error hunplaced fun _ _ =>
    bind_ne_error (operationsFrom_ne_soft _ _ _) fun _ _ => ?_
  split
  · exact error_ne_error nofun
  · exact bind_ne_error hunplaced fun _ _ => bind_ne_error hunplaced fun _ _ => pure_ne_error

private theorem severity_of_prepare {e : Failure} (h : m.prepare p config = .error e) :
    e.severity = .hard := by
  cases e with
  | hard v pc => exact Failure.severity_hard v pc
  | soft flag => exact absurd h prepare_ne_soft

/-- What comes after the loop keeps the warnings. -/
private theorem Sharpens.conclude {x y : Except Failure Progress} (body : Body)
    (h : Sharpens Progress.flags x y) :
    Sharpens VerifiedMethod.flags (x >>= Method.conclude body) (y >>= Method.conclude body) := by
  have hconclude (s : Progress) : (∃ e, Method.conclude body s = .error e ∧ e.severity = .hard) ∨
      ∃ v, Method.conclude body s = .ok v ∧ v.flags = s.flags := by
    unfold Method.conclude
    cases reachedLabels body.code s.points with
    | error fault => exact .inl ⟨_, rfl, Failure.severity_hard ..⟩
    | ok states => exact .inr ⟨_, rfl, rfl⟩
  cases h with
  | @clean s hs =>
    show Sharpens _ (Method.conclude body s) (Method.conclude body s)
    rcases hconclude s with ⟨e, he, hhard⟩ | ⟨v, hv, hflags⟩
    · rw [he]
      exact .failed hhard
    · rw [hv]
      exact .clean (hflags.trans hs)
  | @flagged s flag rest hs =>
    show Sharpens _ (Method.conclude body s) (.error (.soft flag))
    rcases hconclude s with ⟨e, he, hhard⟩ | ⟨v, hv, hflags⟩
    · rw [he]
      exact .overtaken flag hhard
    · rw [hv]
      exact .flagged (hflags.trans hs)
  | failed hhard => exact .failed hhard
  | overtaken flag hhard => exact .overtaken flag hhard

private theorem sharpens_verify (p : ClassPool) (config : Config) (m : Method) :
    Sharpens VerifiedMethod.flags (m.verify p (config.withWarnings true))
      (m.verify p (config.withWarnings false)) := by
  -- the stages before the loop do not look at whether warnings are allowed
  have hprepare (b : Bool) : m.prepare p (config.withWarnings b) = m.prepare p config := rfl
  rw [verify, verify, verifyWithin_eq, verifyWithin_eq, hprepare, hprepare]
  cases hprep : m.prepare p config with
  | error e => exact .failed (severity_of_prepare hprep)
  | ok prep => exact Sharpens.conclude prep.body (Task.sharpens_solve visitLimit rfl)

/-- **Strict and permissive verification agree.** If warnings are allowed, the failure of a method
    is hard, and a strict verification ends with the same failure or with a soft one. The warnings
    of a method that is accepted are soft, and no two of them have the same kind, message and
    position; a strict verification ends with the first of them. Only a method without any is
    accepted by a strict verification, with the same result. -/
theorem verify_strict (p : ClassPool) (config : Config) (m : Method) :
    let permissive := m.verify p (config.withWarnings true)
    let strict := m.verify p (config.withWarnings false)
    (∀ e, permissive = .error e → e.severity = .hard ∧
        (strict = .error e ∨ ∃ e', strict = .error e' ∧ e'.severity = .soft)) ∧
      (∀ v, permissive = .ok v → (∀ flag ∈ v.flags, (Failure.soft flag).severity = .soft) ∧
        (v.flags.map fun flag => ((Failure.soft flag).kind, (Failure.soft flag).message,
          (Failure.soft flag).pc?)).Nodup ∧
        ∀ flag rest, v.flags = flag :: rest → strict = .error (.soft flag)) ∧
      ∀ v, strict = .ok v ↔ permissive = .ok v ∧ v.flags = [] := by
  have hsharpens := sharpens_verify p config m
  intro permissive strict
  refine ⟨fun e he => ?_,
    fun v hv => ⟨fun flag _ => Failure.severity_soft flag, nodup_flags hv, ?_⟩,
    fun v => hsharpens.eq_ok_iff⟩
  · exact hsharpens.of_error he
  · intro flag rest hflags
    exact hsharpens.of_flagged hv hflags

end Method

end BytecodeVerifier
