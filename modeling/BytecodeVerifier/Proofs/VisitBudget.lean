import BytecodeVerifier.Proofs.Verified

/-!
# The budget of visits

A budget cuts a verification short and does nothing else. `Task.log` runs the loop and keeps count:
how often the search for a queued position finds one, and how many visits are counted. As long as
the budget is at least the number of visits that are counted without it, the run is the same
(`Task.log_of_visits_le`), and below that number it ends with the failure that says so
(`Task.log_of_lt_visits`). The loop then makes at most one search more than the budget allows visits
(`Task.scans_log_le`).
-/

namespace BytecodeVerifier

/-- A run of the loop, with its counts. -/
structure Log where
  /-- How often a search finds a queued position. -/
  scans : Nat
  /-- How many visits are counted. -/
  visits : Nat
  outcome : Except Failure Progress

/-- The run with one more visit in front of it. -/
def Log.behindVisit (log : Log) : Log :=
  { log with scans := log.scans + 1, visits := log.visits + 1 }

/-- The settings with another budget. -/
def Config.withBudget (config : Config) (budget : Option Nat) : Config :=
  { config with maxVisits := budget }

/-- A budget is used up by as many visits as it has. -/
theorem Config.exhausted?_eq_some (config : Config) {n visits : Nat} (h : n ≤ visits) :
    (config.withBudget (some n)).exhausted? visits = some n := by
  simp [exhausted?, withBudget, h]

/-- Where there is no budget, it lasts. -/
theorem Config.exhausted?_withBudget_none (config : Config) (visits : Nat) :
    (config.withBudget none).exhausted? visits = none := rfl

/-- With fewer visits than it has, the budget lasts. -/
theorem Config.exhausted?_eq_none (config : Config) {n visits : Nat} (h : visits < n) :
    (config.withBudget (some n)).exhausted? visits = none := by
  simp [exhausted?, withBudget, h]

namespace Task

variable {task : Task} {config : Config} {s s' : Progress} {pc c n limit : Nat}

/-- Visits queued positions until there are none, like `solve`, and keeps count. A visit is counted
    before the budget is looked at, and before it can fail. -/
def log (task : Task) (config : Config) : (limit : Nat) → Progress → Log
  | limit, s =>
    match s.next?, limit with
    | none, _ => { scans := 0, visits := 0, outcome := .ok s }
    | some _, 0 =>
      -- the search succeeds, and the visit cannot be counted any more
      { scans := 1, visits := 0, outcome := .error (.hard (.fault .visitOverflow) none) }
    | some (pc, cursor), limit + 1 =>
      match config.exhausted? s.visits with
      | some max => { scans := 1, visits := 1, outcome := .error (.hard (.budget max) (some pc)) }
      | none =>
        match task.advance config { s with cursor } pc with
        | .error e => { scans := 1, visits := 1, outcome := .error e }
        | .ok s' => (task.log config limit s').behindVisit

/-! ## One turn of the loop -/

theorem log_of_next?_eq_none (h : s.next? = none) :
    task.log config limit s = { scans := 0, visits := 0, outcome := .ok s } := by
  unfold log
  rw [h]

theorem log_zero (h : s.next? = some (pc, c)) : task.log config 0 s =
    { scans := 1, visits := 0, outcome := .error (.hard (.fault .visitOverflow) none) } := by
  unfold log
  rw [h]

/-- Keeping count does not change what the loop does. -/
theorem outcome_log (task : Task) (config : Config) (limit : Nat) (s : Progress) :
    (task.log config limit s).outcome = task.solve config limit s := by
  induction limit generalizing s with
  | zero =>
    cases hnext : s.next? with
    | none => rw [log_of_next?_eq_none hnext, solve_of_next?_eq_none hnext]
    | some next => rw [log_zero hnext, solve_zero hnext]
  | succ limit ih =>
    cases hnext : s.next? with
    | none => rw [log_of_next?_eq_none hnext, solve_of_next?_eq_none hnext]
    | some next =>
      unfold log
      cases hbudget : config.exhausted? s.visits with
      | some max => simp only [hnext, solve_of_exhausted hbudget hnext]
      | none =>
        rw [solve_of_budget hbudget hnext]
        simp only [hnext]
        cases task.advance config { s with cursor := next.2 } next.1 with
        | error e => rfl
        | ok s' => exact ih s'

theorem log_of_exhausted (h : s.next? = some (pc, c)) (hbudget : n ≤ s.visits) :
    task.log (config.withBudget (some n)) (limit + 1) s =
      { scans := 1, visits := 1, outcome := .error (.hard (.budget n) (some pc)) } := by
  unfold log
  simp only [h, config.exhausted?_eq_some hbudget]

/-- While the budget lasts, a visit that fails is the last one. A visit does not look at the
    budget. -/
theorem log_of_error {budget : Option Nat} {e : Failure} (h : s.next? = some (pc, c))
    (hbudget : (config.withBudget budget).exhausted? s.visits = none)
    (hadvance : task.advance config { s with cursor := c } pc = .error e) :
    task.log (config.withBudget budget) (limit + 1) s =
      { scans := 1, visits := 1, outcome := .error e } := by
  have hadvance' : task.advance (config.withBudget budget) { s with cursor := c } pc = .error e :=
    hadvance
  rw [log.eq_def]
  simp only [h, hbudget, hadvance']

/-- While the budget lasts, the run goes on behind a visit that succeeds. -/
theorem log_of_ok {budget : Option Nat} (h : s.next? = some (pc, c))
    (hbudget : (config.withBudget budget).exhausted? s.visits = none)
    (hadvance : task.advance config { s with cursor := c } pc = .ok s') :
    task.log (config.withBudget budget) (limit + 1) s =
      (task.log (config.withBudget budget) limit s').behindVisit := by
  have hadvance' : task.advance (config.withBudget budget) { s with cursor := c } pc = .ok s' :=
    hadvance
  rw [log.eq_def]
  simp only [h, hbudget, hadvance']

/-- A visit that succeeds is counted. -/
theorem visits_of_advance (h : task.advance config { s with cursor := c } pc = .ok s') :
    s'.visits = s.visits + 1 := by
  obtain ⟨before, s₁, warnings, -, -, -, rfl⟩ := advance_eq_ok_iff.1 h
  rfl

/-! ## Whole runs -/

/-- A run that succeeds leaves behind the number of visits that were counted. -/
theorem visits_of_solve (h : task.solve (config.withBudget none) limit s = .ok s') :
    s'.visits = s.visits + (task.log (config.withBudget none) limit s).visits := by
  rw [← outcome_log] at h
  induction limit generalizing s with
  | zero =>
    cases hnext : s.next? with
    | none =>
      rw [log_of_next?_eq_none hnext] at h ⊢
      cases h
      rfl
    | some next =>
      rw [log_zero hnext] at h
      cases h
  | succ limit ih =>
    cases hnext : s.next? with
    | none =>
      rw [log_of_next?_eq_none hnext] at h ⊢
      cases h
      rfl
    | some next =>
      cases hadvance : task.advance config { s with cursor := next.2 } next.1 with
      | error e =>
        rw [log_of_error hnext (config.exhausted?_withBudget_none _) hadvance] at h
        cases h
      | ok s₁ =>
        rw [log_of_ok hnext (config.exhausted?_withBudget_none _) hadvance] at h ⊢
        have hrest := ih h
        have hfirst := visits_of_advance hadvance
        show s'.visits = s.visits + (_ + 1)
        omega

/-- A budget that covers all visits makes no difference. -/
theorem log_of_visits_le (h : s.visits + (task.log (config.withBudget none) limit s).visits ≤ n) :
    task.log (config.withBudget (some n)) limit s = task.log (config.withBudget none) limit s := by
  induction limit generalizing s with
  | zero =>
    cases hnext : s.next? with
    | none => rw [log_of_next?_eq_none hnext, log_of_next?_eq_none hnext]
    | some next => rw [log_zero hnext, log_zero hnext]
  | succ limit ih =>
    cases hnext : s.next? with
    | none => rw [log_of_next?_eq_none hnext, log_of_next?_eq_none hnext]
    | some next =>
      -- the run counts at least the visit that comes next, so that the budget is not used up
      cases hadvance : task.advance config { s with cursor := next.2 } next.1 with
      | error e =>
        rw [log_of_error hnext (config.exhausted?_withBudget_none _) hadvance] at h ⊢
        change s.visits + 1 ≤ n at h
        rw [log_of_error hnext (config.exhausted?_eq_none (by omega)) hadvance]
      | ok s' =>
        rw [log_of_ok hnext (config.exhausted?_withBudget_none _) hadvance] at h ⊢
        change s.visits + (_ + 1) ≤ n at h
        have hcounted := visits_of_advance hadvance
        rw [log_of_ok hnext (config.exhausted?_eq_none (by omega)) hadvance, ih (by omega)]

/-- A smaller budget ends the run, and the failure says so. -/
theorem log_of_lt_visits (hs : s.visits ≤ n)
    (h : n < s.visits + (task.log (config.withBudget none) limit s).visits) :
    ∃ pc, (task.log (config.withBudget (some n)) limit s).outcome =
      .error (.hard (.budget n) (some pc)) := by
  induction limit generalizing s with
  | zero =>
    -- no visit has been counted
    cases hnext : s.next? with
    | none =>
      rw [log_of_next?_eq_none hnext] at h
      change n < s.visits + 0 at h
      omega
    | some next =>
      rw [log_zero hnext] at h
      change n < s.visits + 0 at h
      omega
  | succ limit ih =>
    cases hnext : s.next? with
    | none =>
      rw [log_of_next?_eq_none hnext] at h
      change n < s.visits + 0 at h
      omega
    | some next =>
      by_cases hbudget : n ≤ s.visits
      · rw [log_of_exhausted hnext hbudget]
        exact ⟨next.1, rfl⟩
      · have hlasts : (config.withBudget (some n)).exhausted? s.visits = none :=
          config.exhausted?_eq_none (by omega)
        cases hadvance : task.advance config { s with cursor := next.2 } next.1 with
        -- the run without a budget fails here, with no visit more than the budget allows
        | error e =>
          rw [log_of_error hnext (config.exhausted?_withBudget_none _) hadvance] at h
          change n < s.visits + 1 at h
          omega
        | ok s' =>
          rw [log_of_ok hnext (config.exhausted?_withBudget_none _) hadvance] at h
          change n < s.visits + (_ + 1) at h
          rw [log_of_ok hnext hlasts hadvance]
          have hcounted := visits_of_advance hadvance
          exact ih (by omega) (by omega)

/-- With a budget the loop makes at most one search more than there are visits to spend. -/
theorem scans_log_le (hs : s.visits ≤ n) :
    s.visits + (task.log (config.withBudget (some n)) limit s).scans ≤ n + 1 := by
  induction limit generalizing s with
  | zero =>
    cases hnext : s.next? with
    | none =>
      rw [log_of_next?_eq_none hnext]
      show s.visits + 0 ≤ n + 1
      omega
    | some next =>
      rw [log_zero hnext]
      show s.visits + 1 ≤ n + 1
      omega
  | succ limit ih =>
    cases hnext : s.next? with
    | none =>
      rw [log_of_next?_eq_none hnext]
      show s.visits + 0 ≤ n + 1
      omega
    | some next =>
      by_cases hbudget : n ≤ s.visits
      · rw [log_of_exhausted hnext hbudget]
        show s.visits + 1 ≤ n + 1
        omega
      · have hlasts : (config.withBudget (some n)).exhausted? s.visits = none :=
          config.exhausted?_eq_none (by omega)
        cases hadvance : task.advance config { s with cursor := next.2 } next.1 with
        | error e =>
          rw [log_of_error hnext hlasts hadvance]
          show s.visits + 1 ≤ n + 1
          omega
        | ok s' =>
          rw [log_of_ok hnext hlasts hadvance]
          have hcounted := visits_of_advance hadvance
          have hrest := ih (s := s') (by omega)
          show s.visits + (_ + 1) ≤ n + 1
          omega

end Task

/-! ## Verification -/

namespace Method

variable (p : ClassPool) (config : Config) (m : Method)

/-- The loop of a verification, with its counts; nothing is counted if a stage before it fails. -/
def logWithin (limit : Nat) : Log :=
  match m.prepare p config with
  | .error e => { scans := 0, visits := 0, outcome := .error e }
  | .ok prep => prep.task.log config limit prep.start

variable {p config m} in
theorem verifyWithin_of_prepare {prep : Preparation} (h : m.prepare p config = .ok prep)
    (limit : Nat) : m.verifyWithin limit p config =
      (prep.task.log config limit prep.start).outcome >>= conclude prep.body := by
  rw [verifyWithin_eq, h, Task.outcome_log]
  rfl

variable {p config m} in
theorem logWithin_of_prepare {prep : Preparation} (h : m.prepare p config = .ok prep)
    (limit : Nat) : m.logWithin p config limit = prep.task.log config limit prep.start := by
  rw [logWithin, h]

/-- The budget only truncates. Suppose that the verification without a budget counts `k` visits
    until it succeeds or fails. Then it has the same outcome with any budget from `k` on, and with a
    smaller one it is rejected because the budget is exhausted. With a budget of `n` visits the loop
    comes to an end after at most `n + 1` searches that find a queued position, however long it
    might go on otherwise. -/
theorem verify_truncates (p : ClassPool) (config : Config) (m : Method) (n : Nat) :
    let k := (m.logWithin p (config.withBudget none) visitLimit).visits
    (∀ v, m.verify p (config.withBudget none) = .ok v → v.visits = k) ∧
      (k ≤ n → m.verify p (config.withBudget (some n)) = m.verify p (config.withBudget none)) ∧
      (n < k → ∃ e, m.verify p (config.withBudget (some n)) = .error e ∧
        e.kind = .visitBudgetExhausted) ∧
      ∀ limit, (m.logWithin p (config.withBudget (some n)) limit).scans ≤ n + 1 := by
  dsimp only
  -- the stages before the loop know nothing of the budget
  have hbounded : m.prepare p (config.withBudget (some n)) = m.prepare p (config.withBudget none) :=
    rfl
  cases hfree : m.prepare p (config.withBudget none) with
  | error e =>
    rw [hfree] at hbounded
    have hfail : ∀ budget, m.prepare p (config.withBudget budget) = .error e →
        m.verify p (config.withBudget budget) = .error e ∧
          ∀ limit, m.logWithin p (config.withBudget budget) limit = ⟨0, 0, .error e⟩ := by
      intro budget h
      rw [verify, verifyWithin_eq, h]
      exact ⟨rfl, fun limit => by rw [logWithin, h]⟩
    rw [(hfail none hfree).1, (hfail none hfree).2, (hfail _ hbounded).1]
    refine ⟨?_, fun _ => rfl, ?_, ?_⟩
    · intro v h
      cases h
    · intro h
      exact absurd h (Nat.not_lt_zero n)
    · intro limit
      rw [(hfail _ hbounded).2]
      exact Nat.zero_le _
  | ok prep =>
    rw [hfree] at hbounded
    have hstart : prep.start.visits = 0 := rfl
    unfold verify
    rw [verifyWithin_of_prepare hfree, verifyWithin_of_prepare hbounded,
      logWithin_of_prepare hfree]
    refine ⟨?_, ?_, ?_, ?_⟩
    · intro v h
      obtain ⟨final, hfinal, h⟩ := bind_eq_ok.1 h
      obtain ⟨states, -, h⟩ := bind_eq_ok.1 h
      cases h
      rw [Task.outcome_log] at hfinal
      have hvisits := Task.visits_of_solve hfinal
      show final.visits = _
      omega
    · intro h
      rw [Task.log_of_visits_le (by omega)]
    · intro h
      have hbudget : n < prep.start.visits +
          (prep.task.log (config.withBudget none) visitLimit prep.start).visits := by omega
      obtain ⟨pc, hpc⟩ := Task.log_of_lt_visits (by omega) hbudget
      rw [hpc]
      exact ⟨_, rfl, rfl⟩
    · intro limit
      rw [logWithin_of_prepare hbounded]
      have hscans : prep.start.visits +
          (prep.task.log (config.withBudget (some n)) limit prep.start).scans ≤ n + 1 :=
        Task.scans_log_le (by omega)
      omega

end Method

end BytecodeVerifier
