import BytecodeVerifier.Transfer.Report

/-!
# What reports yield

A report that comes to an end yields a value, and the warnings before it do not matter for that.
`ReportT.Yields` is taken apart step by step (`Yields.bind`), and `ReportT.Ensures` puts together
what holds of every value that a report can yield.
-/

namespace BytecodeVerifier

/-! ## Computations that may fail -/

/-- A computation succeeds if each of its steps does. -/
theorem bind_eq_ok {ε α β : Type} {x : Except ε α} {k : α → Except ε β} {b : β} :
    x >>= k = .ok b ↔ ∃ a, x = .ok a ∧ k a = .ok b := by
  cases x <;> simp [bind, Except.bind]

theorem exists_eq_ok {ε α : Type} {x : Except ε α} (h : x.isOk = true) : ∃ a, x = .ok a := by
  cases x with
  | ok a => exact ⟨a, rfl⟩
  | error e => simp [Except.isOk, Except.toBool] at h

/-- Only values that a step can give matter for what follows it. -/
theorem bind_congr_of_ok {ε α β : Type} {x : Except ε α} {k k' : α → Except ε β}
    (h : ∀ a, x = .ok a → k a = k' a) : x >>= k = x >>= k' := by
  cases x with
  | error e => rfl
  | ok a => exact h a rfl

theorem pure_ne_error {ε α : Type} {a : α} {e : ε} : (pure a : Except ε α) ≠ .error e := by
  simp [pure, Except.pure]

theorem error_ne_error {ε α : Type} {e e' : ε} (h : e' ≠ e) :
    (.error e' : Except ε α) ≠ .error e := by
  simpa using h

/-- A computation fails in no way in which none of its steps does. -/
theorem bind_ne_error {ε α β : Type} {x : Except ε α} {k : α → Except ε β} {e : ε}
    (hx : x ≠ .error e) (hk : ∀ a, x = .ok a → k a ≠ .error e) : x >>= k ≠ .error e := by
  cases x with
  | error e' => exact fun h => hx (by cases h; rfl)
  | ok a => exact hk a rfl

/-- A list is mapped element by element. -/
theorem getElem?_mapM_iff {ε α β : Type} {f : α → Except ε β} {l : List α} {r : List β}
    (h : l.mapM f = .ok r) {i : Nat} {b : β} :
    r[i]? = some b ↔ ∃ a, l[i]? = some a ∧ f a = .ok b := by
  induction l generalizing r i with
  | nil =>
    cases h
    simp
  | cons a l ih =>
    rw [List.mapM_cons] at h
    obtain ⟨b', ha, h⟩ := bind_eq_ok.1 h
    obtain ⟨bs, hl, h⟩ := bind_eq_ok.1 h
    cases h
    cases i with
    | zero => simp [ha]
    | succ i => simpa using ih hl

/-- The elements of the mapped list. -/
theorem mem_mapM_iff {ε α β : Type} {f : α → Except ε β} {l : List α} {r : List β}
    (h : l.mapM f = .ok r) {b : β} : b ∈ r ↔ ∃ a ∈ l, f a = .ok b := by
  simp only [List.mem_iff_getElem?, getElem?_mapM_iff h]
  constructor
  · rintro ⟨i, a, hi, ha⟩
    exact ⟨a, ⟨i, hi⟩, ha⟩
  · rintro ⟨a, ⟨i, hi⟩, ha⟩
    exact ⟨i, a, hi, ha⟩

/-- Every element can be mapped if the list can. -/
theorem exists_of_mapM {ε α β : Type} {f : α → Except ε β} {l : List α} {r : List β}
    (h : l.mapM f = .ok r) {a : α} (ha : a ∈ l) : ∃ b, f a = .ok b := by
  induction l generalizing r with
  | nil => simp at ha
  | cons a' l ih =>
    rw [List.mapM_cons] at h
    obtain ⟨b, hb, h⟩ := bind_eq_ok.1 h
    obtain ⟨bs, hl, -⟩ := bind_eq_ok.1 h
    rcases List.mem_cons.1 ha with rfl | ha
    · exact ⟨b, hb⟩
    · exact ih hl ha

/-- A list can be mapped if each of its elements can. -/
theorem exists_mapM_eq_ok {ε α β : Type} {f : α → Except ε β} {l : List α}
    (h : ∀ a ∈ l, ∃ b, f a = .ok b) : ∃ r, l.mapM f = .ok r := by
  induction l with
  | nil => exact ⟨[], rfl⟩
  | cons a l ih =>
    rw [List.forall_mem_cons] at h
    obtain ⟨b, hb⟩ := h.1
    obtain ⟨r, hr⟩ := ih h.2
    refine ⟨b :: r, ?_⟩
    rw [List.mapM_cons]
    exact bind_eq_ok.2 ⟨b, hb, bind_eq_ok.2 ⟨r, hr, rfl⟩⟩

/-- As many elements of the mapped list pass a test, if the mapping keeps what it says. -/
theorem countP_of_mapM {ε α β : Type} {f : α → Except ε β} {q : α → Bool} {q' : β → Bool}
    {l : List α} {r : List β} (h : l.mapM f = .ok r) (hf : ∀ a b, f a = .ok b → q' b = q a) :
    r.countP q' = l.countP q := by
  induction l generalizing r with
  | nil =>
    cases h
    rfl
  | cons a l ih =>
    rw [List.mapM_cons] at h
    obtain ⟨c, hc, h⟩ := bind_eq_ok.1 h
    obtain ⟨cs, hcs, h⟩ := bind_eq_ok.1 h
    cases h
    rw [List.countP_cons, List.countP_cons, ih hcs, hf a c hc]

namespace ReportT

variable {α β σ : Type} {r : Report α} {k : α → Report β} {a : α} {b : β}

/-- The report can come to an end with the value `a`, whether warnings are allowed or not. -/
def Yields (r : Report α) (a : α) : Prop := ∃ allowed ws ws', r.runs allowed ws = (.ok a, ws')

/-- Every value that the report yields satisfies `P`. -/
def Ensures (r : Report α) (P : α → Prop) : Prop := ∀ a, r.Yields a → P a

/-! ## Taking reports apart -/

section Runs

variable {allowed : Bool} {ws ws' : List Warning} {e : Objection}

private theorem runs_bind (r : Report α) (k : α → Report β) (allowed : Bool) (ws : List Warning) :
    (r >>= k).runs allowed ws =
      match r.runs allowed ws with
      | (.ok a, ws') => (k a).runs allowed ws'
      | (.error e, ws') => (.error e, ws') := by
  show (ExceptT.bind (r allowed) fun a => k a allowed) ws = _
  unfold runs runFrom
  simp only [ExceptT.bind, ExceptT.mk, bind, StateT.bind]
  cases hrun : r allowed ws with
  | mk x ws' => cases x <;> simp [ReaderT.run, ExceptT.run, StateT.run, hrun] <;> rfl

/-- A report comes to an end if each of its steps does. -/
theorem runs_bind_eq_ok : (r >>= k).runs allowed ws = (.ok b, ws') ↔
    ∃ a ws₁, r.runs allowed ws = (.ok a, ws₁) ∧ (k a).runs allowed ws₁ = (.ok b, ws') := by
  rw [runs_bind]
  rcases r.runs allowed ws with ⟨e | a, ws₁⟩
  · constructor
    · intro h
      cases h
    · rintro ⟨a, ws₂, h, -⟩
      cases h
  · constructor
    · exact fun h => ⟨a, ws₁, rfl, h⟩
    · rintro ⟨a', ws₂, h, h'⟩
      cases h
      exact h'

/-- A report that stops at its first step. -/
theorem runs_bind_of_error (h : r.runs allowed ws = (.error e, ws')) :
    (r >>= k).runs allowed ws = (.error e, ws') := by
  rw [runs_bind, h]

/-- A report goes on with its second step. -/
theorem runs_bind_of_ok (h : r.runs allowed ws = (.ok a, ws')) :
    (r >>= k).runs allowed ws = (k a).runs allowed ws' := by
  rw [runs_bind, h]

end Runs

theorem Yields.bind (h : (r >>= k).Yields b) : ∃ a, r.Yields a ∧ (k a).Yields b := by
  obtain ⟨allowed, ws, ws', h⟩ := h
  obtain ⟨a, ws₁, hr, h⟩ := runs_bind_eq_ok.1 h
  exact ⟨a, ⟨allowed, ws, ws₁, hr⟩, allowed, ws₁, ws', h⟩

/-- A report that comes to an end does so with its first step. -/
theorem outcome_bind (h : (r >>= k).outcome.1 = .ok b) :
    ∃ a, r.outcome.1 = .ok a ∧ (k a).Yields b := by
  obtain ⟨a, ws₁, hr, h⟩ := runs_bind_eq_ok.1 (Prod.ext h rfl)
  exact ⟨a, congrArg Prod.fst hr, true, ws₁, _, h⟩

theorem yields_of_outcome (h : r.outcome.1 = .ok a) : r.Yields a :=
  ⟨true, [], r.outcome.2, Prod.ext h rfl⟩

@[simp] theorem yields_pure {a' : α} : (pure a : Report α).Yields a' ↔ a = a' := by
  constructor
  · rintro ⟨allowed, ws, ws', h⟩
    cases h
    rfl
  · rintro rfl
    exact ⟨true, [], [], rfl⟩

@[simp] theorem not_yields_reject {v : Violation} : ¬(reject v : Report α).Yields a := by
  rintro ⟨allowed, ws, ws', h⟩
  cases h

@[simp] theorem yields_ofFrame {e : Except FrameError α} :
    (ofFrame e : Report α).Yields a ↔ e = .ok a := by
  cases e <;> simp [ofFrame]

@[simp] theorem yields_ofFault {e : Except Fault α} :
    (ofFault e : Report α).Yields a ↔ e = .ok a := by
  cases e <;> simp [ofFault]

/-- Work of a report that works with nothing else is no step. -/
theorem lift_bind (x : Id α) (k : α → Report β) : lift x >>= k = k x.run := rfl

/-! ## Putting reports together -/

variable {P : α → Prop} {P' : β → Prop}

theorem Ensures.bind (h : ∀ a, r.Yields a → (k a).Ensures P') : (r >>= k).Ensures P' := by
  intro b hb
  obtain ⟨a, ha, hb⟩ := hb.bind
  exact h a ha b hb

/-- A check does not matter for what comes after it. -/
theorem Ensures.seq (h : ∀ a, (k a).Ensures P') : (r >>= k).Ensures P' :=
  .bind fun a _ => h a

@[simp] theorem ensures_pure : (pure a : Report α).Ensures P ↔ P a := by
  simp [Ensures]

@[simp] theorem ensures_reject (v : Violation) : (reject v : Report α).Ensures P := by
  simp [Ensures]

@[simp] theorem ensures_ofFrame {e : Except FrameError α} :
    (ofFrame e : Report α).Ensures P ↔ ∀ a, e = .ok a → P a := by
  simp [Ensures]

/-- A guard that lets a report go on was not met. -/
@[simp] theorem ensures_guard {c : Prop} [Decidable c] {v : Violation} {k : Unit → Report β}
    {r : Report β} :
    (if c then (reject v : Report Unit) >>= k else r).Ensures P' ↔ (¬c → r.Ensures P') := by
  by_cases hc : c
  · simpa [hc] using Ensures.bind (r := (reject v : Report Unit)) (k := k) (by simp)
  · simp [hc]

/-- Each element that a list is mapped to satisfies what the elements' reports ensure. -/
theorem ensures_mapM {f : σ → Report α} (l : List σ) (h : ∀ x, (f x).Ensures P) :
    (l.mapM f).Ensures fun as => ∀ a ∈ as, P a := by
  induction l with
  | nil => simp
  | cons x l ih =>
    rw [List.mapM_cons]
    refine .bind fun a ha => .bind fun as has => ensures_pure.2 ?_
    simpa using ⟨h x a ha, ih as has⟩

/-- What is done for every element of a list is ensured for each of them. -/
theorem ensures_forM {f : σ → Report PUnit} {Q : σ → Prop} (l : List σ)
    (h : ∀ x, (f x).Ensures fun _ => Q x) : (l.forM f).Ensures fun _ => ∀ x ∈ l, Q x := by
  induction l with
  | nil => exact fun _ _ => by simp
  | cons x l ih =>
    refine .bind (k := fun _ => l.forM f) fun _ hx => fun u hl => ?_
    simpa using ⟨h x _ hx, ih u hl⟩

end ReportT

end BytecodeVerifier
