import BytecodeVerifier.Proofs.HandleFrames
import BytecodeVerifier.Proofs.Yields
import BytecodeVerifier.TypeTable.HandleTransfer

/-!
# Checks by handles

A check that works with a table simulates one without (`TableReport.Simulates`): it raises the same
warnings and ends in the same violation, or else with a value that the table then reads as the value
of the other. A check that only reads the table agrees with the other altogether
(`TableReport.Agrees`), and what is known of a handle before it is known after it.
-/

namespace BytecodeVerifier

open TypeTable (Extends Reachable Denotes)
open Related (Reads)

/-- Checks may end without a value. -/
instance : Related Unit Unit where
  Reads _ _ _ := True
  mono _ h := h

/-- What comes after a check takes its warnings, unless it has failed. -/
theorem ReportT.bind_runs {α γ : Type} (s : Report α) (l : α → Report γ) (allowed : Bool)
    (ws : List Warning) : (s >>= l).runs allowed ws =
      (ExceptT.bindCont (l · allowed) (s.runs allowed ws).1).run (s.runs allowed ws).2 :=
  rfl

namespace TableReport

open HandleFrame (Shows)
open Lookup (Gives)
open ReportT (reject flag lift ofFault ofReport)

variable {α β γ δ : Type} [Related α β] [Related γ δ] {t : TypeTable} {F : HandleFrame} {f : Frame}
  {h h' : Handle} {x y : RegType} {p : ClassPool}

/-- The check does to a table what the other does without. -/
def Simulates (t : TypeTable) (r : TableReport α) (s : Report β) : Prop :=
  t.Reachable → ∀ allowed ws, (r.runFrom allowed ws t).2.Reachable ∧
    t.Extends (r.runFrom allowed ws t).2 ∧
    (r.runFrom allowed ws t).1.2 = (s.runs allowed ws).2 ∧
    Reads (r.runFrom allowed ws t).2 (r.runFrom allowed ws t).1.1 (s.runs allowed ws).1

/-- The check leaves the table as it is, and ends as the other does. -/
def Agrees (t : TypeTable) (r : TableReport α) (s : Report α) : Prop :=
  t.Reachable → ∀ allowed ws, r.runFrom allowed ws t = (s.runs allowed ws, t)

/-! ## Steps -/

/-- What comes after a check takes its warnings and its table, unless it has failed. -/
theorem bind_run (r : TableReport α) (k : α → TableReport γ) (allowed : Bool)
    (ws : List Warning) : (r >>= k).runFrom allowed ws t =
      (ExceptT.bindCont (k · allowed) (r.runFrom allowed ws t).1.1).run
        (r.runFrom allowed ws t).1.2 (r.runFrom allowed ws t).2 :=
  rfl

/-- A type is looked up on the way. -/
theorem typeOf_bind_run (hx : t.Denotes h x) (k : RegType → TableReport γ) (allowed : Bool)
    (ws : List Warning) : (typeOf h >>= k).runFrom allowed ws t = (k x).runFrom allowed ws t := by
  show (k (t.type h.index)).runFrom allowed ws t = (k x).runFrom allowed ws t
  rw [hx.type_eq]

/-- Two types are compared on the way. -/
theorem isAssignable_bind_run (hx : t.Denotes h x) (hy : t.Denotes h' y)
    (k : Bool → TableReport γ) (allowed : Bool) (ws : List Warning) :
    (lift (Lookup.isAssignable p h h') >>= k).runFrom allowed ws t =
      (k (x.isAssignable p y)).runFrom allowed ws t := by
  show (k (Lookup.isAssignable p h h' t).1).runFrom allowed ws (Lookup.isAssignable p h h' t).2 = _
  rw [Lookup.isAssignable_run, hx.type_eq, hy.type_eq]

/-- An access ends where the work with the table ends. -/
private theorem ofAccess_run {w : HandleFrame.Access α} (allowed : Bool) (ws : List Warning) :
    (ofAccess w).runFrom allowed ws t =
      (((w.run t).1.mapError (.violation <| .frame ·), ws), (w.run t).2) := by
  have hlift : (lift w.run : TableReport _).runFrom allowed ws t =
      ((.ok (w.run t).1, ws), (w.run t).2) := rfl
  unfold ofAccess
  rw [bind_run, hlift]
  cases (w.run t).1 <;> rfl

/-- Both registers can be read, or both are refused. -/
theorem read_cases (hF : Shows t F f) (reg : Nat) :
    (∃ h x, read F reg = pure h ∧ ReportT.read f reg = pure x ∧ t.Denotes h x) ∨
      ∃ v, read F reg = reject v ∧ ReportT.read f reg = reject v := by
  unfold read ReportT.read
  rcases hF.read_cases reg with ⟨h, x, hread, hread', hx⟩ | ⟨e, hread, hread'⟩
  · rw [hread, hread']
    exact .inl ⟨h, x, rfl, rfl, hx⟩
  · rw [hread, hread']
    exact .inr ⟨.frame e, rfl, rfl⟩

/-! ## Checks that only read -/

theorem agrees_pure (a : α) : Agrees t (pure a) (pure a) :=
  fun _ _ _ => rfl

theorem agrees_reject (v : Violation) : Agrees t (reject v : TableReport α) (reject v) :=
  fun _ _ _ => rfl

theorem agrees_flag (w : Warning) : Agrees t (flag w) (flag w) := by
  intro _ allowed ws
  cases allowed <;> rfl

theorem agrees_ofFault (x : Except Fault α) : Agrees t (ofFault x) (ofFault x) := by
  cases x with
  | ok a => exact agrees_pure a
  | error e => exact agrees_reject (.fault e)

theorem agrees_ofReport (s : Report α) : Agrees t (ofReport s) s :=
  fun _ _ _ => rfl

theorem agrees_viewing (hF : Shows t F f) (check : Frame → Report α) :
    Agrees t (viewing check F) (check f) := by
  intro _ allowed ws
  show ((check (F.view t)).runs allowed ws, t) = ((check f).runs allowed ws, t)
  rw [hF.view_eq]

theorem agrees_ofAccess {w : HandleFrame.Access α} {e : Except FrameError α}
    (hw : t.Reachable → w.run t = (e, t)) : Agrees t (ofAccess w) (ReportT.ofFrame e) := by
  intro ht allowed ws
  rw [ofAccess_run, hw ht]
  cases e <;> rfl

theorem Agrees.bind {r : TableReport α} {s : Report α} {k : α → TableReport γ} {l : α → Report γ}
    (hr : Agrees t r s) (hk : ∀ a, Agrees t (k a) (l a)) : Agrees t (r >>= k) (s >>= l) := by
  intro ht allowed ws
  rw [bind_run, ReportT.bind_runs, hr ht allowed ws]
  rcases s.runs allowed ws with ⟨_ | a, ws'⟩
  · rfl
  · exact hk a ht allowed ws'

theorem agrees_guard {c : Prop} [Decidable c] {v : Violation} {k : α → TableReport γ}
    {l : α → Report γ} {r : TableReport γ} {s : Report γ} (hr : Agrees t r s) :
    Agrees t (if c then reject v >>= k else r) (if c then reject v >>= l else s) := by
  split
  · exact fun _ _ _ => rfl
  · exact hr

theorem agrees_typeOf_bind {k : RegType → TableReport γ} {s : Report γ} (hx : t.Denotes h x)
    (hk : Agrees t (k x) s) : Agrees t (typeOf h >>= k) s := by
  intro ht allowed ws
  rw [typeOf_bind_run hx]
  exact hk ht allowed ws

theorem agrees_isAssignable_bind {k : Bool → TableReport γ} {s : Report γ} (hx : t.Denotes h x)
    (hy : t.Denotes h' y) (hk : Agrees t (k (x.isAssignable p y)) s) :
    Agrees t (lift (Lookup.isAssignable p h h') >>= k) s := by
  intro ht allowed ws
  rw [isAssignable_bind_run hx hy]
  exact hk ht allowed ws

theorem agrees_read_bind {k : Handle → TableReport γ} {l : RegType → Report γ} (hF : Shows t F f)
    (reg : Nat) (hk : ∀ h x, t.Denotes h x → Agrees t (k h) (l x)) :
    Agrees t (read F reg >>= k) (ReportT.read f reg >>= l) := by
  rcases read_cases hF reg with ⟨h, x, hread, hread', hx⟩ | ⟨v, hread, hread'⟩
  · rw [hread, hread', pure_bind, pure_bind]
    exact hk h x hx
  · rw [hread, hread']
    exact fun _ _ _ => rfl

theorem agrees_typeAt (hF : Shows t F f) (reg : Nat) :
    Agrees t (typeAt F reg) (ReportT.read f reg) := by
  rw [← bind_pure (ReportT.read f reg)]
  apply agrees_read_bind hF reg
  intro h x hx
  rw [← bind_pure (typeOf h)]
  exact agrees_typeOf_bind hx (agrees_pure x)

/-! ## Expectations -/

theorem agrees_expectSingle (env : Environment) (hF : Shows t F f) (hy : t.Denotes h y)
    (reg : Nat) : Agrees t (Lookup.expectSingle env F reg h) (env.expectSingle f reg y) := by
  unfold Lookup.expectSingle Environment.expectSingle
  apply agrees_read_bind hF reg
  intro a x hx
  apply agrees_isAssignable_bind hy hx
  split
  · exact agrees_pure ()
  apply agrees_typeOf_bind hx
  apply agrees_typeOf_bind hy
  split
  · exact agrees_flag _
  · exact agrees_reject _

theorem agrees_expectPair (env : Environment) (hF : Shows t F f) (hy : t.Denotes h y)
    (reg : Nat) : Agrees t (Lookup.expectPair env F reg h) (env.expectPair f reg y) := by
  unfold Lookup.expectPair Environment.expectPair
  apply (agrees_ofAccess fun _ => HandleFrame.holdsPair_run hF hy reg).bind
  intro holds
  split
  · exact agrees_pure ()
  apply (agrees_typeAt hF reg).bind
  intro lo
  apply (agrees_typeAt hF (reg + 1)).bind
  intro hi
  apply agrees_typeOf_bind hy
  exact agrees_reject _

theorem agrees_expect (env : Environment) (hF : Shows t F f) (hy : t.Denotes h y) (reg : Nat) :
    Agrees t (Lookup.expect env F reg h) (env.expect f reg y) := by
  unfold Lookup.expect Environment.expect
  apply agrees_typeOf_bind hy
  split
  · exact agrees_expectPair env hF hy reg
  · exact agrees_expectSingle env hF hy reg

theorem agrees_expectPrimitive (env : Environment) (hF : Shows t F f) (reg : Nat) (k : Primitive) :
    Agrees t (Lookup.expectPrimitive env F reg k) (env.expectPrimitive f reg k) := by
  intro ht
  have hk := TypeTable.denotes_fixed ht (Lookup.ofPrimitive_mem_fixedTypes k)
  exact agrees_expect env hF hk reg ht

/-! ## Checks that issue handles -/

theorem simulates_pure {a : α} {b : β} (h : t.Reachable → Reads t a b) :
    Simulates t (pure a) (pure b) :=
  fun ht _ _ => ⟨ht, .refl t, rfl, .ok (h ht)⟩

theorem simulates_reject (v : Violation) :
    Simulates t (reject v : TableReport α) (reject v : Report β) :=
  fun ht _ _ => ⟨ht, .refl t, rfl, .error _⟩

/-- What the other check yields may have to be put together before it can be compared. -/
theorem Simulates.bind_map {ι : Type} {r : TableReport α} {s : Report ι} {g : ι → β}
    {k : α → TableReport γ} {l : ι → Report δ}
    (hr : Simulates t r (s >>= fun i => pure (g i)))
    (hk : ∀ t' a i, t.Extends t' → Reads t' a (g i) → Simulates t' (k a) (l i)) :
    Simulates t (r >>= k) (s >>= l) := by
  intro ht allowed ws
  obtain ⟨ht', hext, hws, hread⟩ := hr ht allowed ws
  rw [ReportT.bind_runs] at hws hread
  rw [bind_run, ReportT.bind_runs]
  generalize r.runFrom allowed ws t = left at *
  generalize s.runs allowed ws = right at *
  rcases left with ⟨⟨a, ws'⟩, t'⟩
  rcases right with ⟨e | i, ws₁⟩
  · cases hws
    cases hread with
    | error => exact ⟨ht', hext, rfl, .error e⟩
  · cases hws
    cases hread with
    | ok hab =>
      obtain ⟨ht₂, hext₂, hws₂, hread₂⟩ := hk t' _ i hext hab ht' allowed ws'
      exact ⟨ht₂, hext.trans hext₂, hws₂, hread₂⟩

theorem Simulates.bind {r : TableReport α} {s : Report β} {k : α → TableReport γ}
    {l : β → Report δ} (hr : Simulates t r s)
    (hk : ∀ t' a b, t.Extends t' → Reads t' a b → Simulates t' (k a) (l b)) :
    Simulates t (r >>= k) (s >>= l) := by
  rw [← bind_pure s] at hr
  exact hr.bind_map (g := id) hk

theorem Agrees.bind_simulates_of_yields {ε : Type} {r : TableReport ε} {s : Report ε}
    {k : ε → TableReport γ} {l : ε → Report δ} (hr : Agrees t r s)
    (hk : ∀ a, s.Yields a → Simulates t (k a) (l a)) : Simulates t (r >>= k) (s >>= l) := by
  intro ht allowed ws
  rw [bind_run, ReportT.bind_runs, hr ht allowed ws]
  rcases hs : s.runs allowed ws with ⟨e | a, ws'⟩
  · exact ⟨ht, .refl t, rfl, .error e⟩
  · exact hk a ⟨allowed, ws, ws', hs⟩ ht allowed ws'

theorem Agrees.bind_simulates {ε : Type} {r : TableReport ε} {s : Report ε} {k : ε → TableReport γ}
    {l : ε → Report δ} (hr : Agrees t r s) (hk : ∀ a, Simulates t (k a) (l a)) :
    Simulates t (r >>= k) (s >>= l) :=
  hr.bind_simulates_of_yields fun a _ => hk a

theorem Agrees.simulates {r : TableReport Unit} {s : Report Unit} (hr : Agrees t r s) :
    Simulates t r s := by
  rw [← bind_pure r, ← bind_pure s]
  exact hr.bind_simulates fun _ => simulates_pure fun _ => trivial

theorem simulates_guard {ε : Type} {c d : Prop} [Decidable c] [Decidable d] {v : Violation}
    {k : ε → TableReport γ} {l : ε → Report δ} {r : TableReport γ} {s : Report δ}
    (hcd : t.Reachable → (c ↔ d)) (hr : Simulates t r s) :
    Simulates t (if c then reject v >>= k else r) (if d then reject v >>= l else s) := by
  intro ht
  by_cases hc : c
  · rw [if_pos hc, if_pos ((hcd ht).1 hc)]
    exact fun _ _ => ⟨ht, .refl t, rfl, .error _⟩
  · rw [if_neg hc, if_neg fun hd => hc ((hcd ht).2 hd)]
    exact hr ht

theorem simulates_typeOf_bind {k : RegType → TableReport γ} {s : Report δ} (hx : t.Denotes h x)
    (hk : Simulates t (k x) s) : Simulates t (typeOf h >>= k) s := by
  intro ht allowed ws
  rw [typeOf_bind_run hx]
  exact hk ht allowed ws

theorem simulates_isAssignable_bind {k : Bool → TableReport γ} {s : Report δ}
    (hx : t.Denotes h x) (hy : t.Denotes h' y) (hk : Simulates t (k (x.isAssignable p y)) s) :
    Simulates t (lift (Lookup.isAssignable p h h') >>= k) s := by
  intro ht allowed ws
  rw [isAssignable_bind_run hx hy]
  exact hk ht allowed ws

theorem simulates_read_bind {k : Handle → TableReport γ} {l : RegType → Report δ}
    (hF : Shows t F f) (reg : Nat) (hk : ∀ h x, t.Denotes h x → Simulates t (k h) (l x)) :
    Simulates t (read F reg >>= k) (ReportT.read f reg >>= l) := by
  rcases read_cases hF reg with ⟨h, x, hread, hread', hx⟩ | ⟨v, hread, hread'⟩
  · rw [hread, hread', pure_bind, pure_bind]
    exact hk h x hx
  · rw [hread, hread']
    exact fun ht _ _ => ⟨ht, .refl t, rfl, .error _⟩

/-- Work with the table, which a check without one does not do. -/
theorem simulates_lift_bind {w : Lookup α} {b : β} {k : α → TableReport γ} {s : Report δ}
    (hw : Gives t w b) (hk : ∀ t' a, t.Extends t' → Reads t' a b → Simulates t' (k a) s) :
    Simulates t (lift w >>= k) s := by
  intro ht allowed ws
  obtain ⟨ht', hext, hread⟩ := hw ht
  obtain ⟨ht₂, hext₂, hws, hread₂⟩ := hk (w t).2 (w t).1 hext hread ht' allowed ws
  exact ⟨ht₂, hext.trans hext₂, hws, hread₂⟩

theorem simulates_lift {w : Lookup α} {b : β} (hw : Gives t w b) :
    Simulates t (lift w) (pure b) := by
  intro ht allowed ws
  obtain ⟨ht', hext, hread⟩ := hw ht
  exact ⟨ht', hext, rfl, .ok hread⟩

theorem simulates_ofAccess {w : HandleFrame.Access α} {e : Except FrameError β}
    (hw : Gives t w.run e) : Simulates t (ofAccess w) (ReportT.ofFrame e) := by
  intro ht allowed ws
  obtain ⟨ht', hext, hread⟩ := hw ht
  rw [ofAccess_run]
  revert hread
  generalize w.run t = q at *
  rcases q with ⟨a, t'⟩
  intro hread
  cases hread with
  | ok hab => exact ⟨ht', hext, rfl, .ok hab⟩
  | error e => exact ⟨ht', hext, rfl, .error _⟩

theorem simulates_write (hF : Shows t F f) (hx : t.Denotes h x) (reg : Nat) :
    Simulates t (write F reg h) (ReportT.write f reg x) :=
  simulates_ofAccess (HandleFrame.gives_write hF hx reg)

theorem simulates_writeSingle (hF : Shows t F f) (hx : t.Denotes h x) (reg : Nat) :
    Simulates t (writeSingle F reg h) (ReportT.writeSingle f reg x) :=
  simulates_ofAccess (HandleFrame.gives_writeSingle hF hx reg)

end TableReport

end BytecodeVerifier
