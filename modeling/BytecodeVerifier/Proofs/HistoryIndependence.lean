import BytecodeVerifier.Proofs.HandleDataflow

/-!
# Independence of the table's history

A table is shared by many verifications, and what was entered into it before decides which handles a
verification works with. It does not decide the outcome: over every table that can be reached, a
method is verified as it is without a table (`Method.gives_verifyOverWithin`).
-/

namespace BytecodeVerifier

open TypeTable (Extends Reachable Denotes)
open Related (Reads)

instance {α β : Type} [Related α β] : Related (Label × α) (Label × β) where
  Reads t a b := a.1 = b.1 ∧ Reads t a.2 b.2
  mono ht h := ⟨h.1, Related.mono ht h.2⟩

instance {α β : Type} [Related α β] : Related (Task × α) (Task × β) where
  Reads t a b := a.1 = b.1 ∧ Reads t a.2 b.2
  mono ht h := ⟨h.1, Related.mono ht h.2⟩

namespace VerifiedMethod

/-- The table reads the accepted method as the other. -/
structure Shows (t : TypeTable) (V : VerifiedMethod HandleFrame) (v : VerifiedMethod) : Prop where
  body : V.body = v.body
  states : Reads t V.states v.states
  flags : V.flags = v.flags
  visits : V.visits = v.visits

instance : Related (VerifiedMethod HandleFrame) VerifiedMethod where
  Reads := Shows
  mono ht h := { h with states := Related.mono ht h.states }

theorem Shows.view_eq {t : TypeTable} {V : VerifiedMethod HandleFrame} {v : VerifiedMethod}
    (hV : V.Shows t v) : V.view t = v := by
  obtain ⟨body, states, flags, visits⟩ := V
  obtain ⟨body', states', flags', visits'⟩ := v
  obtain ⟨rfl, hstates, rfl, rfl⟩ := hV
  have hmap : states.map (fun s => (s.1, s.2.view t)) = states' := by
    dsimp only at hstates
    induction hstates with
    | nil => rfl
    | cons hF _ ih => rw [List.map_cons, hF.1, hF.2.view_eq, ih]
  rw [view, hmap]

end VerifiedMethod

namespace Method

open Lookup HandleFrame

variable {t : TypeTable} {F : HandleFrame} {f : Frame}

/-! ## The entry -/

theorem gives_writeParams (p : ClassPool) (hF : F.Shows t f) (reg : Nat)
    (params : List Descriptor) :
    Gives t (writeParamHandles p F reg params) (writeParams p f reg params) := by
  induction params generalizing t F f reg with
  | nil => exact gives_pure fun _ => .ok hF
  | cons param params ih =>
    unfold writeParamHandles writeParams
    apply Gives.bind (gives_ofDescriptor p param false)
    intro t' a hext ha
    apply gives_ite ha.eq_conflict_iff
    · exact gives_pure fun _ => .error _
    · have hwrite := gives_write (hF.mono hext) ha reg
      revert hwrite
      generalize f.write reg (RegType.ofDescriptor p param false) = r
      intro hwrite
      apply Gives.bind hwrite
      intro t₂ R hext₂ hR
      cases hR with
      | error e => exact gives_pure fun _ => .error _
      | ok hG => exact ih hG _

private theorem gives_receiver (p : ClassPool) (m : Method) (initialized : Bool)
    {receiver : Handle} {x : RegType} (hx : t.Denotes receiver x) :
    Gives t
      (((HandleFrame.blank m.locals m.ins).writeSingle m.locals receiver).run >>= fun r =>
        match r with
        | .error e => pure (.error (.frame e))
        | .ok f =>
          writeParamHandles p { f with thisInitialized := initialized } (m.locals + 1)
            m.proto.params)
      (match (Frame.blank m.locals m.ins).writeSingle m.locals x with
        | .error e => Except.error (Violation.frame e)
        | .ok f =>
          writeParams p { f with thisInitialized := initialized } (m.locals + 1)
            m.proto.params) := by
  intro ht
  have hwrite := gives_writeSingle (shows_blank ht m.locals m.ins) hx m.locals
  revert ht hwrite
  generalize (Frame.blank m.locals m.ins).writeSingle m.locals x = r
  intro ht hwrite
  apply Gives.bind hwrite _ ht
  intro t' R _ hR
  cases hR with
  | error e => exact gives_pure fun _ => .error _
  | @ok G g hG =>
    have hG' : HandleFrame.Shows t' { G with thisInitialized := initialized }
        { g with thisInitialized := initialized } :=
      { hG with thisInitialized := rfl }
    exact gives_writeParams p hG' _ _

theorem gives_entry (p : ClassPool) (m : Method) {classType : Handle} {x : RegType}
    (hx : t.Denotes classType x) :
    Gives t (m.entryHandles p classType) (m.entryFrame p x) := by
  unfold entryHandles entryFrame
  dsimp only
  split
  · intro ht
    exact gives_writeParams p (shows_blank ht m.locals m.ins) m.locals m.proto.params ht
  split
  · apply Gives.bind (gives_asUninitializedThis hx)
    intro t' receiver _ hreceiver
    exact gives_receiver p m _ hreceiver
  · exact gives_receiver p m _ hx

/-! ## The method -/

/-- What is done without the table goes before work with it. -/
private theorem gives_except_bind {ε α γ δ : Type} [Related γ δ] {r : Except ε α}
    {k : α → ExceptT ε Lookup γ} {l : α → Except ε δ} (hkl : ∀ a, Gives t (k a).run (l a)) :
    Gives t ((liftM r : ExceptT ε Lookup α) >>= k).run (r >>= l) := by
  cases r with
  | error e => exact gives_pure fun _ => .error e
  | ok a => exact hkl a

/-- What has come of work with the table goes before more of it. -/
private theorem gives_reads_bind {ε α β γ δ : Type} [Related α β] [Related γ δ] {R : Except ε α}
    {r : Except ε β} {k : α → ExceptT ε Lookup γ} {l : β → Except ε δ} (hR : Reads t R r)
    (hkl : ∀ a b, Reads t a b → Gives t (k a).run (l b)) :
    Gives t ((liftM R : ExceptT ε Lookup α) >>= k).run (r >>= l) := by
  cases hR with
  | error e => exact gives_pure fun _ => .error e
  | ok hab => exact hkl _ _ hab

private theorem reads_unplaced {ε α β : Type} [Related α β] {R : Except ε α} {r : Except ε β}
    (g : ε → Violation) (hR : Reads t R r) :
    Reads t (Failure.unplaced g R) (Failure.unplaced g r) := by
  cases hR with
  | error e => exact .error _
  | ok hab => exact .ok hab

theorem gives_taskOver (p : ClassPool) (config : Config) (m : Method) (body : Body) :
    Gives t (m.taskOver p config body).run
      (m.task p config body >>= fun task => pure (task, m.classType p)) := by
  unfold taskOver task
  simp only [bind_assoc]
  apply gives_except_bind
  intro _
  apply gives_except_bind
  intro operations
  -- the class gets its handle before the structure of the code is looked at
  rw [run_liftM_bind]
  apply Gives.bind (gives_ofReference p m.owner false)
  intro t' c hext hc ht'
  have hiff : c = .fixed .conflict ↔ m.classType p = .conflict := hc.eq_conflict_iff ht'
  by_cases hconflict : m.classType p = .conflict
  · rw [if_pos (hiff.2 hconflict), if_pos hconflict]
    exact ⟨ht', .refl t', .error _⟩
  · rw [if_neg fun h => hconflict (hiff.1 h), if_neg hconflict]
    revert ht'
    simp only [bind_assoc]
    apply gives_except_bind
    intro layout
    apply gives_except_bind
    intro _
    exact gives_pure fun _ => .ok ⟨rfl, hc⟩

private theorem reads_mapM {ε α β γ δ : Type} [Related γ δ] {R : α → β → Prop} {as : List α}
    {bs : List β} {k : α → Except ε γ} {l : β → Except ε δ} (h : List.Forall₂ R as bs)
    (hkl : ∀ a b, R a b → Reads t (k a) (l b)) : Reads t (as.mapM k) (bs.mapM l) := by
  induction h with
  | nil => exact .ok .nil
  | cons hab _ ih =>
    rw [List.mapM_cons, List.mapM_cons]
    apply ExceptReads.bind (hkl _ _ hab)
    intro c d hcd
    apply ExceptReads.bind ih
    intro cs ds hcds
    exact .ok (.cons hcd hcds)

private theorem forall₂_entries {Ps : List (Point HandleFrame)} {qs : List Point}
    (hPs : List.Forall₂ (Point.Shows t) Ps qs) (code : List Instruction) :
    List.Forall₂ (fun a b => a.1 = b.1 ∧ HandleFrame.Shows t a.2 b.2)
      ((code.zip Ps).filterMap fun (i, P) => P.entry.map (i, ·))
      ((code.zip qs).filterMap fun (i, q) => q.entry.map (i, ·)) := by
  induction hPs generalizing code with
  | nil =>
    rw [List.zip_nil_right, List.zip_nil_right]
    exact .nil
  | @cons P q Ps qs hP _ ih =>
    cases code with
    | nil => exact .nil
    | cons i code =>
      obtain ⟨visited, queued, entry⟩ := P
      obtain ⟨visited', queued', entry'⟩ := q
      cases hP.entry with
      | none => exact ih code
      | some hG => exact .cons ⟨rfl, hG⟩ (ih code)

/-- The same labels are reached, in frames that show each other. -/
theorem reads_reached {Ps : Array (Point HandleFrame)} {qs : Array Point} (hPs : Reads t Ps qs)
    (code : List Instruction) :
    Reads t (reachedLabels code Ps) (reachedLabels code qs) := by
  apply reads_mapM (forall₂_entries hPs code)
  intro a b hab
  obtain ⟨i, F⟩ := a
  obtain ⟨i', f⟩ := b
  obtain ⟨rfl, hF⟩ := hab
  dsimp only
  cases i.placed? with
  | none => exact .error _
  | some l => exact .ok ⟨rfl, hF⟩

theorem gives_verifyOverWithin (limit : Nat) (p : ClassPool) (config : Config) (m : Method) :
    Gives t (m.verifyOverWithin limit p config).run (m.verifyWithin limit p config) := by
  unfold verifyOverWithin verifyWithin
  apply gives_except_bind
  intro body
  -- the class goes along with the task, as it does over a table
  have htask : (m.task p config body >>= fun task => do
      let entry ← Failure.unplaced id (m.entryFrame p (m.classType p))
      let final ← task.solve config limit (Progress.start task.env.layout.size entry)
      let states ← Failure.unplaced .fault (reachedLabels body.code final.points)
      return ({ body, states, flags := final.flags, visits := final.visits } : VerifiedMethod)) =
    (m.task p config body >>= fun task => pure (task, m.classType p)) >>= fun c => do
      let entry ← Failure.unplaced id (m.entryFrame p c.2)
      let final ← c.1.solve config limit (Progress.start c.1.env.layout.size entry)
      let states ← Failure.unplaced .fault (reachedLabels body.code final.points)
      return { body, states, flags := final.flags, visits := final.visits } := by
    rw [bind_assoc]
    rfl
  rw [htask]
  apply gives_run_bind (gives_taskOver p config m body)
  intro t₁ C c hext₁ hC
  obtain ⟨task, classType⟩ := C
  obtain ⟨task', x⟩ := c
  obtain ⟨rfl, hx⟩ := hC
  dsimp only
  rw [run_liftM_bind]
  apply Gives.bind (gives_entry p m hx)
  intro t₂ R hext₂ hR
  apply gives_reads_bind (reads_unplaced id hR)
  intro F f hF
  apply gives_run_bind (task.gives_solve config limit (Progress.shows_start hF _))
  intro t₃ S s hext₃ hS
  apply gives_reads_bind (reads_unplaced .fault (reads_reached hS.points body.code))
  intro states states' hstates
  exact gives_pure fun _ => .ok ⟨rfl, hstates, hS.flags, hS.visits⟩

/-! ## The outcome -/

/-- Over a table a method is verified as without one. -/
theorem outcomeOver_eq_verify (p : ClassPool) (config : Config) (m : Method)
    (ht : t.Reachable) : m.outcomeOver p config t = m.verify p config := by
  obtain ⟨-, -, hread⟩ := gives_verifyOverWithin visitLimit p config m ht
  unfold outcomeOver verifyOver verify
  revert hread
  generalize (m.verifyOverWithin visitLimit p config).run t = r
  generalize m.verifyWithin visitLimit p config = v
  obtain ⟨R, t'⟩ := r
  intro hread
  cases hread with
  | error e => rfl
  | ok hV => exact congrArg Except.ok hV.view_eq

/-- The outcome of a verification does not depend on the history of its table. It is the same
failure as over a table in which nothing has been entered, or else the same body, visits and
warnings, and the same frames at the same labels: their handles may differ, but stand for the same
types, with the same texts. The table that is left behind can be reached as well, so that any number
of other methods may have been verified before. -/
theorem outcomeOver_eq_initial (p : ClassPool) (config : Config) (m : Method) {t : TypeTable}
    (ht : t.Reachable) :
    m.outcomeOver p config t = m.outcomeOver p config .initial ∧
      ((m.verifyOver p config).run t).2.Reachable := by
  constructor
  · rw [outcomeOver_eq_verify p config m ht, outcomeOver_eq_verify p config m .initial]
  · exact (gives_verifyOverWithin visitLimit p config m ht).1

end Method

/-- Goes with a string to the end of the method, and returns it there. -/
def greeting : Method where
  owner := ⟨"LA;"⟩
  name := "greeting"
  proto := { params := [], ret := .string }
  flags := .ofModifiers [.publicAccess, .static]
  locals := 1
  ins := 0
  body :=
    { code := [.withConstant .constString [0] (.string "hello"), .withTarget .goto [] ⟨0⟩,
        .label ⟨0⟩, .plain (.returnValue .object) [0]]
      tries := []
      labelCount := 1 }

/-- The string has another handle if a class and an exception were entered before. -/
theorem greeting_after_throwable :
    let t := ((TypeTable.initial.internClass ⟨"LB;"⟩).2.intern .throwable).2
    ((greeting.verifyOver .core {}).run t).1.toOption ≠
        ((greeting.verifyOver .core {}).run .initial).1.toOption ∧
      greeting.outcomeOver .core {} t = greeting.outcomeOver .core {} .initial ∧
      ((greeting.verifyOver .core {}).run t).2.Reachable :=
  ⟨by decide +kernel,
    Method.outcomeOver_eq_initial .core {} greeting (.intern .throwable (.internClass _ .initial))⟩

end BytecodeVerifier
