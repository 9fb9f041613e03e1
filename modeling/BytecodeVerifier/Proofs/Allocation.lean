import BytecodeVerifier.Proofs.Tracking

/-!
# Allocation markers

The type of a new object names its class and the position of its allocation, and a loop can allocate
many objects at one position. Still, all registers of a frame with the same marker hold the same
object (`Method.verify_marks_one_object`): the one that the last pass through that position has
allocated. So a constructor never initializes a register that holds another object than its
receiver.

Which object a register holds is followed along a path (`Body.origins`). The key is that no frame
before an allocation holds its marker: a path that comes there for the first time has none, and a
marker does not survive where that path meets another one.
-/

namespace BytecodeVerifier

/-- The object that a register holds at the end of a path. -/
inductive Origin where
  | receiver
  /-- The object that the path has allocated at this step. -/
  | allocation (step : Nat)
  deriving DecidableEq, Repr

/-- What the registers hold after the operation, done as the given step of a path. Only a move of an
    object copies what a register holds. -/
def Operation.passOn (o : Operation) (step : Nat) (origins : Nat → Option Origin) (reg : Nat) :
    Option Origin :=
  if reg ∈ o.writes then
    match o with
    | .move .object _ src => origins src
    | .newInstance _ _ => some (.allocation step)
    | _ => none
  else origins reg

/-- The object that a register holds when the method is entered. -/
def Method.entryOrigins (m : Method) (reg : Nat) : Option Origin :=
  if !m.isStatic && reg == m.locals then some .receiver else none

namespace Body

/-- What the registers hold after one more step. An exception leaves them as they were. -/
def originStep (b : Body) (origins : Nat → Option Origin) (step : (Nat × EdgeKind) × Nat) :
    Nat → Option Origin :=
  match step.1.2, b.operation? step.1.1 with
  | .next, some o | .branch, some o => o.passOn step.2 origins
  | _, _ => origins

/-- What the registers hold at the end of a path. -/
def origins (b : Body) (entry : Nat → Option Origin) (steps : List (Nat × EdgeKind)) :
    Nat → Option Origin :=
  steps.zipIdx.foldl b.originStep entry

/-- The `n`-th step of the path has allocated an object of class `d` at position `a`, and the path
    has not been there since. -/
structure AllocatesLast (b : Body) (steps : List (Nat × EdgeKind)) (n a : Nat) (d : Descriptor) :
    Prop where
  operation : ∃ dst, b.operation? a = some (.newInstance dst d)
  step : ∃ k, k ≠ .exception ∧ steps[n]? = some (a, k)
  last {n' : Nat} {k : EdgeKind} : steps[n']? = some (a, k) → n' ≤ n

variable {b : Body} {entry : Nat → Option Origin} {steps : List (Nat × EdgeKind)} {i n a reg : Nat}
  {k : EdgeKind} {o : Operation} {d : Descriptor}

theorem origins_append : b.origins entry (steps ++ [(i, k)]) =
    b.originStep (b.origins entry steps) ((i, k), steps.length) := by
  simp [origins, List.zipIdx_append]

theorem origins_exception :
    b.origins entry (steps ++ [(i, .exception)]) = b.origins entry steps := origins_append

/-- A step that is no exception does what the operation does. -/
theorem origins_operation (hk : k ≠ .exception) (ho : b.operation? i = some o) :
    b.origins entry (steps ++ [(i, k)]) = o.passOn steps.length (b.origins entry steps) := by
  rw [origins_append]
  cases k with
  | exception => exact absurd rfl hk
  | next | branch => simp [originStep, ho]

/-- A register that is not written holds what it has held. -/
theorem origins_kept (h : ∀ o, b.operation? i = some o → reg ∉ o.writes) :
    b.origins entry (steps ++ [(i, k)]) reg = b.origins entry steps reg := by
  cases ho : b.operation? i with
  | none => cases k <;> simp [origins_append, originStep, ho]
  | some o =>
    by_cases hk : k = .exception
    · rw [hk, origins_exception]
    · rw [origins_operation hk ho]
      exact if_neg (h o ho)

theorem AllocatesLast.append (h : b.AllocatesLast steps n a d) (hi : i ≠ a) :
    b.AllocatesLast (steps ++ [(i, k)]) n a d := by
  obtain ⟨k', hk', hstep⟩ := h.step
  have hlt := (List.getElem?_eq_some_iff.1 hstep).1
  refine ⟨h.operation, ⟨k', hk', by rwa [List.getElem?_append_left hlt]⟩, fun {n' k''} hn' => ?_⟩
  rcases Nat.lt_or_ge n' steps.length with hlt' | hge
  · rw [List.getElem?_append_left hlt'] at hn'
    exact h.last hn'
  -- the new step is at another position
  · rw [List.getElem?_append_right hge, List.getElem?_singleton] at hn'
    split at hn'
    · cases hn'
      exact absurd rfl hi
    · exact nomatch hn'

theorem allocatesLast_append {dst : Nat} (ho : b.operation? i = some (.newInstance dst d))
    (hk : k ≠ .exception) : b.AllocatesLast (steps ++ [(i, k)]) steps.length i d := by
  refine ⟨⟨dst, ho⟩, ⟨k, hk, by simp⟩, fun {n' _} hn' => ?_⟩
  have hlt := (List.getElem?_eq_some_iff.1 hn').1
  rw [List.length_append, List.length_singleton] at hlt
  omega

theorem AllocatesLast.unique {n' : Nat} {d' : Descriptor} (h : b.AllocatesLast steps n a d)
    (h' : b.AllocatesLast steps n' a d') : n = n' := by
  obtain ⟨_, -, hstep⟩ := h.step
  obtain ⟨_, -, hstep'⟩ := h'.step
  exact Nat.le_antisymm (h'.last hstep) (h.last hstep')

/-- The marker `t` of register `reg` says at the end of the path which object the register holds. -/
inductive Traced (b : Body) (entry : Nat → Option Origin) (steps : List (Nat × EdgeKind))
    (reg : Nat) : RegType → Prop
  | receiver {c : ClassName} : b.origins entry steps reg = some .receiver →
      Traced b entry steps reg (.uninitializedThis c)
  | allocation {d : Descriptor} {n a : Nat} : b.origins entry steps reg = some (.allocation n) →
      b.AllocatesLast steps n a d → Traced b entry steps reg (.uninitialized (.named d) a)

/-- A marker that is kept or copied still names the same object, unless the path has just been at
    its allocation. -/
theorem Traced.append {src : Nat} {t : RegType} (h : b.Traced entry steps src t)
    (ht : ∀ c, t ≠ .uninitialized c i)
    (hreg : b.origins entry (steps ++ [(i, k)]) reg = b.origins entry steps src) :
    b.Traced entry (steps ++ [(i, k)]) reg t := by
  cases h with
  | receiver horigin => exact .receiver (hreg.trans horigin)
  | allocation horigin hlast =>
    exact .allocation (hreg.trans horigin) (hlast.append fun heq => ht _ (by rw [heq]))

/-- Registers with the same marker hold the same object. -/
theorem Traced.same {reg' : Nat} {t : RegType} (h : b.Traced entry steps reg t)
    (h' : b.Traced entry steps reg' t) :
    ∃ origin, b.origins entry steps reg = some origin ∧
      b.origins entry steps reg' = some origin := by
  cases h with
  | receiver horigin =>
    cases h' with
    | receiver horigin' => exact ⟨_, horigin, horigin'⟩
  | allocation horigin hlast =>
    cases h' with
    | allocation horigin' hlast' => exact ⟨_, horigin, hlast.unique hlast' ▸ horigin'⟩

end Body

namespace Method

variable {p : ClassPool} {config : Config} {m : Method} {v : VerifiedMethod} {task : Task}
  {entry f g : Frame} {steps : List (Nat × EdgeKind)} {i a reg : Nat} {k : EdgeKind} {t : RegType}
  {c : ClassName}

/-- What is uninitialized after a step was there before it, or has just been allocated. -/
private theorem Verified.provenance (hv : m.Verified p config v task entry)
    (hf : task.FrameAt v.body v.frame? i f) (hg : task.after i f = .ok g)
    (ht : (k.carries f g).get? reg = some t) (huninit : t.isUninitialized = true) :
    k = .exception ∧ f.get? reg = some t ∨
      k ≠ .exception ∧ Task.Provenance i f reg t (v.body.operation? i) := by
  cases k with
  | exception => exact .inl ⟨rfl, ht⟩
  | next | branch =>
    have hprovenance := Task.after_provenance (hv.tracked.valid hf).result hg ht huninit
    rw [hv.models.operation] at hprovenance
    exact .inr ⟨nofun, hprovenance⟩

/-- A marker in a frame means that every path to there has been at the allocation. -/
private theorem Verified.passed_allocation (hv : m.Verified p config v task entry)
    (hpath : v.body.Path steps i) (hf : task.FrameAt v.body v.frame? i f)
    (ht : f.get? reg = some (.uninitialized c a)) : ∃ step ∈ steps, step.1 = a := by
  refine hv.tracked.along_path (P := fun steps _ f =>
    ∀ reg, f.get? reg = some (.uninitialized c a) → ∃ step ∈ steps, step.1 = a)
    Frame.Forgets.refl ?_ ?_ hpath hf reg ht
  · intro e hforgets reg ht
    exact nomatch (hv.entry_uninitialized (hforgets.uninitialized ht rfl) rfl).2.2
  · intro steps i j k f g e _ hf ih hg _ hforgets reg ht
    have hearlier {reg : Nat} (ht : f.get? reg = some (.uninitialized c a)) :
        ∃ step ∈ steps ++ [(i, k)], step.1 = a := by
      obtain ⟨step, hstep, heq⟩ := ih reg ht
      exact ⟨step, List.mem_append_left _ hstep, heq⟩
    -- the marker was there before the step, unless the step is the allocation itself
    rcases hv.provenance hf hg (hforgets.uninitialized ht rfl) rfl with ⟨-, ht⟩ | ⟨-, hprovenance⟩
    · exact hearlier ht
    · generalize v.body.operation? i = op at hprovenance
      cases hprovenance with
      | kept _ ht => exact hearlier ht
      | copied ht => exact hearlier ht
      | allocated _ heq =>
        cases heq
        exact ⟨(a, k), by simp, rfl⟩

/-- No frame before an allocation holds its marker. -/
private theorem Verified.get?_ne_marker (hv : m.Verified p config v task entry)
    (hpath : v.body.Path steps i) (hf : task.FrameAt v.body v.frame? i f)
    (ht : f.get? reg = some t) : ∀ c, t ≠ .uninitialized c i := by
  rintro c rfl
  -- the path up to its first arrival ends in the same frame and has not been here
  obtain ⟨steps', hpath', hfirst⟩ := hpath.exists_first_arrival (.inl rfl)
  obtain ⟨step, hstep, heq⟩ := hv.passed_allocation hpath' hf ht
  exact hfirst step hstep heq

/-- At the end of every path the markers say which objects the registers hold. -/
private theorem Verified.traced (hv : m.Verified p config v task entry)
    (hpath : v.body.Path steps i) (hf : task.FrameAt v.body v.frame? i f)
    (ht : f.get? reg = some t) (huninit : t.isUninitialized = true) :
    v.body.Traced m.entryOrigins steps reg t := by
  refine hv.tracked.along_path (P := fun steps _ f => ∀ reg t, f.get? reg = some t →
    t.isUninitialized = true → v.body.Traced m.entryOrigins steps reg t)
    Frame.Forgets.refl ?_ ?_ hpath hf reg t ht huninit
  · intro e hforgets reg t ht huninit
    obtain ⟨rfl, henters, rfl⟩ := hv.entry_uninitialized (hforgets.uninitialized ht huninit) huninit
    have hstatic : m.isStatic = false := by
      simp only [entersUninitialized, isConstructor, Bool.and_eq_true, Bool.not_eq_true'] at henters
      exact henters.1.1
    exact .receiver (by simp [Body.origins, entryOrigins, hstatic])
  -- a marker that the step passes on names another position, so its last allocation is not undone
  · intro steps i j k f g e hpath hf ih hg _ hforgets reg t ht huninit
    rcases hv.provenance hf hg (hforgets.uninitialized ht huninit) huninit with
      ⟨rfl, ht⟩ | ⟨hk, hprovenance⟩
    · exact (ih reg t ht huninit).append (hv.get?_ne_marker hpath hf ht)
        (congrFun Body.origins_exception reg)
    · generalize hop : v.body.operation? i = op at hprovenance
      cases hprovenance with
      | kept hreg ht =>
        exact (ih reg t ht huninit).append (hv.get?_ne_marker hpath hf ht)
          (Body.origins_kept fun o ho => hreg o (hop.symm.trans ho))
      | @copied src ht =>
        refine (ih src t ht huninit).append (hv.get?_ne_marker hpath hf ht) ?_
        rw [Body.origins_operation hk hop]
        exact if_pos (List.mem_singleton_self reg)
      | @allocated d _ heq =>
        subst heq
        refine .allocation ?_ (Body.allocatesLast_append hop hk)
        rw [Body.origins_operation hk hop]
        exact if_pos (List.mem_singleton_self reg)

/-- In a verified method, registers with the same marker hold the same object, the one that was
    allocated last at the position that the marker names. A call changes only registers that hold
    the same object as its receiver. -/
theorem verify_marks_one_object (h : m.verify p config = .ok v) :
    m.body.normalize = .ok v.body ∧ ∃ task, m.task p config v.body = .ok task ∧
      ∀ steps i, v.body.Path steps i → ∃ f g, task.FrameAt v.body v.frame? i f ∧
        task.after i f = .ok g ∧
        (∀ c a reg reg', f.get? reg = some (.uninitialized c a) →
          f.get? reg' = some (.uninitialized c a) → ∃ d n, c = .named d ∧
            v.body.AllocatesLast steps n a d ∧
            v.body.origins m.entryOrigins steps reg = some (.allocation n) ∧
            v.body.origins m.entryOrigins steps reg' = some (.allocation n)) ∧
        ∀ kind form receiver args method reg,
          v.body.operation? i = some (.invoke kind form (receiver :: args) method) →
          g.get? reg ≠ f.get? reg → ∃ origin,
            v.body.origins m.entryOrigins steps receiver = some origin ∧
            v.body.origins m.entryOrigins steps reg = some origin := by
  obtain ⟨task, entry, hv⟩ := verified_of_verify h
  refine ⟨hv.normal, task, hv.task_eq, fun steps i hpath => ?_⟩
  obtain ⟨f, hf⟩ := hv.tracked.covered hpath.reachable
  obtain ⟨g, hg, -⟩ := hv.tracked.settled hf
  refine ⟨f, g, hf, hg, fun c a reg reg' ht ht' => ?_, fun _ _ receiver _ _ reg ho hchanged => ?_⟩
  · have htraced := hv.traced hpath hf ht rfl
    obtain ⟨origin, horigin, horigin'⟩ := htraced.same (hv.traced hpath hf ht' rfl)
    cases htraced with
    | allocation hallocation hlast =>
      cases hallocation.symm.trans horigin
      exact ⟨_, _, rfl, hlast, horigin, horigin'⟩
  -- what the call changes has the marker of the receiver
  · obtain ⟨t, hreceiver, hreg, huninit⟩ :=
      Task.after_marks hg ((hv.models.operation i).trans ho) hchanged
    exact (hv.traced hpath hf hreceiver huninit).same (hv.traced hpath hf hreg huninit)

end Method

/-- Allocates an object in every round of a loop. In the loop it copies the object and calls its
    constructor on the copy; before the next round both registers still hold that object. -/
def allocateRepeatedly : Method where
  owner := ⟨"LA;"⟩
  name := "allocate"
  proto := { params := [⟨"I"⟩], ret := ⟨"V"⟩ }
  flags := .ofModifiers [.publicAccess, .static]
  locals := 2
  ins := 1
  body :=
    { code := [.label ⟨0⟩, .withConstant .newInstance [0] (.type .object),
        .plain (.move .object) [1, 0],
        .withTarget (.ifZero .eq) [2] ⟨0⟩,
        .withConstant (.invoke .direct .list) [1] (.method
          { owner := .object, name := constructorName, proto := { params := [], ret := ⟨"V"⟩ } }),
        .withTarget .goto [] ⟨0⟩]
      labelCount := 1 }

/-- Each round leaves both registers with the object of that round. -/
theorem allocateRepeatedly_marks_one_object : ∃ v, allocateRepeatedly.verify .core {} = .ok v ∧
    allocateRepeatedly.body.normalize = .ok v.body ∧
      ∃ task, allocateRepeatedly.task .core {} v.body = .ok task ∧
      ∀ steps i, v.body.Path steps i → ∃ f g, task.FrameAt v.body v.frame? i f ∧
        task.after i f = .ok g ∧
        (∀ c a reg reg', f.get? reg = some (.uninitialized c a) →
          f.get? reg' = some (.uninitialized c a) → ∃ d n, c = .named d ∧
            v.body.AllocatesLast steps n a d ∧
            v.body.origins allocateRepeatedly.entryOrigins steps reg = some (.allocation n) ∧
            v.body.origins allocateRepeatedly.entryOrigins steps reg' = some (.allocation n)) ∧
        ∀ kind form receiver args method reg,
          v.body.operation? i = some (.invoke kind form (receiver :: args) method) →
          g.get? reg ≠ f.get? reg → ∃ origin,
            v.body.origins allocateRepeatedly.entryOrigins steps receiver = some origin ∧
            v.body.origins allocateRepeatedly.entryOrigins steps reg = some origin := by
  obtain ⟨v, h⟩ := exists_eq_ok (x := allocateRepeatedly.verify .core {}) (by decide +kernel)
  exact ⟨v, h, Method.verify_marks_one_object h⟩

end BytecodeVerifier
