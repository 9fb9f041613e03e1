import BytecodeVerifier.Proofs.Verified

/-!
# Post-fixpoints

The frames of a verified method are a post-fixpoint of execution: whatever execution brings to a
branch target, merging it into the frame there would change nothing. This holds of every pool in
which the root class is the root, no class has too many ancestors, and every class is known under
the descriptor of a class (`Method.verify_isPostFixpoint`).

The last condition cannot be dropped. In `misnamedPool` a class goes by the name of a primitive
type. The join of two arrays can then be an array of primitives, which is no supertype of either.
-/

namespace BytecodeVerifier

/-- The frames of a verified method absorb whatever execution brings along. -/
structure VerifiedMethod.IsPostFixpoint (v : VerifiedMethod) (task : Task) (entry : Frame) :
    Prop where
  /-- The entry absorbs the frame in which the method is entered. -/
  entry : ∃ s, v.state? ⟨0⟩ = some s ∧ s.merge task.env.pool entry = s
  /-- Every instruction that can be reached has a frame before it. -/
  frame {i : Nat} : v.body.Reachable i → ∃ f, task.FrameAt v.body v.frame? i f
  /-- It does not violate anything in that frame, and a branch target that it leads to absorbs the
      frame that it leads there. -/
  absorbs {i : Nat} {f : Frame} : v.body.Reachable i → task.FrameAt v.body v.frame? i f →
    ∃ g, task.after i f = .ok g ∧ ∀ k j, v.body.Edge i k j → v.body.IsTarget j →
      ∃ l s, v.body.Marks j l ∧ v.state? l = some s ∧ s.merge task.env.pool (k.carries f g) = s

/-- Frames of well-formed types, ordered by absorption. -/
theorem Task.domain_absorption {task : Task} (hp : task.env.pool.Regular) :
    task.Domain (Frame.All RegType.WellFormed) (fun e x => e.merge task.env.pool x = e) where
  clearResult hf := hf.clearResult trivial
  after hf h := Task.after_all (RegType.stable_wellFormed hp) h hf
  merge hf hg := hf.merge (fun ha hb => ha.merge hp hb) hg
  refl f := f.merge_self task.env.pool
  right _ _ := Frame.merge_merge_right hp _ _
  left _ _ hx h := Frame.merge_absorbs hp (fun t ht => (hx t ht).ordered) h _

/-- The frames of a verified method are a post-fixpoint of execution. -/
theorem Method.verify_isPostFixpoint {p : ClassPool} {config : Config} {m : Method}
    {v : VerifiedMethod} (hp : p.Regular) (h : m.verify p config = .ok v) :
    m.body.normalize = .ok v.body ∧ ∃ task entry, m.task p config v.body = .ok task ∧
      task.env.pool = p ∧ m.entryFrame p (m.classType p) = .ok entry ∧
      v.IsPostFixpoint task entry := by
  obtain ⟨task, entry, hv⟩ := verified_of_verify h
  have hpool := hv.pool
  have hclosed := hv.closed (Task.domain_absorption (hpool ▸ hp))
    (entryFrame_wellFormed hp hv.entry_eq)
  refine ⟨hv.normal, task, entry, hv.task_eq, hpool, hv.entry_eq, ?_, hclosed.covered, ?_⟩
  · obtain ⟨s, hs, habsorbs⟩ := hclosed.seeded
    rw [v.frame?_of_marks hv.models.labeled.entry] at hs
    exact ⟨s, hs, habsorbs⟩
  · intro i f _ hf
    obtain ⟨g, hg, hedges⟩ := hclosed.settled hf
    refine ⟨g, hg, fun k j hedge htarget => ?_⟩
    obtain ⟨s, hs, habsorbs⟩ := (hedges k j hedge).2 htarget
    obtain ⟨l, hl⟩ := htarget.marks hv.models.labeled
    exact ⟨l, s, hl, (v.frame?_of_marks hl).symm.trans hs, habsorbs⟩

/-! ## Classes by another name -/

/-- Takes two arrays, of classes `A` and `B`, and on one path puts the second in place of the
    first. -/
def replaceArray : Method where
  owner := ⟨"LA;"⟩
  name := "replace"
  proto := { params := [⟨"I"⟩, ⟨"[LA;"⟩, ⟨"[LB;"⟩], ret := ⟨"V"⟩ }
  flags := .ofModifiers [.publicAccess, .static]
  locals := 0
  ins := 3
  body :=
    { code := [.withTarget (.ifZero .eq) [0] ⟨0⟩, .plain (.move .object) [1, 2], .label ⟨0⟩,
        .plain .returnVoid []]
      labelCount := 1 }

/-- The classes `A` and `B`, which both extend the class `base`. -/
def siblingPool (base : Descriptor) : ClassPool :=
  ClassPool.insert (.insert .core { desc := ⟨"LA;"⟩, superclass := some base })
    { desc := ⟨"LB;"⟩, superclass := some base }

/-- As `A` and `B` extend the root class, the two arrays are arrays of objects. -/
theorem replaceArray_isPostFixpoint : (siblingPool .object).Regular ∧
    ∃ v, replaceArray.verify (siblingPool .object) {} = .ok v ∧
      replaceArray.body.normalize = .ok v.body ∧ ∃ task entry,
        replaceArray.task (siblingPool .object) {} v.body = .ok task ∧
        task.env.pool = siblingPool .object ∧
        replaceArray.entryFrame (siblingPool .object)
          (replaceArray.classType (siblingPool .object)) = .ok entry ∧
        v.IsPostFixpoint task entry := by
  have hp : (siblingPool .object).Regular :=
    ⟨by decide +kernel, ClassPool.bounded_of_links (by decide +kernel), by decide +kernel⟩
  have hok : (replaceArray.verify (siblingPool .object) {}).isOk = true := by decide +kernel
  cases h : replaceArray.verify (siblingPool .object) {} with
  | error e => simp [h, Except.isOk, Except.toBool] at hok
  | ok v => exact ⟨hp, v, rfl, Method.verify_isPostFixpoint hp h⟩

/-- A class by the name of the primitive type `int`, which `A` and `B` extend. -/
def misnamedPool : ClassPool :=
  (siblingPool ⟨"I"⟩).insert { desc := ⟨"I"⟩, superclass := some .object }

/-- The frame in which `replaceArray` runs, with an array of type `d` as the first. -/
def arraysFrame (d : Descriptor) : Frame where
  locals := []
  params := [.int, .reference (.named d) false, .reference (.named ⟨"[LB;"⟩) false]
  result := Frame.noResult
  thisInitialized := true
  monitors := some 0

/-- The join of the two arrays passes for an array of `int`. -/
def misnamedResult : VerifiedMethod where
  body :=
    { code := [.label ⟨0⟩, .withTarget (.ifZero .eq) [0] ⟨1⟩, .plain (.move .object) [1, 2],
        .label ⟨1⟩, .plain .returnVoid []]
      labelCount := 2 }
  states := [(⟨0⟩, arraysFrame ⟨"[LA;"⟩), (⟨1⟩, arraysFrame ⟨"[I"⟩)]
  flags := []
  visits := 5

/-- With a class that is not known under the descriptor of a class, a method can be accepted whose
    frames are no post-fixpoint. -/
theorem misnamed_not_isPostFixpoint : misnamedPool.Rooted ∧ misnamedPool.Bounded ∧
    replaceArray.verify misnamedPool {} = .ok misnamedResult ∧
    ¬∃ task entry, replaceArray.task misnamedPool {} misnamedResult.body = .ok task ∧
      task.env.pool = misnamedPool ∧
      replaceArray.entryFrame misnamedPool (replaceArray.classType misnamedPool) = .ok entry ∧
      misnamedResult.IsPostFixpoint task entry := by
  refine ⟨by decide +kernel, ClassPool.bounded_of_links (by decide +kernel), by decide +kernel, ?_⟩
  rintro ⟨task, entry, htask, hpool, -, hfix⟩
  have hafter : ∀ i g, (replaceArray.task misnamedPool {} misnamedResult.body).map
      (·.after i (arraysFrame ⟨"[LA;"⟩)) = .ok (.ok g) →
      task.after i (arraysFrame ⟨"[LA;"⟩) = .ok g := by
    intro i g h
    rw [htask] at h
    exact Except.ok.inj h
  have htarget : ¬misnamedResult.body.IsTarget 1 := by
    rintro (h | ⟨l, hl, -⟩)
    · exact nomatch h
    · exact nomatch hl
  have hentry : misnamedResult.body.Edge 0 .next 1 := .next rfl rfl
  -- the branch leaves with the frame in which the method is entered
  have hframe : task.FrameAt misnamedResult.body misnamedResult.frame? 1 (arraysFrame ⟨"[LA;"⟩) :=
    .passed (.stored (.inl rfl) rfl) hentry htarget (hafter 0 _ (by decide +kernel))
  obtain ⟨g, hg, habsorbs⟩ := hfix.absorbs (.step .entry hentry) hframe
  cases hg.symm.trans (hafter 1 (arraysFrame ⟨"[LA;"⟩) (by decide +kernel))
  obtain ⟨l, s, hl, hs, hmerge⟩ := habsorbs .branch 3
    (.branch (l := ⟨1⟩) rfl (by decide) rfl) (.inr ⟨⟨1⟩, rfl, .inl (by decide)⟩)
  cases hl
  cases hs
  rw [hpool] at hmerge
  exact absurd hmerge (by decide +kernel)

end BytecodeVerifier
