import BytecodeVerifier.Proofs.Tracking

/-!
# Confinement of uninitialized objects

An object on which no constructor has run does not get out of a verified method
(`Method.verify_confines_uninitialized`). It can be copied, compared, locked, and handed to a
constructor; a constructor can use fields of its own class on its receiver; and it can be stored
into an array of which nothing is known. It is never passed, stored elsewhere, returned, thrown,
cast or called otherwise.

What operations demand says this of objects that are no arrays. Arrays are never uninitialized: the
marked types in a frame are those of new instances of classes, and of the receiver.
-/

namespace BytecodeVerifier

variable {p : ClassPool} {config : Config} {m : Method} {v : VerifiedMethod}

/-- A class is no array. -/
private theorem Descriptor.isArray_of_isClass {d : Descriptor} (h : d.isClass = true) :
    d.isArray = false := by
  simp only [isClass, isArray, beq_iff_eq] at h ⊢
  simp [h]

private theorem RegType.IsMarker.isArray {owner : Descriptor} {t : RegType} (h : t.IsMarker owner)
    (howner : owner.isClass = true) : t.isArray = false := by
  rcases h with ⟨d, _, hd, rfl⟩ | rfl
  · exact Descriptor.isArray_of_isClass hd
  · exact Descriptor.isArray_of_isClass howner

/-- In a verified method of a class, an instruction that can be reached and reads a register with an
    object on which no constructor has run is one that puts up with such objects. -/
theorem Method.verify_confines_uninitialized (howner : m.owner.isClass = true)
    (h : m.verify p config = .ok v) :
    m.body.normalize = .ok v.body ∧ ∃ task, m.task p config v.body = .ok task ∧
      ∀ i, v.body.Reachable i → ∃ f, task.FrameAt v.body v.frame? i f ∧
        ∀ o use reg t, v.body.operation? i = some o → (use, reg) ∈ o.uses → f.get? reg = some t →
          t.isUninitialized = true → o.Tolerates p m f t use := by
  obtain ⟨task, entry, hv⟩ := verified_of_verify h
  refine ⟨hv.normal, task, hv.task_eq, fun i hreach => ?_⟩
  obtain ⟨f, hf⟩ := hv.tracked.covered hreach
  obtain ⟨g, hg, -⟩ := hv.tracked.settled hf
  refine ⟨f, hf, fun o use reg t ho huse ht huninit => ?_⟩
  have haccepts := Task.after_accepts hg ((hv.models.operation i).trans ho) _ huse
  have harray := ((hv.tracked.valid hf).held ht huninit).isArray howner
  rw [← hv.pool, ← hv.method]
  exact haccepts.initialized ht huninit harray

/-- A constructor that sets a field of its class and tests a copy of the receiver before it calls
    the constructor of the root class on that copy. -/
def storesFirst : Method where
  owner := ⟨"LA;"⟩
  name := constructorName
  proto := { params := [], ret := ⟨"V"⟩ }
  flags := .ofModifiers [.publicAccess]
  locals := 2
  ins := 1
  body :=
    { code := [.withConstant .constInt [0] (.int 1),
        .withConstant (.field .instanceField .put .single) [0, 2] (.field
          { owner := ⟨"LA;"⟩, name := "size", type := ⟨"I"⟩ }),
        .plain (.move .object) [1, 2], .withTarget (.ifZero .eq) [1] ⟨0⟩, .label ⟨0⟩,
        .withConstant (.invoke .direct .list) [1] (.method
          { owner := .object, name := constructorName, proto := { params := [], ret := ⟨"V"⟩ } }),
        .plain .returnVoid []]
      labelCount := 1 }

/-- The class that declares the field. -/
def sizedPool : ClassPool :=
  ClassPool.insert .core (ClassDef.declareField { desc := ⟨"LA;"⟩, superclass := some .object }
    "size" ⟨"I"⟩ (.ofModifiers [.privateAccess]))

/-- Each of the four instructions that read the receiver puts up with it as it is. -/
theorem storesFirst_confines_uninitialized : storesFirst.owner.isClass = true ∧
    ∃ v, storesFirst.verify sizedPool {} = .ok v ∧ storesFirst.body.normalize = .ok v.body ∧
      ∃ task, storesFirst.task sizedPool {} v.body = .ok task ∧
      ∀ i, v.body.Reachable i → ∃ f, task.FrameAt v.body v.frame? i f ∧
        ∀ o use reg t, v.body.operation? i = some o → (use, reg) ∈ o.uses → f.get? reg = some t →
          t.isUninitialized = true → o.Tolerates sizedPool storesFirst f t use := by
  have hclass : storesFirst.owner.isClass = true := by decide +kernel
  obtain ⟨v, h⟩ := exists_eq_ok (x := storesFirst.verify sizedPool {}) (by decide +kernel)
  exact ⟨hclass, v, h, Method.verify_confines_uninitialized hclass h⟩

end BytecodeVerifier
