import BytecodeVerifier.Proofs.Verified

/-!
# Coverage

A verified method has a frame for each branch target that execution can reach, and for no other
label. Execution cannot run off the end of its code.
-/

namespace BytecodeVerifier

variable {p : ClassPool} {config : Config} {m : Method} {v : VerifiedMethod}

/-- A verified method has frames exactly for the branch targets that can be reached, and no
    instruction that can be reached falls off the end of the code. -/
theorem Method.verify_covers_reachable (h : m.verify p config = .ok v) :
    m.body.normalize = .ok v.body ∧
      (∀ l, (v.state? l).isSome = true ↔
        ∃ i, v.body.Marks i l ∧ v.body.IsTarget i ∧ v.body.Reachable i) ∧
      ∀ i ins, v.body.Reachable i → v.body.code[i]? = some ins → ins.fallsThrough = true →
        i + 1 < v.body.code.length := by
  obtain ⟨task, entry, hv⟩ := verified_of_verify h
  have hclosed := hv.closed task.domain_true trivial
  refine ⟨hv.normal, fun l => ⟨fun hl => ?_, ?_⟩, ?_⟩
  · obtain ⟨f, hf⟩ := Option.isSome_iff_exists.1 hl
    obtain ⟨i, hi⟩ := hv.placed hf
    obtain ⟨htarget, hreach⟩ := hclosed.stored ((v.frame?_of_marks hi).trans hf)
    exact ⟨i, hi, htarget, hreach⟩
  · rintro ⟨i, hi, htarget, hreach⟩
    -- the frame before a branch target is the one that is stored there
    obtain ⟨f, hf⟩ := hclosed.covered hreach
    cases hf with
    | stored _ hf => simp [← v.frame?_of_marks hi, hf]
    | passed _ _ hno => exact absurd htarget hno
  · intro i ins hreach hins hfalls
    obtain ⟨f, hf⟩ := hclosed.covered hreach
    obtain ⟨g, -, hedges⟩ := hclosed.settled hf
    exact (hedges .next (i + 1) (.next hins hfalls)).1

/-- Divides by its argument until the quotient is `0`, and catches what the division throws. Behind
    the handler stands a loop that nothing leads to. -/
def divideRepeatedly : Method where
  owner := ⟨"LA;"⟩
  name := "divide"
  proto := { params := [⟨"I"⟩], ret := ⟨"V"⟩ }
  flags := .ofModifiers [.publicAccess, .static]
  locals := 1
  ins := 1
  body :=
    { code := [.withConstant .constInt [0] (.int 1000), .label ⟨0⟩,
        .plain (.binary (.arithmetic .int .div)) [0, 0, 1], .label ⟨1⟩,
        .withTarget (.ifZero .ne) [0] ⟨0⟩, .plain .returnVoid [], .label ⟨2⟩,
        .plain .moveException [0], .plain .returnVoid [], .label ⟨3⟩, .withTarget .goto [] ⟨3⟩]
      tries := [{ start := ⟨0⟩, stop := ⟨1⟩, handlers := [], catchAll := some ⟨2⟩ }]
      labelCount := 4 }

/-- The loop and the handler have frames. The end of the protected range is no branch target, and
    the loop at the end cannot be reached. -/
theorem divideRepeatedly_covers_reachable : ∃ v, divideRepeatedly.verify .core {} = .ok v ∧
    divideRepeatedly.body.normalize = .ok v.body ∧
      (∀ l, (v.state? l).isSome = true ↔
        ∃ i, v.body.Marks i l ∧ v.body.IsTarget i ∧ v.body.Reachable i) ∧
      ∀ i ins, v.body.Reachable i → v.body.code[i]? = some ins → ins.fallsThrough = true →
        i + 1 < v.body.code.length := by
  have hok : (divideRepeatedly.verify .core {}).isOk = true := by decide +kernel
  cases h : divideRepeatedly.verify .core {} with
  | error e => simp [h, Except.isOk, Except.toBool] at hok
  | ok v => exact ⟨v, rfl, Method.verify_covers_reachable h⟩

end BytecodeVerifier
