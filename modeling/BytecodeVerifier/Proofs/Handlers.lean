import BytecodeVerifier.Proofs.Verified

/-!
# Handlers that take their exception

A handler that takes its exception is entered by exceptions only. In a verified method
`move-exception` stands right behind the label of a handler, and no branch, switch or fall-through
that can be reached leads to that label (`Method.verify_moveException_entered`).

The entry of the method is the one exception. Execution enters a method at its first label, and no
check looks at whether a handler starts there: `retry []` is accepted although it takes an exception
before anything can have thrown one.
-/

namespace BytecodeVerifier

variable {p : ClassPool} {config : Config} {m : Method} {v : VerifiedMethod}

/-- An exception is taken right behind the label of a handler. -/
private theorem Environment.ensures_moveException (env : Environment) (pc dst : Nat) (f : Frame) :
    (env.moveException pc dst f).Ensures fun _ =>
      ∃ j site, pc = j + 1 ∧ env.layout.site j = .ok site ∧ site.isHandler = true := by
  unfold moveException
  split
  · exact ReportT.ensures_reject _
  · rename_i j
    refine .bind fun site hsite => ReportT.ensures_guard.2 fun hhandler => fun _ _ => ?_
    exact ⟨j, site, rfl, ReportT.yields_ofFault.1 hsite, by simpa using hhandler⟩

private theorem Operation.eq_moveException {o : Operation} (h : o.opcode = .moveException) :
    ∃ dst, o = .moveException dst := by
  unfold opcode at h
  split at h <;> cases h
  exact ⟨_, rfl⟩

/-- In a verified method, an exception that can be taken is taken right behind the label of a
    handler, and only exceptions lead to that label. It is not the entry of the method, unless some
    range has its handler there. -/
theorem Method.verify_moveException_entered (h : m.verify p config = .ok v) :
    m.body.normalize = .ok v.body ∧ ∀ i ins, v.body.Reachable i → v.body.code[i]? = some ins →
      ins.opcode? = some .moveException → ∃ j, i = j + 1 ∧ v.body.IsHandler j ∧
        (∀ i' k, v.body.Reachable i' → v.body.Edge i' k j → k = .exception) ∧
        ((∀ r ∈ v.body.tries, ⟨0⟩ ∉ r.catches.map Prod.fst) → j ≠ 0) := by
  obtain ⟨task, entry, hv⟩ := verified_of_verify h
  have hclosed := hv.closed task.domain_true trivial
  refine ⟨hv.normal, fun i ins hreach hins hop => ?_⟩
  obtain ⟨o, ho, hopcode⟩ := hv.models.exists_operation hins hop
  obtain ⟨dst, rfl⟩ := Operation.eq_moveException hopcode
  -- the instruction has been accepted in the frame before it
  obtain ⟨f, hf⟩ := hclosed.covered hreach
  obtain ⟨g, hg, -⟩ := hclosed.settled hf
  simp only [Task.after, ho] at hg
  obtain ⟨j, site, rfl, hsite, hstarts⟩ := task.env.ensures_moveException i dst f.clearResult g
    (ReportT.yields_of_outcome hg)
  have hhandler : v.body.IsHandler j := (hv.models.layout.site hsite).2.2.1 hstarts
  refine ⟨j, rfl, hhandler, fun i' k hreach' hedge => by_contra fun hk => ?_, ?_⟩
  · obtain ⟨f', hf'⟩ := hclosed.covered hreach'
    obtain ⟨g', -, hedges⟩ := hclosed.settled hf'
    have henterable := (hedges k j hedge).admitted hk hhandler.isTarget
    exact nomatch henterable hhandler _ ((hv.models.operation _).symm.trans ho)
  · rintro hnone rfl
    obtain ⟨l, hl, r, hr, hcatches⟩ := hhandler
    cases hl.symm.trans hv.models.labeled.entry
    exact hnone r hr hcatches

/-- Takes an exception, loads a string and returns; what loading the string throws is taken by the
    same handler. `lead` stands in front of all that. -/
def retry (lead : List Instruction) : Method where
  owner := ⟨"LA;"⟩
  name := "retry"
  proto := { params := [], ret := ⟨"V"⟩ }
  flags := .ofModifiers [.publicAccess, .static]
  locals := 1
  ins := 0
  body :=
    { code := lead ++ [.label ⟨0⟩, .plain .moveException [0], .label ⟨1⟩,
        .withConstant .constString [0] (.string "x"), .label ⟨2⟩, .plain .returnVoid []]
      tries := [{ start := ⟨1⟩, stop := ⟨2⟩, handlers := [], catchAll := some ⟨0⟩ }]
      labelCount := 3 }

/-- A method that jumps over its handler first enters it by exceptions only. -/
theorem retry_moveException_entered : ∃ v,
    (retry [.withTarget .goto [] ⟨1⟩]).verify .core {} = .ok v ∧
    (retry [.withTarget .goto [] ⟨1⟩]).body.normalize = .ok v.body ∧
    ∀ i ins, v.body.Reachable i → v.body.code[i]? = some ins →
      ins.opcode? = some .moveException → ∃ j, i = j + 1 ∧ v.body.IsHandler j ∧
        (∀ i' k, v.body.Reachable i' → v.body.Edge i' k j → k = .exception) ∧
        ((∀ r ∈ v.body.tries, ⟨0⟩ ∉ r.catches.map Prod.fst) → j ≠ 0) := by
  obtain ⟨v, h⟩ := exists_eq_ok (x := (retry [.withTarget .goto [] ⟨1⟩]).verify .core {})
    (by decide +kernel)
  exact ⟨v, h, Method.verify_moveException_entered h⟩

/-- A method that starts with its handler takes an exception where it is entered. -/
theorem retry_takes_at_entry : ∃ v, (retry []).verify .core {} = .ok v ∧
    ¬∀ i ins, v.body.Reachable i → v.body.code[i]? = some ins →
      ins.opcode? = some .moveException → ∃ j, i = j + 1 ∧ v.body.IsHandler j ∧
        (∀ i' k, v.body.Reachable i' → v.body.Edge i' k j → k = .exception) ∧ j ≠ 0 := by
  obtain ⟨v, h⟩ := exists_eq_ok (x := (retry []).verify .core {}) (by decide +kernel)
  refine ⟨v, h, fun hall => ?_⟩
  -- the normal form has the code as it stands
  have hbody : v.body = (retry []).body := by
    obtain ⟨task, entry, hv⟩ := Method.verified_of_verify h
    have hnormal : (retry []).body.normalize = .ok (retry []).body := by decide +kernel
    exact Except.ok.inj (hv.normal.symm.trans hnormal)
  rw [hbody] at hall
  have hlabel : (retry []).body.Marks 0 ⟨0⟩ := rfl
  have hreach : (retry []).body.Reachable 1 := .step .entry hlabel.edge_next
  obtain ⟨j, hj, -, -, hne⟩ := hall 1 (.plain .moveException [0]) hreach rfl rfl
  exact hne (Nat.succ.inj hj).symm

end BytecodeVerifier
