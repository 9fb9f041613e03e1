import BytecodeVerifier.Proofs.Verified

/-!
# Verification without warnings

A warning is raised when a position is visited, and a position may be visited many times before the
frame in front of it is what it is in the end. Every warning that an operation raises in that last
frame is among those of the verification (`Method.flagged_of_verify`), since the position is visited
again whenever the frame changes, and no warning is taken back. So if there is no warning at all,
every operation passes its checks even where no warning is allowed (`Method.passes_of_verify`). Such
a check is taken apart step by step (`ReportT.Passes.bind`), and none of its steps warns.
-/

namespace BytecodeVerifier

namespace ReportT

variable {α β : Type} {r : Report α} {k : α → Report β} {a : α} {b : β}

/-- The check can come to an end with the value `a` where no warning is allowed. -/
def Passes (r : Report α) (a : α) : Prop := ∃ ws ws', r.runs false ws = (.ok a, ws')

theorem Passes.yields (h : r.Passes a) : r.Yields a := by
  obtain ⟨ws, ws', h⟩ := h
  exact ⟨false, ws, ws', h⟩

/-- A check that comes to an end without a warning does so where none is allowed. -/
theorem Raises.passes {P : Objection → Prop} (hr : r.Raises P) (h : r.outcome = (.ok a, [])) :
    r.Passes a :=
  ⟨[], [], hr.runs_eq_ok_iff.2 ⟨h, .inl rfl⟩⟩

theorem Passes.bind (h : (r >>= k).Passes b) : ∃ a, r.Passes a ∧ (k a).Passes b := by
  obtain ⟨ws, ws', h⟩ := h
  obtain ⟨a, ws₁, ha, hb⟩ := runs_bind_eq_ok.1 h
  exact ⟨a, ⟨ws, ws₁, ha⟩, ws₁, ws', hb⟩

theorem not_passes_flag {w : Warning} {u : Unit} : ¬(flag w : Report Unit).Passes u := by
  rintro ⟨ws, ws', h⟩
  cases h

/-- A guard that a check passes is not met. -/
theorem Passes.guard {c : Prop} [Decidable c] {v : Violation} {k : Unit → Report β} {r : Report β}
    (h : (if c then (reject v : Report Unit) >>= k else r).Passes b) : ¬c ∧ r.Passes b := by
  by_cases hc : c
  · rw [if_pos hc] at h
    obtain ⟨_, hreject, -⟩ := h.bind
    exact absurd hreject.yields not_yields_reject
  · rw [if_neg hc] at h
    exact ⟨hc, h⟩

end ReportT

namespace Task

open ReportT

variable {task : Task} {config : Config} {b : Body} {entry f before : Frame} {s s' : Progress}
  {i pc n : Nat} {o : Operation}

/-- The warnings that the operation at position `i` raises in frame `f` are among those of the
    progress. -/
private def Noted (task : Task) (s : Progress) (i : Nat) (f : Frame) : Prop :=
  ∀ o, task.operation? i = some o →
    ∀ w ∈ (task.frameAfter i o f).outcome.2, { warning := w, pc := i } ∈ s.flags

/-- No turn of the loop takes a warning back. -/
private theorem Noted.advance {c : Nat} (h : task.Noted s i f)
    (hadvance : task.advance config { s with cursor := c } pc = .ok s') : task.Noted s' i f := by
  obtain ⟨_, _, _, -, -, -, rfl⟩ := advance_eq_ok_iff.1 hadvance
  exact fun o ho w hw => mem_addFlags_iff.2 (.inl (h o ho w hw))

private theorem noted_of_advance {c : Nat}
    (hbefore : task.frameBefore { s with cursor := c } pc = .ok before)
    (hadvance : task.advance config { s with cursor := c } pc = .ok s') :
    task.Noted s' pc before := by
  obtain ⟨before', s₁, ws, hbefore', hvisit, -, rfl⟩ := advance_eq_ok_iff.1 hadvance
  cases hbefore.symm.trans hbefore'
  exact fun o ho w hw => mem_addFlags_iff.2 (.inr ⟨w, subset_of_visit ho hvisit hw, rfl⟩)

private theorem noted_of_solve (hm : task.Models b)
    (h : task.solve config n (.start task.env.layout.size entry) = .ok s)
    (hf : task.FrameAt b s.stored? i f) : task.Noted s i f :=
  frames_of_solve hm (fun hadvance hnoted => hnoted.advance hadvance) noted_of_advance h hf

end Task

namespace Method

variable {p : ClassPool} {config : Config} {m : Method} {v : VerifiedMethod} {task : Task}
  {entry f : Frame} {i : Nat} {o : Operation}

/-- Every warning that an operation raises in the frame before it is one of the verification. -/
theorem flagged_of_verify (h : m.verify p config = .ok v)
    (htask : m.task p config v.body = .ok task) (hf : task.FrameAt v.body v.frame? i f)
    (ho : task.operation? i = some o) {w : Warning}
    (hw : w ∈ (task.frameAfter i o f).outcome.2) : { warning := w, pc := i } ∈ v.flags := by
  obtain ⟨task', entry, final, hbody, htask', -, hfinal, hstates, hflags⟩ := verifyWithin_eq_ok h
  cases htask.symm.trans htask'
  have hlabeled := Body.labeled_of_normalize hbody
  obtain ⟨hm, -, -⟩ := models_of_task hlabeled htask
  obtain ⟨hsize, -⟩ := Task.closed_of_solve hm task.domain_true trivial hfinal
  rw [VerifiedMethod.frame?_eq_stored? hlabeled hsize hstates] at hf
  rw [hflags]
  exact Task.noted_of_solve hm hfinal hf o ho w hw

/-- In a method that is verified without a warning, every operation passes its checks where no
    warning is allowed. -/
theorem passes_of_verify (h : m.verify p config = .ok v) (hflags : v.flags = [])
    (hv : m.Verified p config v task entry) (hf : task.FrameAt v.body v.frame? i f)
    (ho : task.operation? i = some o) : ∃ g, (task.frameAfter i o f).Passes g := by
  have hclosed := hv.closed task.domain_true trivial
  obtain ⟨g, hg, -⟩ := hclosed.settled hf
  have hok : (task.frameAfter i o f).outcome.1 = .ok g := by
    simpa [Task.after, ho] using hg
  refine ⟨g, (task.env.raises_transfer i o (o.meets f)).passes (Prod.ext hok ?_)⟩
  refine List.eq_nil_iff_forall_not_mem.2 fun w hw => ?_
  simpa [hflags] using flagged_of_verify h hv.task_eq hf ho hw

end Method

end BytecodeVerifier
