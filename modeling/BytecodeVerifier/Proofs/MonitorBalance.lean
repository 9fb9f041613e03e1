import BytecodeVerifier.Proofs.Monitors
import Mathlib.Data.List.Perm.Subperm

/-!
# Balanced monitors

A verified method for which no warning about monitors has been raised is balanced
(`Method.verify_balances_monitors`): on no path have more monitors been left than taken, and where a
path returns, all of them have been left.

Each position is entered with one number of monitors, its depth, and what the worklist keeps true is
about depths (`Task.Depths`). They never change once they are known, since paths that meet at
different depths are warned of. A frame cannot count beyond `Frame.maxMonitors`, but a method with
no more instructions than that does not get there: every number below a depth is itself the depth of
an instruction that takes a monitor.
-/

namespace BytecodeVerifier

namespace Body

/-- The opcode at a position of a body. A label has none. -/
def opcode? (b : Body) (i : Nat) : Option Opcode := b.code[i]?.bind Instruction.opcode?

/-- How often the path has left an instruction with the opcode, other than by an exception. -/
def countLeft (b : Body) (op : Opcode) (steps : List (Nat × EdgeKind)) : Nat :=
  steps.countP fun step => step.2 ≠ .exception ∧ b.opcode? step.1 = some op

/-- The number of monitors held when position `i` has been left in the way `k`, given that before
    it. An exception leaves as many as there were. -/
def heldAfter (b : Body) (i : Nat) (k : EdgeKind) (n : Nat) : Nat :=
  if k = .exception then n else (b.opcode? i).elim n (·.heldAfter n)

variable {b b' : Body} {i j d n : Nat} {k : EdgeKind} {steps steps' : List (Nat × EdgeKind)}

/-- The first steps of a path are a path. -/
theorem Path.of_isPrefix (h : b.Path steps i) (hsteps : steps' <+: steps) :
    ∃ j, b.Path steps' j := by
  induction h with
  | entry =>
    obtain rfl := List.prefix_nil.1 hsteps
    exact ⟨0, .entry⟩
  | @step steps i j k hpath hedge ih =>
    rcases List.prefix_concat_iff.1 hsteps with rfl | hsteps
    · exact ⟨j, .step hpath hedge⟩
    · exact ih hsteps

/-! ## Counting instructions -/

/-- The instructions stand at the positions with an opcode. -/
private theorem opCount_eq_length (b : Body) : b.opCount =
    ((List.range b.code.length).filter fun i => (b.opcode? i).isSome).length := by
  have hcode : b.code.map some = (List.range b.code.length).map (b.code[·]?) := by
    apply List.ext_getElem?
    intro i
    by_cases hi : i < b.code.length
    · simp [hi]
    · simp [hi]
  have hopcode (ins : Instruction) : (!ins.isLabel) = ins.opcode?.isSome := by
    cases ins <;> rfl
  calc b.opCount
    _ = (b.code.map some).countP fun o => (o.bind Instruction.opcode?).isSome := by
      simp [opCount, List.countP_map, Function.comp_def, hopcode]
    _ = _ := by
      rw [hcode, List.countP_map, List.countP_eq_length_filter]
      rfl

/-- If a position has a depth, and each smaller number is the depth of some position, there are more
    instructions than the depth. -/
private theorem lt_opCount {depth : Nat → Option Nat} (hi : (b.opcode? i).isSome = true)
    (hd : depth i = some d)
    (hbelow : ∀ n < d, ∃ e, (b.opcode? e).isSome = true ∧ depth e = some n) : d < b.opCount := by
  have hall : ∀ n, n < d + 1 → ∃ e, (b.opcode? e).isSome = true ∧ depth e = some n := by
    intro n hn
    rcases Nat.lt_succ_iff_lt_or_eq.1 hn with hn | rfl
    · exact hbelow n hn
    · exact ⟨i, hi, hd⟩
  choose! e he using hall
  have hnodup : ((List.range (d + 1)).map e).Nodup := by
    refine List.Nodup.map_on (fun n hn n' hn' heq => ?_) List.nodup_range
    have hn := (he n (List.mem_range.1 hn)).2
    rw [heq, (he n' (List.mem_range.1 hn')).2] at hn
    exact (Option.some.inj hn).symm
  have hsubset : (List.range (d + 1)).map e ⊆
      (List.range b.code.length).filter fun i => (b.opcode? i).isSome := by
    intro x hx
    obtain ⟨n, hn, rfl⟩ := List.mem_map.1 hx
    have hopcode := (he n (List.mem_range.1 hn)).1
    refine List.mem_filter.2 ⟨List.mem_range.2 (Nat.lt_of_not_le fun hle => ?_), hopcode⟩
    simp [opcode?, List.getElem?_eq_none hle] at hopcode
  have hlength := (hnodup.subperm hsubset).length_le
  rw [← opCount_eq_length, List.length_map, List.length_range] at hlength
  exact hlength

private theorem countP_collapse (count : Nat) (atLabel : Bool) (code : List Instruction) :
    (Relabeling.collapse count atLabel code).code.countP (fun i => !i.isLabel) =
      code.countP fun i => !i.isLabel := by
  fun_induction Relabeling.collapse count atLabel code with
  | case1 => rfl
  | case2 count l rest r ih => simpa [Instruction.isLabel, Instruction.placed?] using ih
  | case3 count l rest r ih => simpa [Instruction.isLabel, Instruction.placed?] using ih
  | case4 count atLabel i rest _ _ r ih =>
    rw [List.countP_cons, List.countP_cons, ih]

/-- Normal form changes labels only. -/
theorem opCount_of_normalize (h : b.normalize = .ok b') : b'.opCount = b.opCount := by
  have hlabel (ins ins' : Instruction)
      (h : ins.retarget (Relabeling.ofCode b.code).rename = .ok ins') :
      (!ins'.isLabel) = !ins.isLabel := by
    cases hins : ins with
    | label l =>
      subst hins
      cases h
      rfl
    | _ =>
      cases hins' : ins' with
      | label l =>
        subst hins'
        cases hins.symm.trans (Instruction.retarget_eq_label.1 h)
      | _ => rfl
  calc b'.opCount
    _ = (Relabeling.ofCode b.code).code.countP fun i => !i.isLabel :=
      countP_of_mapM (code_of_normalize h) hlabel
    _ = b.opCount := by
      rw [opCount, ← countP_collapse 1 true b.code]
      rfl

end Body

/-! ## Depths -/

/-- The number of monitors held where execution arrives at a branch target, as far as known. -/
def Progress.heldAt? (s : Progress) (i : Nat) : Option Nat := (s.stored? i).bind Frame.monitors

namespace Task

variable {task : Task} {b : Body} {s s' : Progress} {pc i j d n : Nat} {k : EdgeKind}
  {before after : Frame} {depth : Nat → Option Nat}

/-- Each smaller number is the depth of an instruction that takes a monitor. -/
def Grounded (b : Body) (depth : Nat → Option Nat) (d : Nat) : Prop :=
  ∀ n < d, ∃ e, b.opcode? e = some .monitorEnter ∧ depth e = some n

/-- Position `i` can be passed at depth `d`, and all positions behind it have their depth. -/
structure Balanced (b : Body) (depth : Nat → Option Nat) (i d : Nat) : Prop where
  allows {op : Opcode} : b.opcode? i = some op → op.Allows d
  leads {k : EdgeKind} {j : Nat} : b.Edge i k j → depth j = some (b.heldAfter i k d)

/-- The depths of the positions that have been reached, as they are between visits. -/
structure Depths (b : Body) (s : Progress) (depth : Nat → Option Nat) : Prop where
  start : depth 0 = some 0
  held : Held s.points
  target {i : Nat} : b.IsTarget i → depth i = s.heldAt? i
  passed {i d : Nat} : ¬b.IsTarget (i + 1) → depth (i + 1) = some d →
    ∃ n, depth i = some n ∧ d = b.heldAfter i .next n
  work {i : Nat} : s.isQueued i = true → ¬b.IsTarget i →
    ∃ d, depth i = some d ∧ s.work.monitors = some d
  grounded {i d : Nat} : depth i = some d → Grounded b depth d
  settled {i d : Nat} : depth i = some d → s.isQueued i = true ∨ Balanced b depth i d

/-! ### One visit -/

/-- Frames that meet hold the same number of monitors, or else an unknown number. -/
private theorem domain_monitors (task : Task) : task.Domain (fun _ => True)
    (fun e x => e.monitors = none ∨ e.monitors = x.monitors) where
  clearResult _ := trivial
  after _ _ := trivial
  merge _ _ := trivial
  refl _ := .inr rfl
  right {f g} _ _ := by
    by_cases h : f.monitors = g.monitors
    · exact .inr (by simp [Frame.merge, h])
    · exact .inl (by simp [Frame.merge, h])
  left {f g x} _ _ _ hfx := by
    by_cases h : f.monitors = g.monitors
    · simpa [Frame.merge, h] using hfx
    · exact .inl (by simp [Frame.merge, h])

theorem Models.opcode?_eq (hm : task.Models b) (i : Nat) :
    b.opcode? i = (task.operation? i).map Operation.opcode := by
  unfold Body.opcode?
  rw [hm.operation]
  cases hins : b.code[i]? with
  | none => rfl
  | some ins =>
    rw [Option.bind_some, Option.bind_some]
    cases ho : Operation.ofInstruction? ins with
    | some o => exact (Operation.ofInstruction?_spec ho).1
    | none =>
      obtain ⟨l, rfl⟩ := hm.label hins ho
      rfl

private theorem monitorsAfter_eq {o : Operation}
    (h : o.opcode = .monitorEnter → n < Frame.maxMonitors) :
    o.monitorsAfter (some n) = some (o.opcode.heldAfter n) := by
  cases o with
  | monitorEnter object => simp [Operation.monitorsAfter, Operation.opcode, Opcode.heldAfter, h rfl]
  | field access form value object ref => cases object <;> rfl
  | _ => rfl

/-- The number of monitors that execution holds when it leaves a position, unless there are too many
    of them to count. -/
private theorem Models.carries_monitors (hm : task.Models b)
    (hafter : task.after i before = .ok after) (hn : before.monitors = some n)
    (hroom : b.opcode? i = some .monitorEnter → n < Frame.maxMonitors) (k : EdgeKind) :
    (k.carries before after).monitors = some (b.heldAfter i k n) := by
  have hopcode := hm.opcode?_eq i
  have hleft : after.monitors = some ((b.opcode? i).elim n (·.heldAfter n)) := by
    cases ho : task.operation? i with
    | none =>
      rw [Task.after, ho] at hafter
      cases hafter
      rw [hopcode, ho]
      exact hn
    | some o =>
      rw [ho] at hopcode
      rw [after_monitors ho hafter, hn, hopcode]
      refine monitorsAfter_eq fun henter => hroom ?_
      rw [hopcode, Option.map_some, henter]
  cases k with
  | exception => exact hn
  | next | branch => exact hleft

/-- What a visit of `pc` at depth `d` means for the depths of other positions, if it raises no
    warning about monitors. -/
private structure Descends (b : Body) (s : Progress) (pc d : Nat) (s' : Progress) : Prop where
  allows {op : Opcode} : b.opcode? pc = some op → op.Allows d
  held : Held s'.points
  kept {j n : Nat} : s.heldAt? j = some n → s'.heldAt? j = some n
  arrived {k : EdgeKind} {j : Nat} : b.Edge pc k j → b.IsTarget j →
    s'.heldAt? j = some (b.heldAfter pc k d)
  fresh {j n : Nat} : s'.heldAt? j = some n → s.heldAt? j = some n ∨
    (∃ k, b.Edge pc k j ∧ n = b.heldAfter pc k d) ∧ s'.isQueued j = true
  stays {j : Nat} : j ≠ pc → s.isQueued j = true → s'.isQueued j = true
  queued {j : Nat} : s'.isQueued j = true → j ≠ pc ∧ (s.isQueued j = true ∨ ∃ k, b.Edge pc k j)
  passes {j : Nat} : b.Edge pc .next j → ¬b.IsTarget j → s'.isQueued j = true
  work : s'.work.monitors = some (b.heldAfter pc .next d)

private theorem exists_of_heldAt? (h : s.heldAt? j = some n) :
    ∃ e, s.stored? j = some e ∧ e.monitors = some n :=
  Option.bind_eq_some_iff.1 h

private theorem heldAt?_isSome {e : Frame} (hheld : Held s.points) (h : s.stored? j = some e) :
    e.monitors.isSome = true := by
  obtain ⟨point, hpoint, he⟩ := Option.bind_eq_some_iff.1 h
  exact hheld j point e hpoint he

private theorem descends_of_visited (hm : task.Models b) (hsize : s.points.size = b.code.length)
    (hheld : Held s.points) (hv : task.Visited b s pc before after s') (hheld' : Held s'.points)
    (hallows : ∀ op, b.opcode? pc = some op → op.Allows d)
    (hcarries : ∀ k : EdgeKind, (k.carries before after).monitors = some (b.heldAfter pc k d)) :
    Descends b s pc d s' := by
  have hstep := stepAt_of_visited hm task.domain_monitors hsize (fun _ _ _ => trivial) trivial hv
  -- a frame that knows its number has the number of each frame that it takes in
  have hsame {j n : Nat} {e x : Frame} (he : s'.stored? j = some e) (hx : x.monitors = some n)
      (htakes : e.monitors = none ∨ e.monitors = x.monitors) : s'.heldAt? j = some n := by
    rcases htakes with hnone | heq
    · simpa [hnone] using heldAt?_isSome hheld' he
    · rw [Progress.heldAt?, he, Option.bind_some, heq, hx]
  have harrived {k : EdgeKind} {j : Nat} (hedge : b.Edge pc k j) (htarget : b.IsTarget j) :
      s'.heldAt? j = some (b.heldAfter pc k d) := by
    obtain ⟨e, he, htakes⟩ := (hstep j).arrived hedge htarget
    exact hsame he (hcarries k) htakes
  refine ⟨fun h => hallows _ h, hheld', ?_, harrived, ?_, fun hpc h => (hstep _).stays hpc h,
    fun h => (hstep _).queued h, fun h hno => (hstep _).passes h hno, ?_⟩
  · intro j n hn
    obtain ⟨e, he, hmonitors⟩ := exists_of_heldAt? hn
    obtain ⟨e', he', htakes⟩ := (hstep j).absorbed (x := e) trivial he (.inr rfl)
    exact hsame he' hmonitors htakes
  · intro j n hn
    obtain ⟨e', he', -⟩ := exists_of_heldAt? hn
    cases hold : s.stored? j with
    | some e =>
      obtain ⟨n', hn'⟩ := Option.isSome_iff_exists.1 (heldAt?_isSome hheld hold)
      obtain ⟨e'', he'', htakes⟩ := (hstep j).absorbed (x := e) trivial hold (.inr rfl)
      rw [hsame he'' hn' htakes] at hn
      rw [Progress.heldAt?, hold, Option.bind_some, hn', hn]
      exact .inl rfl
    | none =>
      obtain ⟨-, hsome | ⟨htarget, k, hedge⟩⟩ := (hstep j).stored he'
      · simp [hold] at hsome
      · rw [harrived hedge htarget] at hn
        refine .inr ⟨⟨k, hedge, (Option.some.inj hn).symm⟩, (hstep j).changed.resolve_left ?_⟩
        simp [he', hold]
  · rw [hv.work]
    exact hcarries .next

/-- The depths after the visit of `pc` at depth `d`. -/
private noncomputable def nextDepth (b : Body) (depth : Nat → Option Nat) (pc d : Nat)
    (s' : Progress) (j : Nat) : Option Nat :=
  open Classical in
  if b.IsTarget j then s'.heldAt? j
  else if b.Edge pc .next j then some (b.heldAfter pc .next d) else depth j

private theorem Depths.nextDepth_of_eq_some (hd : Depths b s depth) (hpc : depth pc = some d)
    (hv : Descends b s pc d s') (h : depth j = some n) : nextDepth b depth pc d s' j = some n := by
  unfold nextDepth
  split
  · rename_i htarget
    exact hv.kept (hd.target htarget ▸ h)
  · rename_i htarget
    split
    · rename_i hedge
      obtain rfl : j = pc + 1 := by cases hedge; rfl
      obtain ⟨d', hd', rfl⟩ := hd.passed htarget h
      rw [Option.some.inj (hpc.symm.trans hd')]
    · exact h

private theorem nextDepth_of_edge (hv : Descends b s pc d s') (hedge : b.Edge pc k j) :
    nextDepth b depth pc d s' j = some (b.heldAfter pc k d) := by
  unfold nextDepth
  split
  · exact hv.arrived hedge ‹_›
  · obtain ⟨rfl, rfl⟩ := hedge.eq_next_or_isTarget.resolve_right ‹_›
    rw [if_pos hedge]

/-- A depth that is known after a visit was known before it, or the visit has led there. -/
private theorem Depths.nextDepth_cases (hd : Depths b s depth) (hv : Descends b s pc d s')
    (h : nextDepth b depth pc d s' j = some n) : depth j = some n ∨
      (∃ k, b.Edge pc k j ∧ n = b.heldAfter pc k d) ∧ s'.isQueued j = true := by
  unfold nextDepth at h
  split at h
  · rename_i htarget
    rw [hd.target htarget]
    exact hv.fresh h
  · rename_i htarget
    split at h
    · rename_i hedge
      exact .inr ⟨⟨.next, hedge, (Option.some.inj h).symm⟩, hv.passes hedge htarget⟩
    · exact .inl h

/-- One more monitor is held only behind an instruction that takes one. -/
private theorem Grounded.heldAfter (h : Grounded b depth d) (hpc : depth pc = some d)
    (k : EdgeKind) : Grounded b depth (b.heldAfter pc k d) := by
  intro n hn
  by_cases hlt : n < d
  · exact h n hlt
  unfold Body.heldAfter at hn
  split at hn
  · exact absurd hn hlt
  cases hopcode : b.opcode? pc with
  | none =>
    rw [hopcode] at hn
    exact absurd hn hlt
  | some op =>
    rw [hopcode, Option.elim_some] at hn
    unfold Opcode.heldAfter at hn
    split at hn
    · obtain rfl : n = d := by omega
      exact ⟨pc, hopcode, hpc⟩
    · omega
    · exact absurd hn hlt

/-- What is known of the depths between visits is still known after the next one. -/
private theorem Depths.step (hd : Depths b s depth) (hpc : depth pc = some d)
    (hcursor : ∀ j, s.isQueued j = true → ¬b.IsTarget j → j = pc) (hv : Descends b s pc d s') :
    Depths b s' (nextDepth b depth pc d s') := by
  have hkept {j n : Nat} : depth j = some n → nextDepth b depth pc d s' j = some n :=
    hd.nextDepth_of_eq_some hpc hv
  have hgrounded {n : Nat} (h : Grounded b depth n) :
      Grounded b (nextDepth b depth pc d s') n := by
    intro n' hn'
    obtain ⟨e, henter, he⟩ := h n' hn'
    exact ⟨e, henter, hkept he⟩
  refine ⟨hkept hd.start, hv.held, fun htarget => if_pos htarget, ?_, ?_, ?_, ?_⟩
  · intro i n hno hn
    by_cases hedge : b.Edge pc .next (i + 1)
    · obtain rfl : i = pc := by
        generalize hj : i + 1 = j at hedge
        cases hedge
        omega
      rw [nextDepth_of_edge hv hedge] at hn
      exact ⟨d, hkept hpc, (Option.some.inj hn).symm⟩
    · rw [nextDepth, if_neg hno, if_neg hedge] at hn
      obtain ⟨n', hn', heq⟩ := hd.passed hno hn
      exact ⟨n', hkept hn', heq⟩
  · intro i hi hno
    obtain ⟨hne, hold | ⟨k, hedge⟩⟩ := hv.queued hi
    · exact absurd (hcursor i hold hno) hne
    · obtain ⟨rfl, rfl⟩ := hedge.eq_next_or_isTarget.resolve_right hno
      exact ⟨_, nextDepth_of_edge hv hedge, hv.work⟩
  · intro i n hn
    rcases hd.nextDepth_cases hv hn with hold | ⟨⟨k, -, rfl⟩, -⟩
    · exact hgrounded (hd.grounded hold)
    · exact (hgrounded (hd.grounded hpc)).heldAfter (hkept hpc) k
  · intro i n hn
    by_cases hi : i = pc
    · subst hi
      obtain rfl := Option.some.inj (hn.symm.trans (hkept hpc))
      exact .inr ⟨hv.allows, nextDepth_of_edge hv⟩
    rcases hd.nextDepth_cases hv hn with hold | ⟨-, hqueued⟩
    · refine (hd.settled hold).imp (hv.stays hi) fun h => ⟨h.allows, fun hedge => ?_⟩
      exact hkept (h.leads hedge)
    · exact .inl hqueued

/-! ### The run -/

/-- The warnings so far are not about monitors. -/
def Unlocked (s : Progress) : Prop := ∀ flag ∈ s.flags, flag.warning.kind ≠ .locking

variable {config : Config} {entry : Frame}

/-- The position that is visited next has a depth, and that is the number of monitors held before
    it. -/
private theorem Depths.frameBefore (hd : Depths b s depth) (hqueued : s.isQueued pc = true)
    (hbefore : b.IsTarget pc ∧ s.stored? pc = some before ∨ ¬b.IsTarget pc ∧ before = s.work) :
    ∃ d, depth pc = some d ∧ before.monitors = some d := by
  rcases hbefore with ⟨htarget, hstored⟩ | ⟨hno, rfl⟩
  · obtain ⟨d, hmonitors⟩ := Option.isSome_iff_exists.1 (heldAt?_isSome hd.held hstored)
    refine ⟨d, ?_, hmonitors⟩
    rw [hd.target htarget, Progress.heldAt?, hstored, Option.bind_some, hmonitors]
  · exact hd.work hqueued hno

/-- One turn of the loop, if it raises no warning about monitors. -/
private theorem Depths.advance (hm : task.Models b) (hroom : b.opCount ≤ Frame.maxMonitors)
    {W : Frame → Prop} {R : Frame → Frame → Prop} (hc : task.Consistent b W R entry s)
    (hd : Depths b s depth) {c : Nat} (hnext : s.next? = some (pc, c))
    (h : task.advance config { s with cursor := c } pc = .ok s') (hquiet : Unlocked s') :
    ∃ depth', Depths b s' depth' := by
  obtain ⟨before, s₁, ws, hframe, hvisit, -, rfl⟩ := advance_eq_ok_iff.1 h
  obtain ⟨hlt, hbefore⟩ := frameBefore_eq_ok hm hframe
  obtain ⟨hqueued, hfirst⟩ := next?_eq_some hnext
  obtain ⟨after, hv⟩ := visited_of_visit hm hlt (congrArg Prod.fst hvisit)
  obtain ⟨d, hpc, hmonitors⟩ := hd.frameBefore hqueued hbefore
  have hws : Quiet ws := fun w hw => hquiet _ (mem_addFlags_iff.2 (.inr ⟨w, hw, rfl⟩))
  obtain ⟨hallows, hheld⟩ := held_of_visit hvisit hws
  -- a monitor that is taken can be counted
  have hcount : b.opcode? pc = some .monitorEnter → d < Frame.maxMonitors := by
    intro henter
    refine Nat.lt_of_lt_of_le (Body.lt_opCount (by simp [henter]) hpc fun n hn => ?_) hroom
    obtain ⟨e, he, hdepth⟩ := hd.grounded hpc n hn
    exact ⟨e, by simp [he], hdepth⟩
  have hcarries := hm.carries_monitors hv.after_eq hmonitors hcount
  have hafter : after.monitors = some (b.heldAfter pc .next d) := hcarries .next
  have hvisited : task.Visited b s pc before after { s₁ with
      visits := s.visits + 1, flags := Progress.addFlags s.flags pc ws } :=
    ⟨hv.after_eq, hv.work, hv.falls, hv.size, hv.leave, hv.target, hv.admitted, hv.other⟩
  refine ⟨_, hd.step hpc (fun j hj hno => ?_)
    (descends_of_visited hm hc.size hd.held hvisited ?_ ?_ hcarries)⟩
  · obtain ⟨rfl, -⟩ := hc.cursor hj hno
    exact (hfirst hj).symm
  · exact hheld after hv.after_eq (by simp [hmonitors]) (by simp [hafter]) hd.held
  · intro op hop
    rw [hm.opcode?_eq] at hop
    obtain ⟨o, ho, rfl⟩ := Option.map_eq_some_iff.1 hop
    exact hallows o d ho hmonitors

private theorem depths_start (hm : task.Models b) (hentry : entry.monitors = some 0) :
    Depths b (.start task.env.layout.size entry) fun i => if i = 0 then some 0 else none := by
  have hfirst : b.IsTarget 0 := .inl rfl
  have hlt := hfirst.lt hm.labeled
  rw [← hm.layout.size] at hlt
  obtain ⟨hstored, hqueued⟩ := start_spec _ hlt entry
  have hheld : ∀ i, (Progress.start task.env.layout.size entry).heldAt? i =
      if i = 0 then some 0 else none := by
    intro i
    rw [Progress.heldAt?, hstored]
    split <;> simp [hentry]
  refine ⟨rfl, ?_, fun _ => (hheld _).symm, by simp, ?_, ?_, ?_⟩
  · intro i point f hpoint hf
    have hsome : (Progress.start task.env.layout.size entry).stored? i = some f := by
      rw [Progress.stored?, hpoint]
      exact hf
    rw [hstored, Option.ite_none_right_eq_some] at hsome
    obtain ⟨-, hsome⟩ := hsome
    cases hsome
    simp [hentry]
  · intro i hi hno
    obtain rfl : i = 0 := by simpa [hqueued] using hi
    exact absurd hfirst hno
  · intro i d hd n hn
    obtain ⟨-, rfl⟩ : i = 0 ∧ 0 = d := by simpa using hd
    exact absurd hn (Nat.not_lt_zero n)
  · intro i d hd
    obtain ⟨rfl, -⟩ : i = 0 ∧ 0 = d := by simpa using hd
    exact .inl (by simp [hqueued])

/-- What holds between visits: the depths are known, unless there was a warning about monitors. -/
private def Sounded (task : Task) (b : Body) (entry : Frame) (s : Progress) : Prop :=
  task.Consistent b (fun _ => True) (fun _ _ => True) entry s ∧
    (Unlocked s → ∃ depth, Depths b s depth)

private theorem Sounded.advance (hm : task.Models b) (hroom : b.opCount ≤ Frame.maxMonitors)
    (hs : Sounded task b entry s) {c : Nat} (hnext : s.next? = some (pc, c))
    (h : task.advance config { s with cursor := c } pc = .ok s') : Sounded task b entry s' := by
  obtain ⟨hc, hdepths⟩ := hs
  refine ⟨hc.advance hm task.domain_true trivial hnext h, fun hquiet => ?_⟩
  -- warnings are never taken back
  have hbefore : Unlocked s := by
    obtain ⟨_, _, _, _, _, _, rfl⟩ := advance_eq_ok_iff.1 h
    exact fun flag hflag => hquiet flag (mem_addFlags_iff.2 (.inl hflag))
  obtain ⟨depth, hd⟩ := hdepths hbefore
  exact hd.advance hm hroom hc hnext h hquiet

/-- When the worklist has come to an end without a warning about monitors, every position that can
    be reached has a depth at which it is balanced. -/
theorem balanced_of_solve (hm : task.Models b) (hroom : b.opCount ≤ Frame.maxMonitors)
    (hentry : entry.monitors = some 0)
    (h : task.solve config n (.start task.env.layout.size entry) = .ok s) (hquiet : Unlocked s) :
    ∃ depth : Nat → Option Nat, depth 0 = some 0 ∧
      ∀ i d, depth i = some d → Balanced b depth i d := by
  obtain ⟨⟨-, hdepths⟩, hnone⟩ := solve_invariant (P := Sounded task b entry)
    (fun _ _ _ _ hs hnext hadvance => hs.advance hm hroom hnext hadvance)
    ⟨consistent_start hm task.domain_true trivial, fun _ => ⟨_, depths_start hm hentry⟩⟩ h
  obtain ⟨depth, hd⟩ := hdepths hquiet
  refine ⟨depth, hd.start, fun i d hi => (hd.settled hi).resolve_left ?_⟩
  simp [next?_eq_none hnone i]

end Task

/-! ## Paths -/

namespace Body

variable {b : Body} {op : Opcode} {steps : List (Nat × EdgeKind)} {i : Nat} {k : EdgeKind}
  {depth : Nat → Option Nat}

theorem countLeft_append : b.countLeft op (steps ++ [(i, k)]) = b.countLeft op steps +
    if k ≠ .exception ∧ b.opcode? i = some op then 1 else 0 := by
  simp [countLeft, List.countP_append, List.countP_singleton]

/-- The depth of a position is the number of monitors that a path has taken and not left. -/
private theorem Path.countLeft_eq (h : b.Path steps i) (hstart : depth 0 = some 0)
    (hbalanced : ∀ i d, depth i = some d → Task.Balanced b depth i d) :
    ∃ d, depth i = some d ∧
      b.countLeft .monitorEnter steps = b.countLeft .monitorExit steps + d := by
  induction h with
  | entry => exact ⟨0, hstart, rfl⟩
  | @step steps i j k _ hedge ih =>
    obtain ⟨d, hd, hcount⟩ := ih
    have hleave := hbalanced i d hd
    refine ⟨_, hleave.leads hedge, ?_⟩
    rw [countLeft_append, countLeft_append, hcount, heldAfter]
    by_cases hk : k = .exception
    · simp [hk]
    cases hopcode : b.opcode? i with
    | none => simp [hk]
    | some op =>
      have hallows := hleave.allows hopcode
      cases op with
      | monitorEnter => simp [hk, Opcode.heldAfter]; omega
      | monitorExit =>
        have hpos : 0 < d := hallows
        simp [hk, Opcode.heldAfter]
        omega
      | _ => simp [Opcode.heldAfter]

end Body

variable {p : ClassPool} {config : Config} {m : Method} {v : VerifiedMethod}

/-- In a verified method without warnings about monitors, a path never leaves more monitors than it
    has taken, and where it returns it has left all of them. -/
theorem Method.verify_balances_monitors (hsize : m.body.opCount < 0x100000000)
    (h : m.verify p config = .ok v) (hflags : ∀ flag ∈ v.flags, flag.warning.kind ≠ .locking) :
    m.body.normalize = .ok v.body ∧ ∀ steps i, v.body.Path steps i →
      (∀ before, before <+: steps →
        v.body.countLeft .monitorExit before ≤ v.body.countLeft .monitorEnter before) ∧
      ∀ op, v.body.opcode? i = some op → op.isReturn = true →
        v.body.countLeft .monitorExit steps = v.body.countLeft .monitorEnter steps := by
  obtain ⟨task, entry, final, hbody, htask, hentry, hfinal, -, hfinalFlags⟩ := verifyWithin_eq_ok h
  obtain ⟨hm, -, -⟩ := models_of_task (Body.labeled_of_normalize hbody) htask
  have hroom : v.body.opCount ≤ Frame.maxMonitors := by
    rw [Body.opCount_of_normalize hbody]
    exact Nat.le_of_lt_succ hsize
  obtain ⟨depth, hstart, hbalanced⟩ := Task.balanced_of_solve hm hroom
    (entryFrame_books hentry).2 hfinal (by rwa [Task.Unlocked, ← hfinalFlags])
  refine ⟨hbody, fun steps i hpath => ⟨fun before hbefore => ?_, fun op hop hreturn => ?_⟩⟩
  · obtain ⟨j, hpath⟩ := hpath.of_isPrefix hbefore
    obtain ⟨d, -, hcount⟩ := hpath.countLeft_eq hstart hbalanced
    omega
  · obtain ⟨d, hd, hcount⟩ := hpath.countLeft_eq hstart hbalanced
    have hallows := (hbalanced i d hd).allows hop
    have hzero : d = 0 := by
      cases op with
      | returnVoid | returnValue => exact hallows
      | _ => simp [Opcode.isReturn] at hreturn
    rw [hcount, hzero, Nat.add_zero]

/-- Loads a string while it holds the monitor of its argument, and gives the monitor back if that
    throws. -/
def loadLocked : Method where
  owner := ⟨"LA;"⟩
  name := "load"
  proto := { params := [.object], ret := ⟨"V"⟩ }
  flags := .ofModifiers [.publicAccess, .static]
  locals := 1
  ins := 1
  body :=
    { code := [.label ⟨0⟩, .plain .monitorEnter [1], .label ⟨1⟩,
        .withConstant .constString [0] (.string "x"), .label ⟨2⟩, .plain .monitorExit [1],
        .plain .returnVoid [], .label ⟨3⟩, .plain .moveException [0], .plain .monitorExit [1],
        .plain .throwException [0]]
      tries := [{ start := ⟨1⟩, stop := ⟨2⟩, handlers := [], catchAll := some ⟨3⟩ }]
      labelCount := 4 }

/-- The monitor is given back on both ways out. -/
theorem loadLocked_balances_monitors : loadLocked.body.opCount < 0x100000000 ∧
    ∃ v, loadLocked.verify .core {} = .ok v ∧
      (∀ flag ∈ v.flags, flag.warning.kind ≠ .locking) ∧
      loadLocked.body.normalize = .ok v.body ∧ ∀ steps i, v.body.Path steps i →
        (∀ before, before <+: steps →
          v.body.countLeft .monitorExit before ≤ v.body.countLeft .monitorEnter before) ∧
        ∀ op, v.body.opcode? i = some op → op.isReturn = true →
          v.body.countLeft .monitorExit steps = v.body.countLeft .monitorEnter steps := by
  have hsize : loadLocked.body.opCount < 0x100000000 := by decide
  obtain ⟨v, h⟩ := exists_eq_ok (x := loadLocked.verify .core {}) (by decide +kernel)
  have hflags : (loadLocked.verify .core {}).map VerifiedMethod.flags = .ok [] := by decide +kernel
  rw [h] at hflags
  have hquiet : ∀ flag ∈ v.flags, flag.warning.kind ≠ .locking := by
    simp [show v.flags = [] from Except.ok.inj hflags]
  exact ⟨hsize, v, h, hquiet, Method.verify_balances_monitors hsize h hquiet⟩

end BytecodeVerifier
