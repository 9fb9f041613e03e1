import BytecodeVerifier.Proofs.FrameMerge

/-!
# Registers of a frame

The locals and the parameters of a frame are one row of registers (`Frame.get?_eq_getElem?`). The
lemmas here say what a register holds after a write (`get?_put`), after a change of all registers at
once (`get?_mapRegisters`) and after a merge (`get?_merge_eq_some_iff`).
-/

namespace BytecodeVerifier

namespace Frame

variable {p : ClassPool} {f g : Frame} {reg r : Nat} {t : RegType}

theorem get?_eq_getElem? (f : Frame) (reg : Nat) : f.get? reg = f.registers[reg]? := by
  unfold get? registers
  rw [List.getElem?_append]

theorem length_registers (f : Frame) : f.registers.length = f.size := by
  simp [registers, size]

/-- A frame has the registers below its size. -/
theorem lt_size_of_get? (h : f.get? reg = some t) : reg < f.size := by
  rw [get?_eq_getElem?] at h
  rw [← length_registers]
  exact (List.getElem?_eq_some_iff.1 h).1

theorem exists_get?_of_lt_size (h : reg < f.size) : ∃ t, f.get? reg = some t := by
  rw [← length_registers] at h
  exact ⟨_, (get?_eq_getElem? f reg).trans (List.getElem?_eq_getElem h)⟩

theorem size_eq_of_shape (h : f.shape = g.shape) : f.size = g.size := by
  obtain ⟨hlocals, hparams⟩ := Prod.mk.inj h
  rw [size, size, hlocals, hparams]

/-- What holds of every register and of the value left behind holds of all types. -/
theorem all_of_get? {Q : RegType → Prop} (hregs : ∀ reg t, f.get? reg = some t → Q t)
    (hlow : Q f.result.1) (hhigh : Q f.result.2) : f.All Q := by
  intro t ht
  simp only [types, List.mem_append, List.mem_cons, List.not_mem_nil, or_false] at ht
  rcases ht with ht | rfl | rfl
  · obtain ⟨reg, hreg⟩ := List.mem_iff_getElem?.1 ht
    exact hregs reg t ((get?_eq_getElem? f reg).trans hreg)
  · exact hlow
  · exact hhigh

/-! ## Writes -/

private theorem registers_put (f : Frame) (reg : Nat) (t : RegType) :
    (f.put reg t).registers = f.registers.set reg t := by
  unfold put registers
  rw [List.set_append]
  split <;> rfl

/-- A write changes the register that is written, if the frame has it, and no other. -/
theorem get?_put : (f.put reg t).get? r =
    if r = reg then (f.get? reg).map fun _ => t else f.get? r := by
  rw [get?_eq_getElem?, get?_eq_getElem?, get?_eq_getElem?, registers_put]
  by_cases h : r = reg
  · subst h
    rw [List.getElem?_set_self', if_pos rfl]
    rfl
  · rw [List.getElem?_set_ne (Ne.symm h), if_neg h]

@[simp] theorem shape_put (f : Frame) (reg : Nat) (t : RegType) :
    (f.put reg t).shape = f.shape := by
  unfold put
  split <;> simp [shape]

theorem get?_mapRegisters (f : Frame) (h : RegType → RegType) (reg : Nat) :
    (f.mapRegisters h).get? reg = (f.get? reg).map h := by
  rw [get?_eq_getElem?, get?_eq_getElem?]
  have hregs : (f.mapRegisters h).registers = f.registers.map h := by
    simp [registers, mapRegisters]
  rw [hregs, List.getElem?_map]

theorem get?_blank {locals params : Nat} (h : (blank locals params).get? reg = some t) :
    t = .undefined := by
  have hregs : (blank locals params).registers = List.replicate (locals + params) .undefined := by
    simp [registers, blank]
  rw [get?_eq_getElem?, hregs] at h
  exact List.eq_of_mem_replicate (List.mem_of_getElem? h)

/-! ## Merges -/

private theorem mergeRow_eq_zipWith (p : ClassPool) (as bs : List RegType)
    (h : as.length = bs.length) : mergeRow p as bs = List.zipWith (RegType.merge p) as bs := by
  fun_induction mergeRow p as bs with
  | case1 => rfl
  | case2 row hne => cases row <;> simp_all
  | case3 a as b bs ih =>
    have hlength : as.length = bs.length := by simpa using h
    rw [List.zipWith_cons_cons, ih hlength]

/-- In frames of the same shape registers are merged one by one. -/
theorem get?_merge_eq_some_iff (h : f.shape = g.shape) : (f.merge p g).get? reg = some t ↔
    ∃ a b, f.get? reg = some a ∧ g.get? reg = some b ∧ t = a.merge p b := by
  obtain ⟨hlocals, hparams⟩ := Prod.mk.inj h
  have hregs : (f.merge p g).registers =
      List.zipWith (RegType.merge p) f.registers g.registers := by
    unfold registers
    rw [List.zipWith_append hlocals]
    simp only [merge, mergeRow_eq_zipWith p _ _ hlocals, mergeRow_eq_zipWith p _ _ hparams]
  rw [get?_eq_getElem?, get?_eq_getElem?, get?_eq_getElem?, hregs, List.getElem?_zipWith_eq_some]
  simp only [eq_comm]

end Frame

end BytecodeVerifier
