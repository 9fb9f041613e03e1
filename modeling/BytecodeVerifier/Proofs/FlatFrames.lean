import BytecodeVerifier.Proofs.HandleFrames
import BytecodeVerifier.Proofs.Yields
import BytecodeVerifier.TypeTable.InPlace

/-!
# Flat frames

The registers of a frame are kept in two rows, and an access changes them one by one. Seen from
outside a frame is one row (`FlatFrame`), and an access to it is done as a whole or not at all
(`FrameAccess.run_flat`): a refused access leaves the frame as it was, and one that is not refused
does what it does on the flat frame, within its bounds.

Work in place is compared with the access of the same name that gives a new frame
(`InPlace.Commits`), and that one with the access to the flat frame.
-/

namespace BytecodeVerifier

open TypeTable (Reachable)

variable {α β : Type} {t : TypeTable} {F G : HandleFrame} {reg : Nat} {h lo hi : Handle}

/-- A frame with its registers in one row. -/
structure FlatFrame where
  registers : List Handle
  result : Handle × Handle
  thisInitialized : Bool
  monitors : Option Nat
  deriving DecidableEq

/-- The locals and after them the parameters. -/
def HandleFrame.flat (F : HandleFrame) : FlatFrame :=
  { F with registers := F.locals ++ F.params }

/-- The value left behind can be fetched in this form. -/
def ValueForm.fits : ValueForm → RegType → RegType → Bool
  | .single, lo, _ => lo.isSingle
  | .object, lo, _ => lo.isReference
  | .wide, lo, hi => lo.pairsWith hi

namespace FlatFrame

variable (t : TypeTable) (f : FlatFrame)

/-- The number of registers. -/
def size : Nat := f.registers.length

/-- The handle in a register. -/
def read (reg : Nat) : Except FrameError Handle :=
  f.registers[reg]?.elim (.error (.outOfRange reg f.size)) .ok

/-- The register after this one. -/
def next (reg : Nat) : Except FrameError Nat :=
  if reg < Frame.maxRegister then .ok (reg + 1) else .error (.outOfRange reg f.size)

/-- Writes a value that takes one register. -/
def writeSingle (reg : Nat) (h : Handle) : Except FrameError FlatFrame :=
  let x := t.type h.index
  if x.isLowHalf || x.isHighHalf then .error (.halfWrite reg)
  else if reg < f.size then .ok { f with registers := f.registers.set reg h }
  else .error (.outOfRange reg f.size)

/-- Writes a wide value to a register and the one after it. -/
def writePair (reg : Nat) (lo hi : Handle) : Except FrameError FlatFrame :=
  if !(t.type lo.index).pairsWith (t.type hi.index) then .error (.badPair reg)
  else do
    let next ← f.next reg
    if next < f.size then .ok { f with registers := (f.registers.set reg lo).set next hi }
    else .error (.outOfRange next f.size)

/-- Writes a value, given by its low half if it is wide. -/
def write (reg : Nat) (h : Handle) : Except FrameError FlatFrame :=
  (t.type h.index).highHalf?.elim (f.writeSingle t reg h) fun x => f.writePair t reg h (.fixed x)

/-- The register holds a value usable as `expected`. -/
def holds (p : ClassPool) (reg : Nat) (expected : Handle) : Except FrameError Bool := do
  let h ← f.read reg
  return (t.type expected.index).isAssignable p (t.type h.index)

/-- The register and the one after it hold a wide value whose low half is usable as `expected`. -/
def holdsPair (p : ClassPool) (reg : Nat) (expected : Handle) : Except FrameError Bool := do
  let lo ← f.read reg
  let hi ← f.read (← f.next reg)
  return (t.type expected.index).isAssignable p (t.type lo.index) &&
    (t.type lo.index).pairsWith (t.type hi.index)

/-- Writes the value left behind, in the form asked for. -/
def writeResult (dst : Nat) (form : ValueForm) : Except FrameError FlatFrame :=
  let (lo, hi) := f.result
  if !form.fits (t.type lo.index) (t.type hi.index) then .error (.resultMismatch form)
  else if form = .wide then f.writePair t dst lo hi
  else f.writeSingle t dst lo

/-- Moves the value left behind into a register. -/
def takeResult (dst : Nat) (form : ValueForm) : Except FrameError FlatFrame :=
  if (t.type f.result.1.index).isUndefined then .error .noResult
  else do
    let g ← f.writeResult t dst form
    return { g with result := HandleFrame.noResult }

/-- What an access answers, and the frame afterwards. -/
def access (p : ClassPool) : FrameAccess → Except FrameError (FrameAnswer × FlatFrame)
  | .read reg => return (.handle (← f.read reg), f)
  | .writeSingle reg h => return (.done, ← f.writeSingle t reg h)
  | .writePair reg lo hi => return (.done, ← f.writePair t reg lo hi)
  | .write reg h => return (.done, ← f.write t reg h)
  | .holds reg expected => return (.truth (← f.holds t p reg expected), f)
  | .holdsPair reg expected => return (.truth (← f.holdsPair t p reg expected), f)
  | .takeResult dst form => return (.handle f.result.1, ← f.takeResult t dst form)

end FlatFrame

/-- The positions that an access touches. -/
def FrameAccess.positions (t : TypeTable) : FrameAccess → List Nat
  | .read reg | .writeSingle reg _ | .holds reg _ => [reg]
  | .writePair reg _ _ | .holdsPair reg _ => [reg, reg + 1]
  | .write reg h => if (t.type h.index).isLowHalf then [reg, reg + 1] else [reg]
  | .takeResult dst form => if form = .wide then [dst, dst + 1] else [dst]

/-! ## Registers in one row -/

namespace HandleFrame

/-- What comes after an access takes its table, unless the access is refused. -/
theorem access_bind_run (x : Access α) (k : α → Access β) (t : TypeTable) :
    (x >>= k).run t = ExceptT.bindCont k (x.run t).1 (x.run t).2 :=
  rfl

theorem size_flat (F : HandleFrame) : F.flat.size = F.size := by
  simp [flat, FlatFrame.size, size]

theorem result_flat (F : HandleFrame) : F.flat.result = F.result := rfl

theorem get?_eq_getElem? (F : HandleFrame) (reg : Nat) : F.get? reg = F.flat.registers[reg]? := by
  unfold get? flat
  split
  · rw [List.getElem?_append_left ‹_›]
  · rw [List.getElem?_append_right (Nat.le_of_not_lt ‹_›)]

theorem flat_put (F : HandleFrame) (reg : Nat) (h : Handle) :
    (F.put reg h).flat = { F.flat with registers := F.flat.registers.set reg h } := by
  unfold put flat
  split
  · simp [List.set_append_left, *]
  · simp [List.set_append_right, Nat.le_of_not_lt, *]

@[simp] theorem length_locals_put (F : HandleFrame) (reg : Nat) (h : Handle) :
    (F.put reg h).locals.length = F.locals.length := by
  unfold put
  split <;> simp

@[simp] theorem size_put (F : HandleFrame) (reg : Nat) (h : Handle) :
    (F.put reg h).size = F.size := by
  rw [← size_flat, ← size_flat, flat_put]
  simp [FlatFrame.size]

theorem get?_put_of_ne {i : Nat} (hne : i ≠ reg) : (F.put reg h).get? i = F.get? i := by
  rw [get?_eq_getElem?, get?_eq_getElem?, flat_put, List.getElem?_set_ne (Ne.symm hne)]

theorem read_of_lt (hreg : reg < F.size) : ∃ h, F.get? reg = some h ∧ F.read reg = pure h := by
  rw [← size_flat] at hreg
  have hget : F.get? reg = some _ :=
    (get?_eq_getElem? F reg).trans (List.getElem?_eq_getElem hreg)
  exact ⟨_, hget, by rw [read, hget]⟩

theorem read_of_not_lt (hreg : ¬reg < F.size) :
    F.get? reg = none ∧ F.read reg = throw (.outOfRange reg F.size) := by
  have hget : F.get? reg = none := by
    rw [get?_eq_getElem?]
    rw [← size_flat] at hreg
    exact List.getElem?_eq_none (Nat.le_of_not_lt hreg)
  exact ⟨hget, by rw [read, hget]⟩

end HandleFrame

/-! ## Work in place -/

namespace InPlace

open Lookup

/-- The answer and the frame after an access that gives a new frame. -/
def settle (F : HandleFrame) (a : α) :
    Except FrameError HandleFrame → Except FrameError α × HandleFrame
  | .ok G => (.ok a, G)
  | .error e => (.error e, F)

/-- The work turns the frame `F` into the one that the access gives, with the answer `a`. If the
    access is refused, so is the work, and the frame stays as it is. -/
def Commits (w : InPlace α) (F : HandleFrame) (x : HandleFrame.Access HandleFrame) (a : α) : Prop :=
  ∀ t, w.run.run F t = (settle F a (x.run t).1, (x.run t).2)

/-- The work answers what the access to `F` answers, and does not change the frame. -/
def Inspects (w : InPlace α) (F : HandleFrame) (x : HandleFrame.Access α) : Prop :=
  ∀ t, w.run.run F t = (((x.run t).1, F), (x.run t).2)

/-- What comes after some work takes its frame and its table, unless the work is refused. -/
theorem bind_run (w : InPlace α) (k : α → InPlace β) (F : HandleFrame) (t : TypeTable) :
    (w >>= k).run.run F t =
      (ExceptT.bindCont k (w.run.run F t).1.1).run (w.run.run F t).1.2 (w.run.run F t).2 :=
  rfl

theorem get_bind_run (k : HandleFrame → InPlace β) (F : HandleFrame) (t : TypeTable) :
    (get >>= k).run.run F t = (k F).run.run F t :=
  rfl

theorem inspects_lookup (x : Lookup α) : Inspects (liftM x) F (liftM x) := fun _ => rfl

theorem inspects_load (reg : Nat) : Inspects (load reg) F (F.read reg) := by
  intro t
  unfold load HandleFrame.read
  rw [get_bind_run]
  cases F.get? reg <;> rfl

theorem inspects_next (reg : Nat) : Inspects (next reg) F (F.next reg) := by
  intro t
  unfold next HandleFrame.next
  split <;> rfl

theorem Inspects.bind {w : InPlace α} {x : HandleFrame.Access α} {k : α → InPlace β}
    {l : α → HandleFrame.Access β} (hw : Inspects w F x) (hk : ∀ a, Inspects (k a) F (l a)) :
    Inspects (w >>= k) F (x >>= l) := by
  intro t
  rw [bind_run, hw t, HandleFrame.access_bind_run]
  cases (x.run t).1 with
  | error e => rfl
  | ok a => exact hk a _

theorem Inspects.bind_commits {w : InPlace α} {x : HandleFrame.Access α} {k : α → InPlace β}
    {l : α → HandleFrame.Access HandleFrame} {b : β} (hw : Inspects w F x)
    (hk : ∀ a, Commits (k a) F (l a) b) : Commits (w >>= k) F (x >>= l) b := by
  intro t
  rw [bind_run, hw t, HandleFrame.access_bind_run]
  cases (x.run t).1 with
  | error e => rfl
  | ok a => exact hk a _

theorem commits_throw (e : FrameError) (a : α) : Commits (throw e) F (throw e) a := fun _ => rfl

theorem Commits.map {w : InPlace α} {x : HandleFrame.Access HandleFrame} {a : α}
    (hw : Commits w F x a) (g : α → β) : Commits (w >>= fun b => pure (g b)) F x (g a) := by
  intro t
  rw [bind_run, hw t]
  cases (x.run t).1 <;> rfl

/-- A register that is there is overwritten. -/
theorem store_run (hreg : reg < F.size) (h : Handle) (t : TypeTable) :
    (store reg h).run.run F t = ((.ok (), F.put reg h), t) := by
  obtain ⟨a, -, hread⟩ := HandleFrame.read_of_lt hreg
  unfold store
  rw [bind_run, inspects_load reg t, hread]
  rfl

theorem commits_store (reg : Nat) (h : Handle) :
    Commits (store reg h) F (F.read reg >>= fun _ => pure (F.put reg h)) () :=
  (inspects_load reg).bind_commits fun _ _ => rfl

theorem commits_writeSingle (reg : Nat) (h : Handle) :
    Commits (writeSingle reg h) F (F.writeSingle reg h) () := by
  unfold writeSingle HandleFrame.writeSingle
  apply (inspects_lookup (type h)).bind_commits
  intro x
  split
  · exact commits_throw _ _
  · exact commits_store reg h

theorem commits_writePair (reg : Nat) (lo hi : Handle) :
    Commits (writePair reg lo hi) F (F.writePair reg lo hi) () := by
  unfold writePair HandleFrame.writePair
  apply (inspects_lookup (type lo)).bind_commits
  intro x
  apply (inspects_lookup (type hi)).bind_commits
  intro y
  split
  · exact commits_throw _ _
  unfold next HandleFrame.next
  split
  case isFalse => exact fun _ => rfl
  rw [pure_bind, pure_bind]
  by_cases hsecond : reg + 1 < F.size
  · -- both registers are there, so that neither write is refused
    obtain ⟨a, -, hread⟩ := HandleFrame.read_of_lt hsecond
    intro t
    rw [bind_run, inspects_load (reg + 1) t, hread]
    show (store reg lo >>= fun _ => store (reg + 1) hi).run.run F t = _
    rw [bind_run, store_run (Nat.lt_of_succ_lt hsecond)]
    exact store_run (by rwa [HandleFrame.size_put]) hi t
  · obtain ⟨-, hread⟩ := HandleFrame.read_of_not_lt hsecond
    intro t
    rw [bind_run, inspects_load (reg + 1) t, hread]
    rfl

theorem commits_write (reg : Nat) (h : Handle) :
    Commits (write reg h) F (F.write reg h) () := by
  unfold write HandleFrame.write
  apply (inspects_lookup (highHalf? h)).bind_commits
  intro hi
  cases hi with
  | none => exact commits_writeSingle reg h
  | some hi => exact commits_writePair reg h hi

theorem inspects_holds (p : ClassPool) (reg : Nat) (expected : Handle) :
    Inspects (holds p reg expected) F
      (F.read reg >>= fun h => liftM (isAssignable p expected h)) :=
  (inspects_load reg).bind fun h => inspects_lookup (isAssignable p expected h)

theorem inspects_holdsPair (p : ClassPool) (reg : Nat) (expected : Handle) :
    Inspects (holdsPair p reg expected) F (F.holdsPair p reg expected) := by
  unfold holdsPair HandleFrame.holdsPair
  apply (inspects_load reg).bind
  intro lo
  apply (inspects_next reg).bind
  intro next
  apply (inspects_load next).bind
  intro hi
  exact fun _ => rfl

theorem commits_writeResult (dst : Nat) (form : ValueForm) :
    Commits (writeResult dst form) F (F.writeResult dst form) () := by
  intro t
  unfold writeResult HandleFrame.writeResult
  rw [get_bind_run]
  revert t
  cases form with
  | single | object =>
    apply (inspects_lookup (type F.result.1)).bind_commits
    intro x
    split
    · exact commits_writeSingle dst F.result.1
    · exact commits_throw _ _
  | wide =>
    apply (inspects_lookup (type F.result.1)).bind_commits
    intro x
    apply (inspects_lookup (type F.result.2)).bind_commits
    intro y
    split
    · exact commits_writePair dst F.result.1 F.result.2
    · exact commits_throw _ _

/-- The value left behind is dropped only after it has been written. -/
theorem commits_takeResult (dst : Nat) (form : ValueForm) :
    Commits (takeResult dst form) F (F.consumeResult dst form) F.result.1 := by
  intro t
  unfold takeResult HandleFrame.consumeResult
  rw [get_bind_run]
  revert t
  apply (inspects_lookup (type F.result.1)).bind_commits
  intro x
  split
  · exact commits_throw _ _
  intro t
  rw [bind_run, commits_writeResult dst form t, HandleFrame.access_bind_run]
  cases ((F.writeResult dst form).run t).1 <;> rfl

end InPlace

/-! ## Accesses to the flat frame -/

namespace HandleFrame

open Lookup

/-- An access gives what it gives on the flat frame. It changes the `touched` registers only, and
    all of them are there. -/
inductive Flattens (F : HandleFrame) (touched : List Nat) :
    Except FrameError HandleFrame → Except FrameError FlatFrame → Prop
  | ok {G : HandleFrame} (locals : G.locals.length = F.locals.length)
    (within : ∀ i ∈ touched, i < F.size) (others : ∀ i, i ∉ touched → G.get? i = F.get? i) :
    Flattens F touched (.ok G) (.ok G.flat)
  | error (e : FrameError) : Flattens F touched (.error e) (.error e)

/-- A type is looked up on the way. -/
private theorem type_bind_run (h : Handle) (k : RegType → Access α) (t : TypeTable) :
    (liftM (type h) >>= k).run t = (k (t.type h.index)).run t :=
  rfl

theorem flattens_writeSingle (F : HandleFrame) (t : TypeTable) (reg : Nat) (h : Handle) :
    ∃ r, (F.writeSingle reg h).run t = (r, t) ∧
      Flattens F [reg] r (F.flat.writeSingle t reg h) := by
  unfold writeSingle FlatFrame.writeSingle
  rw [type_bind_run, size_flat]
  dsimp only
  split
  · exact ⟨_, rfl, .error _⟩
  by_cases hreg : reg < F.size
  · obtain ⟨a, -, hread⟩ := read_of_lt hreg
    rw [hread, if_pos hreg, ← flat_put]
    refine ⟨_, rfl, .ok (length_locals_put F reg h) (by simpa using hreg) fun i hi => ?_⟩
    exact get?_put_of_ne (by simpa using hi)
  · rw [(read_of_not_lt hreg).2, if_neg hreg]
    exact ⟨_, rfl, .error _⟩

theorem flattens_writePair (F : HandleFrame) (t : TypeTable) (reg : Nat) (lo hi : Handle) :
    ∃ r, (F.writePair reg lo hi).run t = (r, t) ∧
      Flattens F [reg, reg + 1] r (F.flat.writePair t reg lo hi) := by
  unfold writePair FlatFrame.writePair
  rw [type_bind_run, type_bind_run, size_flat]
  split
  · exact ⟨_, rfl, .error _⟩
  unfold next FlatFrame.next
  rw [size_flat]
  split
  case isFalse => exact ⟨_, rfl, .error _⟩
  show ∃ r, (F.read (reg + 1) >>= fun _ => pure _ : Access HandleFrame).run t = _ ∧
    Flattens F _ r (if reg + 1 < F.size then _ else _)
  by_cases hsecond : reg + 1 < F.size
  · obtain ⟨a, -, hread⟩ := read_of_lt hsecond
    rw [hread, if_pos hsecond]
    have hflat : ((F.put reg lo).put (reg + 1) hi).flat =
        { F.flat with registers := (F.flat.registers.set reg lo).set (reg + 1) hi } := by
      rw [flat_put, flat_put]
    rw [← hflat]
    refine ⟨_, rfl, .ok (by simp) ?_ fun i hi => ?_⟩
    · simpa using ⟨Nat.lt_of_succ_lt hsecond, hsecond⟩
    · rw [get?_put_of_ne (by simp_all), get?_put_of_ne (by simp_all)]
  · rw [(read_of_not_lt hsecond).2, if_neg hsecond]
    exact ⟨_, rfl, .error _⟩

/-- The high half that belongs to a low half has a fixed handle. -/
theorem highHalf?_run (ht : t.Reachable) (h : Handle) :
    highHalf? h t = ((t.type h.index).highHalf?.map .fixed, t) := by
  unfold highHalf?
  rw [bind_run (rfl : type h t = (t.type h.index, t))]
  cases t.type h.index with
  | low k =>
    show (intern (.high k) >>= fun hi => pure (some hi)) t = _
    rw [bind_run (intern_fixed_run ht rfl)]
    rfl
  | _ => rfl

theorem flattens_write (ht : t.Reachable) (F : HandleFrame) (reg : Nat) (h : Handle) :
    ∃ r, (F.write reg h).run t = (r, t) ∧
      Flattens F (FrameAccess.positions t (.write reg h)) r (F.flat.write t reg h) := by
  unfold write FlatFrame.write
  simp only [FrameAccess.positions]
  rw [run_liftM_bind, bind_run (highHalf?_run ht h)]
  cases t.type h.index with
  | low k => exact flattens_writePair F t reg h (.fixed (.high k))
  | _ => exact flattens_writeSingle F t reg h

/-- Reading a register of the flat frame. -/
theorem read_run (F : HandleFrame) (reg : Nat) (t : TypeTable) :
    (F.read reg).run t = (F.flat.read reg, t) := by
  unfold FlatFrame.read
  rw [← get?_eq_getElem?, size_flat]
  unfold read
  cases F.get? reg <;> rfl

theorem next_run (F : HandleFrame) (reg : Nat) (t : TypeTable) :
    (F.next reg).run t = (F.flat.next reg, t) := by
  unfold next FlatFrame.next
  rw [size_flat]
  split <;> rfl

/-- Whether a register holds a value is told from the flat frame. -/
theorem holds_flat (p : ClassPool) (F : HandleFrame) (t : TypeTable) (reg : Nat)
    (expected : Handle) :
    (F.read reg >>= fun h => liftM (isAssignable p expected h)).run t =
      (F.flat.holds t p reg expected, t) := by
  unfold FlatFrame.holds
  rw [access_bind_run, read_run]
  cases F.flat.read reg with
  | error e => rfl
  | ok h =>
    show (liftM (isAssignable p expected h) >>= pure : Access Bool).run t = _
    rw [run_liftM_bind, bind_run (isAssignable_run p expected h t)]
    rfl

/-- Whether a register holds a pair is told from the flat frame. -/
theorem holdsPair_flat (p : ClassPool) (F : HandleFrame) (t : TypeTable) (reg : Nat)
    (expected : Handle) :
    (F.holdsPair p reg expected).run t = (F.flat.holdsPair t p reg expected, t) := by
  unfold holdsPair FlatFrame.holdsPair
  rw [access_bind_run, read_run]
  cases F.flat.read reg with
  | error e => rfl
  | ok lo =>
    show (F.next reg >>= fun next => F.read next >>= _ : Access Bool).run t =
      (F.flat.next reg >>= fun next => F.flat.read next >>= _, t)
    rw [access_bind_run, next_run]
    cases F.flat.next reg with
    | error e => rfl
    | ok next =>
      show (F.read next >>= _ : Access Bool).run t = (F.flat.read next >>= _, t)
      rw [access_bind_run, read_run]
      cases F.flat.read next with
      | error e => rfl
      | ok hi =>
        show (liftM (isAssignable p expected lo) >>= _ : Access Bool).run t = _
        rw [run_liftM_bind, bind_run (isAssignable_run p expected lo t)]
        rfl

private theorem flattens_writeResult (F : HandleFrame) (t : TypeTable) (dst : Nat)
    (form : ValueForm) :
    ∃ r, (F.writeResult dst form).run t = (r, t) ∧
      Flattens F (FrameAccess.positions t (.takeResult dst form)) r
        (F.flat.writeResult t dst form) := by
  unfold FlatFrame.writeResult
  rw [result_flat]
  dsimp only
  cases hfits : form.fits (t.type F.result.1.index) (t.type F.result.2.index) with
  | false =>
    refine ⟨.error (.resultMismatch form), ?_, .error _⟩
    cases form <;> simp_all [writeResult, ValueForm.fits, type_bind_run] <;> rfl
  | true =>
    cases form with
    | single | object =>
      obtain ⟨r, hr, hflat⟩ := flattens_writeSingle F t dst F.result.1
      refine ⟨r, ?_, hflat⟩
      simp_all [writeResult, ValueForm.fits, type_bind_run]
    | wide =>
      obtain ⟨r, hr, hflat⟩ := flattens_writePair F t dst F.result.1 F.result.2
      refine ⟨r, ?_, hflat⟩
      simp_all [writeResult, ValueForm.fits, type_bind_run]

/-- The value left behind is in no register. -/
private theorem Flattens.clearResult {touched : List Nat} {r : Except FrameError HandleFrame}
    {s : Except FrameError FlatFrame} (h : Flattens F touched r s) :
    Flattens F touched (r >>= fun G => pure G.clearResult)
      (s >>= fun g => pure { g with result := noResult }) := by
  cases h with
  | error e => exact .error e
  | ok locals within others => exact .ok locals within others

theorem flattens_consumeResult (F : HandleFrame) (t : TypeTable) (dst : Nat) (form : ValueForm) :
    ∃ r, (F.consumeResult dst form).run t = (r, t) ∧
      Flattens F (FrameAccess.positions t (.takeResult dst form)) r
        (F.flat.takeResult t dst form) := by
  obtain ⟨r, hr, hflat⟩ := flattens_writeResult F t dst form
  unfold consumeResult FlatFrame.takeResult
  rw [type_bind_run, result_flat]
  by_cases hnone : (t.type F.result.1.index).isUndefined = true
  · rw [if_pos hnone, if_pos hnone]
    exact ⟨_, rfl, .error _⟩
  · rw [if_neg hnone, if_neg hnone]
    refine ⟨r >>= fun G => pure G.clearResult, ?_, hflat.clearResult⟩
    rw [access_bind_run, hr]
    cases r <;> rfl

end HandleFrame

namespace FrameAccess

open HandleFrame (Flattens)
open InPlace (Commits Inspects)

/-- What becomes of the frame `F` in work that touches the given positions: either it is refused and
    nothing has changed, or the flat frame is as it should be. -/
inductive Settles (t : TypeTable) (F : HandleFrame) (touched : List Nat) :
    (Except FrameError FrameAnswer × HandleFrame) × TypeTable →
      Except FrameError (FrameAnswer × FlatFrame) → Prop
  | done {a : FrameAnswer} {G : HandleFrame} (locals : G.locals.length = F.locals.length)
    (within : ∀ i ∈ touched, i < F.size) (others : ∀ i, i ∉ touched → G.get? i = F.get? i) :
    Settles t F touched ((.ok a, G), t) (.ok (a, G.flat))
  | refused (e : FrameError) : Settles t F touched ((.error e, F), t) (.error e)

/-- Work that changes the frame as an access does. -/
private theorem settles_of_commits {w : InPlace α} {x : HandleFrame.Access HandleFrame} {a : α}
    {touched : List Nat} {r : Except FrameError HandleFrame} {s : Except FrameError FlatFrame}
    {answer : α → FrameAnswer} (hw : Commits w F x a) (hx : x.run t = (r, t))
    (hflat : Flattens F touched r s) :
    Settles t F touched ((w >>= fun b => pure (answer b)).run.run F t)
      (s >>= fun g => pure (answer a, g)) := by
  rw [hw.map answer t, hx]
  cases hflat with
  | ok locals within others => exact .done locals within others
  | error e => exact .refused e

/-- Work that only looks at the frame. -/
private theorem settles_of_inspects {w : InPlace α} {x : HandleFrame.Access α} {touched : List Nat}
    {r : Except FrameError α} {answer : α → FrameAnswer} (hw : Inspects w F x)
    (hx : x.run t = (r, t)) (hwithin : ∀ a, r = .ok a → ∀ i ∈ touched, i < F.size) :
    Settles t F touched ((w >>= fun b => pure (answer b)).run.run F t)
      (r >>= fun a => pure (answer a, F.flat)) := by
  rw [InPlace.bind_run, hw t, hx]
  cases r with
  | ok a => exact .done rfl (hwithin a rfl) fun _ _ => rfl
  | error e => exact .refused e

/-- A register that can be read is there. -/
private theorem lt_of_read (hread : F.flat.read reg = .ok h) : reg < F.size := by
  by_contra hreg
  rw [← HandleFrame.size_flat] at hreg
  unfold FlatFrame.read at hread
  rw [List.getElem?_eq_none (Nat.le_of_not_lt hreg)] at hread
  cases hread

private theorem lt_of_holdsPair {p : ClassPool} {expected : Handle} {b : Bool}
    (hpair : F.flat.holdsPair t p reg expected = .ok b) : reg + 1 < F.size := by
  unfold FlatFrame.holdsPair FlatFrame.next at hpair
  obtain ⟨lo, -, hpair⟩ := bind_eq_ok.1 hpair
  obtain ⟨next, hnext, hpair⟩ := bind_eq_ok.1 hpair
  obtain ⟨hi, hread, -⟩ := bind_eq_ok.1 hpair
  split at hnext
  · cases hnext
    exact lt_of_read hread
  · cases hnext

/-- Each access is done as on the flat frame. -/
theorem settles_run (ht : t.Reachable) (p : ClassPool) (F : HandleFrame) (a : FrameAccess) :
    Settles t F (a.positions t) ((a.run p).run.run F t) (F.flat.access t p a) := by
  cases a with
  | read reg =>
    refine settles_of_inspects (InPlace.inspects_load reg) (HandleFrame.read_run F reg t) ?_
    intro h hread
    exact List.forall_mem_singleton.2 (lt_of_read hread)
  | writeSingle reg h =>
    obtain ⟨r, hrun, hflat⟩ := HandleFrame.flattens_writeSingle F t reg h
    exact settles_of_commits (InPlace.commits_writeSingle reg h) hrun hflat
  | writePair reg lo hi =>
    obtain ⟨r, hrun, hflat⟩ := HandleFrame.flattens_writePair F t reg lo hi
    exact settles_of_commits (InPlace.commits_writePair reg lo hi) hrun hflat
  | write reg h =>
    obtain ⟨r, hrun, hflat⟩ := HandleFrame.flattens_write ht F reg h
    exact settles_of_commits (InPlace.commits_write reg h) hrun hflat
  | holds reg expected =>
    refine settles_of_inspects (InPlace.inspects_holds p reg expected)
      (HandleFrame.holds_flat p F t reg expected) ?_
    intro b hholds
    obtain ⟨h, hread, -⟩ := bind_eq_ok.1 hholds
    exact List.forall_mem_singleton.2 (lt_of_read hread)
  | holdsPair reg expected =>
    refine settles_of_inspects (InPlace.inspects_holdsPair p reg expected)
      (HandleFrame.holdsPair_flat p F t reg expected) ?_
    intro b hpair
    have hsecond := lt_of_holdsPair hpair
    simpa [positions] using ⟨Nat.lt_of_succ_lt hsecond, hsecond⟩
  | takeResult dst form =>
    obtain ⟨r, hrun, hflat⟩ := HandleFrame.flattens_consumeResult F t dst form
    exact settles_of_commits (InPlace.commits_takeResult dst form) hrun hflat

/-- An access that is refused on the flat frame is refused with the same error, and leaves the frame
    as it was. Any other access answers what it answers on the flat frame and makes of the frame
    what it makes of the flat one. It touches only positions that are there, and the others keep
    what they hold. -/
theorem run_flat (ht : t.Reachable) (p : ClassPool) (F : HandleFrame) (a : FrameAccess) :
    (∀ e, F.flat.access t p a = .error e → (a.run p).run.run F t = ((.error e, F), t)) ∧
    ∀ x g, F.flat.access t p a = .ok (x, g) →
      ∃ G, (a.run p).run.run F t = ((.ok x, G), t) ∧ G.flat = g ∧
        G.locals.length = F.locals.length ∧ (∀ i ∈ a.positions t, i < F.size) ∧
        ∀ i, i ∉ a.positions t → G.get? i = F.get? i := by
  have hsettles := settles_run ht p F a
  generalize (a.run p).run.run F t = outcome at hsettles
  generalize F.flat.access t p a = answer at hsettles
  cases hsettles with
  | refused e => simp
  | done locals within others =>
    refine ⟨fun e he => by simp at he, fun x g hok => ?_⟩
    cases hok
    exact ⟨_, rfl, rfl, locals, within, others⟩

end FrameAccess

/-- A frame of one local and one parameter, with a `long` left behind. -/
def pendingFrame : HandleFrame :=
  { HandleFrame.blank 1 1 with result := (.fixed (.low .long), .fixed (.high .long)) }

/-- The value left behind can be moved across the border of the two rows. There is no room for it
    in the parameter alone, and then it stays where it was. -/
theorem pendingFrame_run_flat : TypeTable.initial.Reachable ∧
    ((FrameAccess.takeResult 1 .wide).run .core).run.run pendingFrame .initial =
      ((.error (.outOfRange 2 2), pendingFrame), .initial) ∧
    ∃ G, ((FrameAccess.takeResult 0 .wide).run .core).run.run pendingFrame .initial =
        ((.ok (.handle (.fixed (.low .long))), G), .initial) ∧
      G.flat = { pendingFrame.flat with
        registers := [.fixed (.low .long), .fixed (.high .long)], result := HandleFrame.noResult } ∧
      G.locals.length = 1 ∧
      (∀ i ∈ (FrameAccess.takeResult 0 .wide).positions .initial, i < pendingFrame.size) ∧
      ∀ i, i ∉ (FrameAccess.takeResult 0 .wide).positions .initial →
        G.get? i = pendingFrame.get? i :=
  ⟨.initial, (FrameAccess.run_flat .initial .core pendingFrame _).1 _ (by decide +kernel),
    (FrameAccess.run_flat .initial .core pendingFrame _).2 _ _ (by decide +kernel)⟩

end BytecodeVerifier
