import BytecodeVerifier.TypeTable.HandleFrame

/-!
# Frames in place

Work on frames that changes them step by step. An access that is refused takes nothing back: what it
has written before stays written. So an access has to look at everything that can go wrong before it
writes.

The frames of a family share a class pool and a table. Each operation on one of them may issue
handles, which the other frames may have held before.
-/

namespace BytecodeVerifier

/-- Work on one frame, which may be refused in the middle. -/
abbrev InPlace := ExceptT FrameError (StateT HandleFrame Lookup)

/-- What an access to a frame answers. -/
inductive FrameAnswer where
  | done
  | handle (h : Handle)
  | truth (holds : Bool)
  deriving DecidableEq, Repr

/-- An access that a frame may refuse. -/
inductive FrameAccess where
  | read (reg : Nat)
  | writeSingle (reg : Nat) (h : Handle)
  | writePair (reg : Nat) (lo hi : Handle)
  | write (reg : Nat) (h : Handle)
  | holds (reg : Nat) (expected : Handle)
  | holdsPair (reg : Nat) (expected : Handle)
  | takeResult (dst : Nat) (form : ValueForm)
  deriving DecidableEq, Repr

namespace InPlace

open Lookup

/-- The handle in a register. -/
def load (reg : Nat) : InPlace Handle := do
  let f ← get
  match f.get? reg with
  | some h => return h
  | none => throw (.outOfRange reg f.size)

/-- Overwrites a register. -/
def store (reg : Nat) (h : Handle) : InPlace Unit := do
  let _ ← load reg
  modify (·.put reg h)

/-- The register after this one. -/
def next (reg : Nat) : InPlace Nat := do
  if reg < Frame.maxRegister then return reg + 1
  else throw (.outOfRange reg (← get).size)

/-- Writes a value that takes one register. -/
def writeSingle (reg : Nat) (h : Handle) : InPlace Unit := do
  let t ← type h
  if t.isLowHalf || t.isHighHalf then
    throw (.halfWrite reg)
  store reg h

/-- Writes a wide value to a register and the one after it. -/
def writePair (reg : Nat) (lo hi : Handle) : InPlace Unit := do
  if !(← type lo).pairsWith (← type hi) then
    throw (.badPair reg)
  let next ← next reg
  -- where the second register exists the first one does
  let _ ← load next
  store reg lo
  store next hi

/-- Writes a value, given by its low half if it is wide. -/
def write (reg : Nat) (h : Handle) : InPlace Unit := do
  match ← highHalf? h with
  | some hi => writePair reg h hi
  | none => writeSingle reg h

/-- The register holds a value usable as `expected`. -/
def holds (p : ClassPool) (reg : Nat) (expected : Handle) : InPlace Bool := do
  let h ← load reg
  isAssignable p expected h

/-- The register and the one after it hold a wide value whose low half is usable as `expected`. -/
def holdsPair (p : ClassPool) (reg : Nat) (expected : Handle) : InPlace Bool := do
  let lo ← load reg
  let next ← next reg
  let hi ← load next
  return (← isAssignable p expected lo) && (← type lo).pairsWith (← type hi)

/-- Writes the value left behind, in the form asked for. -/
def writeResult (dst : Nat) (form : ValueForm) : InPlace Unit := do
  let (lo, hi) := (← get).result
  match form with
  | .single => if (← type lo).isSingle then writeSingle dst lo else throw (.resultMismatch form)
  | .object => if (← type lo).isReference then writeSingle dst lo else throw (.resultMismatch form)
  | .wide =>
    if (← type lo).pairsWith (← type hi) then writePair dst lo hi
    else throw (.resultMismatch form)

/-- Moves the value left behind into a register. It is dropped after it has been written. -/
def takeResult (dst : Nat) (form : ValueForm) : InPlace Handle := do
  let lo := (← get).result.1
  if (← type lo).isUndefined then
    throw .noResult
  writeResult dst form
  modify (·.clearResult)
  return lo

/-- Replaces the frame by what is made of it with the help of the table. -/
def change (work : HandleFrame → Lookup HandleFrame) : InPlace FrameAnswer := do
  set (← work (← get))
  return .done

/-- Merges another frame into this one, and tells whether that changes anything. -/
def absorb (p : ClassPool) (other : HandleFrame) : InPlace FrameAnswer := do
  let (merged, changed) ← (← get).absorb p other
  set merged
  return .truth changed

end InPlace

/-- Does what is asked for. -/
def FrameAccess.run (p : ClassPool) : FrameAccess → InPlace FrameAnswer
  | .read reg => return .handle (← InPlace.load reg)
  | .writeSingle reg h => do
    InPlace.writeSingle reg h
    return .done
  | .writePair reg lo hi => do
    InPlace.writePair reg lo hi
    return .done
  | .write reg h => do
    InPlace.write reg h
    return .done
  | .holds reg expected => return .truth (← InPlace.holds p reg expected)
  | .holdsPair reg expected => return .truth (← InPlace.holdsPair p reg expected)
  | .takeResult dst form => return .handle (← InPlace.takeResult dst form)

/-- Frames that are worked on with the same class pool and the same table. -/
structure FrameFamily where
  pool : ClassPool
  table : TypeTable
  frames : List HandleFrame
  deriving DecidableEq, Repr

/-- An operation on a frame of a family, given by its place, or on what the frames share. -/
inductive FamilyStep where
  | access (i : Nat) (a : FrameAccess)
  | copy (i source : Nat)
  | merge (i source : Nat)
  | setResult (i : Nat) (h : Handle)
  | clearResult (i : Nat)
  | markInitialized (i : Nat) (uninit : Handle)
  | invalidate (i : Nat) (marker : Handle)
  | enterType (x : RegType)
  | enterClass (d : Descriptor)
  /-- Goes on with another pool and a table that has issued only the fixed handles. -/
  | exchange (pool : ClassPool)
  deriving DecidableEq, Repr

namespace FrameFamily

/-- Blank frames over a table that has issued only the fixed handles. -/
def start (pool : ClassPool) (count locals params : Nat) : FrameFamily :=
  { pool, table := .initial, frames := List.replicate count (.blank locals params) }

/-- Work on one frame of the family. -/
def act (s : FrameFamily) (i : Nat) (work : InPlace FrameAnswer) :
    Except FrameError FrameAnswer × FrameFamily :=
  match s.frames[i]? with
  | none => (.ok .done, s)
  | some f =>
    let ((answer, f'), table) := work.run.run f s.table
    (answer, { s with table, frames := s.frames.set i f' })

/-- Work on one frame with a view to another one. -/
def actWith (s : FrameFamily) (i source : Nat) (work : HandleFrame → InPlace FrameAnswer) :
    Except FrameError FrameAnswer × FrameFamily :=
  match s.frames[source]? with
  | none => (.ok .done, s)
  | some g => s.act i (work g)

/-- One operation: its answer and the family afterwards. One on a frame that the family does not
    have does nothing. -/
def step (s : FrameFamily) : FamilyStep → Except FrameError FrameAnswer × FrameFamily
  | .access i a => s.act i (a.run s.pool)
  | .copy i source => s.actWith i source fun g => InPlace.change fun _ => return g
  | .merge i source => s.actWith i source (InPlace.absorb s.pool)
  | .setResult i h => s.act i (InPlace.change (·.setResult h))
  | .clearResult i => s.act i (InPlace.change fun f => return f.clearResult)
  | .markInitialized i uninit => s.act i (InPlace.change (·.markInitialized s.pool uninit))
  | .invalidate i marker => s.act i (InPlace.change fun f => return f.invalidate marker)
  | .enterType x => (.ok .done, { s with table := (s.table.intern x).2 })
  | .enterClass d => (.ok .done, { s with table := (s.table.internClass d).2 })
  | .exchange pool => (.ok .done, { s with pool, table := .initial })

/-- The family after one operation after the other, refused ones included. -/
def run (s : FrameFamily) (steps : List FamilyStep) : FrameFamily :=
  steps.foldl (fun s o => (s.step o).2) s

end FrameFamily

end BytecodeVerifier
