import BytecodeVerifier.Frame
import BytecodeVerifier.TypeTable.Handle

/-!
# Frames of handles

A frame that holds the handle of each register's type instead of the type itself. What an operation
asks of a type it looks up in the table; whether two registers hold the same type, and whether a
merge has changed a frame, is told from the handles alone.
-/

namespace BytecodeVerifier

/-- The handles of the types of all registers at a program point. -/
structure HandleFrame where
  locals : List Handle
  params : List Handle
  /-- The low and the high half of the value that a call has left behind. -/
  result : Handle × Handle
  /-- A constructor has run on the receiver, or the method is none. -/
  thisInitialized : Bool
  /-- The number of monitors held, if all paths agree on it. -/
  monitors : Option Nat
  deriving DecidableEq, Repr

namespace HandleFrame

open Lookup

/-- An access to a frame, which may be refused. -/
abbrev Access := ExceptT FrameError Lookup

/-- No value has been left behind. -/
def noResult : Handle × Handle := (.fixed .undefined, .fixed .undefined)

/-- A frame in which nothing has been written. -/
def blank (locals params : Nat) : HandleFrame :=
  { locals := List.replicate locals (.fixed .undefined)
    params := List.replicate params (.fixed .undefined)
    result := noResult
    thisInitialized := true
    monitors := some 0 }

/-- The number of registers. -/
def size (f : HandleFrame) : Nat := f.locals.length + f.params.length

/-- The frame as the table reads it. -/
def view (f : HandleFrame) (t : TypeTable) : Frame :=
  let type := fun h : Handle => t.type h.index
  { locals := f.locals.map type
    params := f.params.map type
    result := (type f.result.1, type f.result.2)
    thisInitialized := f.thisInitialized
    monitors := f.monitors }

/-- The handle in a register of the frame. -/
def get? (f : HandleFrame) (reg : Nat) : Option Handle :=
  if reg < f.locals.length then f.locals[reg]? else f.params[reg - f.locals.length]?

/-- The frame with another handle in a register, if it has the register. -/
def put (f : HandleFrame) (reg : Nat) (h : Handle) : HandleFrame :=
  if reg < f.locals.length then { f with locals := f.locals.set reg h }
  else { f with params := f.params.set (reg - f.locals.length) h }

/-- The handle in a register. -/
def read (f : HandleFrame) (reg : Nat) : Access Handle :=
  match f.get? reg with
  | some h => pure h
  | none => throw (.outOfRange reg f.size)

/-- The register after this one. -/
def next (f : HandleFrame) (reg : Nat) : Access Nat :=
  if reg < Frame.maxRegister then pure (reg + 1) else throw (.outOfRange reg f.size)

/-- Writes a value that takes one register. -/
def writeSingle (f : HandleFrame) (reg : Nat) (h : Handle) : Access HandleFrame := do
  let t ← type h
  if t.isLowHalf || t.isHighHalf then
    throw (.halfWrite reg)
  let _ ← f.read reg
  return f.put reg h

/-- Writes a wide value to a register and the one after it. -/
def writePair (f : HandleFrame) (reg : Nat) (lo hi : Handle) : Access HandleFrame := do
  if !(← type lo).pairsWith (← type hi) then
    throw (.badPair reg)
  let next ← f.next reg
  let _ ← f.read next
  return (f.put reg lo).put next hi

/-- Writes a value, given by its low half if it is wide. -/
def write (f : HandleFrame) (reg : Nat) (h : Handle) : Access HandleFrame := do
  match ← highHalf? h with
  | some hi => f.writePair reg h hi
  | none => f.writeSingle reg h

/-- The register and the one after it hold a wide value whose low half is usable as `expected`. -/
def holdsPair (p : ClassPool) (f : HandleFrame) (reg : Nat) (expected : Handle) : Access Bool := do
  let lo ← f.read reg
  let next ← f.next reg
  let hi ← f.read next
  return (← isAssignable p expected lo) && (← type lo).pairsWith (← type hi)

/-- Drops the value that a call has left behind. -/
def clearResult (f : HandleFrame) : HandleFrame := { f with result := noResult }

/-- Leaves a value behind, given by its low half if it is wide. -/
def setResult (f : HandleFrame) (h : Handle) : Lookup HandleFrame := do
  let hi ← highHalf? h
  return { f with result := (h, hi.getD (.fixed .undefined)) }

/-- Writes the value left behind, in the form asked for. -/
def writeResult (f : HandleFrame) (dst : Nat) (form : ValueForm) : Access HandleFrame := do
  let (lo, hi) := f.result
  match form with
  | .single => if (← type lo).isSingle then f.writeSingle dst lo else throw (.resultMismatch form)
  | .object =>
    if (← type lo).isReference then f.writeSingle dst lo else throw (.resultMismatch form)
  | .wide =>
    if (← type lo).pairsWith (← type hi) then f.writePair dst lo hi
    else throw (.resultMismatch form)

/-- Moves the value left behind into a register. -/
def consumeResult (f : HandleFrame) (dst : Nat) (form : ValueForm) : Access HandleFrame := do
  if (← type f.result.1).isUndefined then
    throw .noResult
  let f' ← f.writeResult dst form
  return f'.clearResult

/-- The registers merged one by one, as far as both rows go. -/
def mergeRow (p : ClassPool) : List Handle → List Handle → Lookup (List Handle)
  | [], _ => return []
  | row, [] => return row
  | a :: as, b :: bs => return (← merge p a b) :: (← mergeRow p as bs)

/-- The frame where a path with frame `f` is joined by one with frame `g`. -/
def merge (p : ClassPool) (f g : HandleFrame) : Lookup HandleFrame := do
  let locals ← mergeRow p f.locals g.locals
  let params ← mergeRow p f.params g.params
  let lo ← Lookup.merge p f.result.1 g.result.1
  let hi ← Lookup.merge p f.result.2 g.result.2
  return { locals, params, result := (lo, hi)
           thisInitialized := f.thisInitialized && g.thisInitialized
           monitors := if f.monitors = g.monitors then f.monitors else none }

/-- The registers merged one by one, as far as both rows go, and whether that changes one. -/
def absorbRow (p : ClassPool) : List Handle → List Handle → Lookup (List Handle × Bool)
  | [], _ => return ([], false)
  | row, [] => return (row, false)
  | a :: as, b :: bs => do
    let merged ← Lookup.merge p a b
    let (rest, changed) ← absorbRow p as bs
    return (merged :: rest, merged != a || changed)

/-- The frame where a path with frame `f` is joined by one with frame `g`, and whether that changes
anything in it. -/
def absorb (p : ClassPool) (f g : HandleFrame) : Lookup (HandleFrame × Bool) := do
  let (locals, inLocals) ← absorbRow p f.locals g.locals
  let (params, inParams) ← absorbRow p f.params g.params
  let lo ← Lookup.merge p f.result.1 g.result.1
  let hi ← Lookup.merge p f.result.2 g.result.2
  let losesThis := f.thisInitialized && !g.thisInitialized
  let losesCount := f.monitors.isSome && f.monitors != g.monitors
  let merged : HandleFrame :=
    { locals, params, result := (lo, hi)
      thisInitialized := if losesThis then false else f.thisInitialized
      monitors := if losesCount then none else f.monitors }
  return (merged, inLocals || inParams || lo != f.result.1 || hi != f.result.2 || losesThis ||
    losesCount)

/-- The frame with every register's handle passed through `g`. -/
def mapRegisters (f : HandleFrame) (g : Handle → Handle) : HandleFrame :=
  { f with locals := f.locals.map g, params := f.params.map g }

/-- Every copy of the object `uninit` becomes initialized. -/
def markInitialized (p : ClassPool) (f : HandleFrame) (uninit : Handle) : Lookup HandleFrame := do
  let init ← initialized p uninit
  let f := f.mapRegisters fun h => if h = uninit then init else h
  let this := (← type uninit).isUninitializedThis
  return { f with thisInitialized := f.thisInitialized || this }

/-- Every copy of `marker` becomes unusable. -/
def invalidate (f : HandleFrame) (marker : Handle) : HandleFrame :=
  f.mapRegisters fun h => if h = marker then .fixed .conflict else h

/-- One more monitor is held. -/
def enterMonitor (f : HandleFrame) : HandleFrame :=
  { f with monitors := f.monitors.bind fun n => if n < Frame.maxMonitors then some (n + 1) else none }

/-- One monitor less is held; nothing if there is none to leave. -/
def exitMonitor? (f : HandleFrame) : Option HandleFrame :=
  match f.monitors with
  | some 0 => none
  | some (n + 1) => some { f with monitors := some n }
  | none => some f

end HandleFrame

end BytecodeVerifier
