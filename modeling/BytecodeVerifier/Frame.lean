import BytecodeVerifier.Opcode.Mnemonic
import BytecodeVerifier.RegType.Lattice

/-!
# Frames

A frame holds the type of every register at one program point. The registers are one row, the locals
and after them the parameters; a wide value may lie across the border. Beside the registers a frame
has the value that the last call left behind, whether a constructor has run on the receiver, and the
number of monitors held.
-/

namespace BytecodeVerifier

/-- Why a frame refuses an access. -/
inductive FrameError where
  | outOfRange (reg count : Nat)
  /-- One half of a wide value is written alone. -/
  | halfWrite (reg : Nat)
  /-- The two halves of a wide write do not belong together. -/
  | badPair (reg : Nat)
  /-- No call has left a value behind. -/
  | noResult
  /-- The value left behind is not of the form asked for. -/
  | resultMismatch (form : ValueForm)
  deriving DecidableEq, Repr

/-- The text for a register outside the frame. -/
def outOfRangeText (reg count : Nat) : String :=
  "register v" ++ toString reg ++ " out of range (" ++ toString count ++ " registers)"

/-- The wording of an error. -/
def FrameError.message : FrameError → String
  | .outOfRange reg count => outOfRangeText reg count
  | .halfWrite reg => "half of a wide value written alone to v" ++ toString reg
  | .badPair reg => "mismatched wide pair written to v" ++ toString reg
  | .noResult => "no pending result"
  | .resultMismatch form => "pending result does not match " ++ (Opcode.moveResult form).mnemonic

/-- The types of all registers at a program point. -/
structure Frame where
  locals : List RegType
  params : List RegType
  /-- The low and the high half of the value that a call has left behind. -/
  result : RegType × RegType
  /-- A constructor has run on the receiver, or the method is none. -/
  thisInitialized : Bool
  /-- The number of monitors held, if all paths agree on it. -/
  monitors : Option Nat
  deriving DecidableEq, Repr

namespace Frame

/-- Register numbers are at most this. -/
def maxRegister : Nat := 0xffffffffffffffff

/-- A frame can count at most this many monitors. -/
def maxMonitors : Nat := 0xffffffff

/-- No value has been left behind. -/
def noResult : RegType × RegType := (.undefined, .undefined)

/-- A frame in which nothing has been written. -/
def blank (locals params : Nat) : Frame :=
  { locals := List.replicate locals .undefined
    params := List.replicate params .undefined
    result := noResult
    thisInitialized := true
    monitors := some 0 }

/-- The registers in one row. -/
def registers (f : Frame) : List RegType := f.locals ++ f.params

/-- The number of registers. -/
def size (f : Frame) : Nat := f.locals.length + f.params.length

/-- The type in a register of the frame. -/
def get? (f : Frame) (reg : Nat) : Option RegType :=
  if reg < f.locals.length then f.locals[reg]? else f.params[reg - f.locals.length]?

/-- The frame with another type in a register, if it has the register. -/
def put (f : Frame) (reg : Nat) (t : RegType) : Frame :=
  if reg < f.locals.length then { f with locals := f.locals.set reg t }
  else { f with params := f.params.set (reg - f.locals.length) t }

/-- The type in a register. -/
def read (f : Frame) (reg : Nat) : Except FrameError RegType :=
  match f.get? reg with
  | some t => .ok t
  | none => .error (.outOfRange reg f.size)

/-- The register after this one. -/
def next (f : Frame) (reg : Nat) : Except FrameError Nat :=
  if reg < maxRegister then .ok (reg + 1) else .error (.outOfRange reg f.size)

/-- Writes a value that takes one register. -/
def writeSingle (f : Frame) (reg : Nat) (t : RegType) : Except FrameError Frame := do
  if t.isLowHalf || t.isHighHalf then
    throw (.halfWrite reg)
  let _ ← f.read reg
  return f.put reg t

/-- Writes a wide value to a register and the one after it. -/
def writePair (f : Frame) (reg : Nat) (lo hi : RegType) : Except FrameError Frame := do
  if !lo.pairsWith hi then
    throw (.badPair reg)
  let next ← f.next reg
  let _ ← f.read next
  return (f.put reg lo).put next hi

/-- Writes a value, given by its low half if it is wide. -/
def write (f : Frame) (reg : Nat) (t : RegType) : Except FrameError Frame :=
  match t.highHalf? with
  | some hi => f.writePair reg t hi
  | none => f.writeSingle reg t

/-- The register holds a value usable as `expected`. -/
def holds (p : ClassPool) (f : Frame) (reg : Nat) (expected : RegType) :
    Except FrameError Bool := do
  let t ← f.read reg
  return expected.isAssignable p t

/-- The register and the one after it hold a wide value whose low half is usable as `expected`. -/
def holdsPair (p : ClassPool) (f : Frame) (reg : Nat) (expected : RegType) :
    Except FrameError Bool := do
  let lo ← f.read reg
  let next ← f.next reg
  let hi ← f.read next
  return expected.isAssignable p lo && lo.pairsWith hi

/-- Drops the value that a call has left behind. -/
def clearResult (f : Frame) : Frame := { f with result := noResult }

/-- Leaves a value behind, given by its low half if it is wide. -/
def setResult (f : Frame) (t : RegType) : Frame :=
  { f with result := (t, t.highHalf?.getD .undefined) }

/-- Writes the value left behind, in the form asked for. -/
def writeResult (f : Frame) (dst : Nat) (form : ValueForm) : Except FrameError Frame :=
  let (lo, hi) := f.result
  match form with
  | .single => if lo.isSingle then f.writeSingle dst lo else .error (.resultMismatch form)
  | .object => if lo.isReference then f.writeSingle dst lo else .error (.resultMismatch form)
  | .wide => if lo.pairsWith hi then f.writePair dst lo hi else .error (.resultMismatch form)

/-- Moves the value left behind into a register; gives its type, and the frame afterwards. -/
def consumeResult (f : Frame) (dst : Nat) (form : ValueForm) :
    Except FrameError (RegType × Frame) := do
  if f.result.1.isUndefined then
    throw .noResult
  let f' ← f.writeResult dst form
  return (f.result.1, f'.clearResult)

/-- The registers merged one by one, as far as both rows go. -/
def mergeRow (p : ClassPool) : List RegType → List RegType → List RegType
  | [], _ => []
  | row, [] => row
  | a :: as, b :: bs => a.merge p b :: mergeRow p as bs

/-- The frame where a path with frame `f` is joined by one with frame `g`. -/
def merge (p : ClassPool) (f g : Frame) : Frame :=
  { locals := mergeRow p f.locals g.locals
    params := mergeRow p f.params g.params
    result := (f.result.1.merge p g.result.1, f.result.2.merge p g.result.2)
    thisInitialized := f.thisInitialized && g.thisInitialized
    monitors := if f.monitors = g.monitors then f.monitors else none }

/-- The frame with every register's type passed through `g`. -/
def mapRegisters (f : Frame) (g : RegType → RegType) : Frame :=
  { f with locals := f.locals.map g, params := f.params.map g }

/-- Every copy of the object `uninit` becomes initialized. -/
def markInitialized (p : ClassPool) (f : Frame) (uninit : RegType) : Frame :=
  let f := f.mapRegisters fun t => if t = uninit then uninit.initialized p else t
  { f with thisInitialized := f.thisInitialized || uninit.isUninitializedThis }

/-- Every copy of `marker` becomes unusable. -/
def invalidate (f : Frame) (marker : RegType) : Frame :=
  f.mapRegisters fun t => if t = marker then .conflict else t

/-- One more monitor is held. -/
def enterMonitor (f : Frame) : Frame :=
  { f with monitors := f.monitors.bind fun n => if n < maxMonitors then some (n + 1) else none }

/-- One monitor less is held; nothing if there is none to leave. -/
def exitMonitor? (f : Frame) : Option Frame :=
  match f.monitors with
  | some 0 => none
  | some (n + 1) => some { f with monitors := some n }
  | none => some f

/-- The types of all registers and of the value left behind, in order. -/
def types (f : Frame) : List RegType := f.registers ++ [f.result.1, f.result.2]

end Frame

end BytecodeVerifier
