import BytecodeVerifier.Instruction

/-!
# Method bodies

A body is a list of instructions, some of them label marks, with the tables that refer to those
labels: protected ranges with their handlers, and source lines.
-/

namespace BytecodeVerifier

/-- A handler for one class of exceptions. -/
structure CatchHandler where
  exception : Descriptor
  label : Label
  deriving DecidableEq, Repr

/-- A span of protected instructions, from the mark `start` up to the mark `stop`, and the handlers
to which an exception raised inside goes. -/
structure TryRange where
  start : Label
  stop : Label
  handlers : List CatchHandler
  /-- The handler for every exception that no other takes. -/
  catchAll : Option Label
  deriving DecidableEq, Repr

namespace TryRange

/-- Each handler's label with what it catches, nothing standing for everything; the handler for
everything is the last. -/
def catches (r : TryRange) : List (Label × Option Descriptor) :=
  r.handlers.map (fun h => (h.label, some h.exception)) ++
    r.catchAll.toList.map (fun l => (l, none))

/-- The labels that the range refers to, in order. -/
def references (r : TryRange) : List Label :=
  r.start :: r.stop :: r.catches.map Prod.fst

/-- The range with every label replaced, if all can be. -/
def retarget {ε : Type} (f : Label → Except ε Label) (r : TryRange) : Except ε TryRange := do
  let handlers ← r.handlers.mapM fun h => return { h with label := ← f h.label }
  let start ← f r.start
  let stop ← f r.stop
  let catchAll ← r.catchAll.mapM f
  return { start, stop, handlers, catchAll }

end TryRange

/-- The source line of a program point. -/
structure LineAnchor where
  label : Label
  line : Nat
  deriving DecidableEq, Repr

/-- The line anchor with its label replaced, if it can be. -/
def LineAnchor.retarget {ε : Type} (f : Label → Except ε Label) (a : LineAnchor) :
    Except ε LineAnchor :=
  return { a with label := ← f a.label }

/-- The code of a method. -/
structure Body where
  code : List Instruction := []
  tries : List TryRange := []
  lines : List LineAnchor := []
  /-- The labels in use are meant to be those below this number. -/
  labelCount : Nat := 0
  deriving DecidableEq, Repr

namespace Body

/-- The number of instructions that are no label marks. -/
def opCount (b : Body) : Nat := b.code.countP fun i => !i.isLabel

/-- The labels that are placed, in order. -/
def placed (b : Body) : List Label := b.code.filterMap Instruction.placed?

/-- The first label of the list that occurs before in it or is among `seen`. -/
def firstRepeated? (seen : List Label) : List Label → Option Label
  | [] => none
  | l :: rest => if l ∈ seen then some l else firstRepeated? (l :: seen) rest

/-- The first label that is placed a second time. -/
def firstPlacedTwice? (b : Body) : Option Label := firstRepeated? [] b.placed

/-- Every label that the body refers to: from the code, from the ranges, from the lines. -/
def references (b : Body) : List Label :=
  b.code.flatMap Instruction.targets ++ b.tries.flatMap TryRange.references ++
    b.lines.map LineAnchor.label

end Body

end BytecodeVerifier
