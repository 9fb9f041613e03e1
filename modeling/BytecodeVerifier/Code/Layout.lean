import BytecodeVerifier.Code.Body
import BytecodeVerifier.Code.Fault

/-!
# Layout of a body

The layout of a body answers questions by position: where a label is placed, which positions are
protected and by which handlers, what a handler catches, and where execution may arrive other than
from the position before.
-/

namespace BytecodeVerifier

/-- What is known of one position of the code. -/
structure Site where
  /-- Some protected span covers the position. -/
  inTry : Bool := false
  /-- Execution may arrive here by a branch or an exception, or enters the method here. -/
  isTarget : Bool := false
  /-- What the handlers that begin here catch; nothing stands for every exception. -/
  catches : List (Option Descriptor) := []
  deriving DecidableEq, Repr

/-- A handler begins at this position. -/
def Site.isHandler (s : Site) : Bool := !s.catches.isEmpty

/-- A protected range with its labels replaced by positions. -/
structure Span where
  start : Nat
  stop : Nat
  /-- Where each handler begins, and what it catches. -/
  handlers : List (Nat × Option Descriptor)
  deriving DecidableEq, Repr

namespace Span

/-- The position is protected by the span. -/
def covers (s : Span) (i : Nat) : Bool := s.start ≤ i && i < s.stop

/-- The positions of the handlers, in order. -/
def targets (s : Span) : List Nat := s.handlers.map Prod.fst

end Span

/-- The position of each label that is placed. -/
structure LabelMap where
  positions : Array (Option Nat)
  deriving DecidableEq, Repr

namespace LabelMap

/-- Enters the labels of the code that begins at position `i`. A label placed twice keeps its last
position. -/
def enter (m : LabelMap) : (i : Nat) → List Instruction → Except Fault LabelMap
  | _, [] => .ok m
  | i, .label l :: rest =>
    if l.id < m.positions.size then
      enter ⟨m.positions.setIfInBounds l.id (some i)⟩ (i + 1) rest
    else .error .labelBeyondCount
  | i, _ :: rest => enter m (i + 1) rest

/-- The label positions of a body. -/
def ofBody (b : Body) : Except Fault LabelMap :=
  enter ⟨Array.replicate b.labelCount none⟩ 0 b.code

/-- Where a label is placed. -/
def position (m : LabelMap) (l : Label) : Except Fault Nat :=
  match m.positions[l.id]? with
  | some (some i) => .ok i
  | _ => .error .labelUnplaced

end LabelMap

/-- A body's labels, spans and sites. -/
structure Layout where
  labels : LabelMap
  spans : List Span
  sites : Array Site
  deriving DecidableEq, Repr

namespace Layout

/-- Changes the site at position `i`. -/
def updateSite (sites : Array Site) (i : Nat) (change : Site → Site) :
    Except Fault (Array Site) :=
  if i < sites.size then .ok (sites.modify i change) else .error .indexOutOfRange

/-- The positions from `start` on are protected, those from `stop` on no longer. A range that goes
beyond the code protects nothing. -/
def protect (sites : Array Site) (start stop : Nat) : Array Site :=
  if stop ≤ sites.size then
    (List.range' start (stop - start)).foldl
      (fun sites i => sites.modify i fun site => { site with inTry := true }) sites
  else sites

/-- A handler begins where its label is placed. -/
def enterHandler (labels : LabelMap) (sites : Array Site) (span : Span)
    (handler : Label × Option Descriptor) : Except Fault (Array Site × Span) := do
  let i ← labels.position handler.1
  let sites ← updateSite sites i fun site => { site with catches := site.catches ++ [handler.2] }
  return (sites, { span with handlers := span.handlers ++ [(i, handler.2)] })

/-- Enters a protected range with its handlers. -/
def enterRange (labels : LabelMap) (sites : Array Site) (spans : List Span) (r : TryRange) :
    Except Fault (Array Site × List Span) := do
  let start ← labels.position r.start
  let stop ← labels.position r.stop
  let (sites, span) ← r.catches.foldlM (fun (sites, span) => enterHandler labels sites span)
    (protect sites start stop, { start, stop, handlers := [] })
  return (sites, spans ++ [span])

/-- Execution may arrive at a label by a branch. -/
def enterBranch (labels : LabelMap) (sites : Array Site) (l : Label) :
    Except Fault (Array Site) := do
  updateSite sites (← labels.position l) fun site => { site with isTarget := true }

/-- Lays out a body, pass by pass. Every label that its code and ranges refer to must be placed and
be below the body's number of labels. -/
def ofBody (b : Body) : Except Fault Layout := do
  let labels ← LabelMap.ofBody b
  let blank : Array Site := Array.replicate b.code.length {}
  let (sites, spans) ← b.tries.foldlM (fun (sites, spans) => enterRange labels sites spans)
    (blank, [])
  -- the method is entered at its first position
  let sites := sites.modify 0 fun site => { site with isTarget := true }
  let sites ← b.code.foldlM (fun sites i => i.targets.foldlM (enterBranch labels) sites) sites
  let sites := sites.map fun site => if site.isHandler then { site with isTarget := true } else site
  return { labels, spans, sites }

/-- The number of positions. -/
def size (l : Layout) : Nat := l.sites.size

/-- The site at a position of the code. -/
def site (l : Layout) (i : Nat) : Except Fault Site :=
  match l.sites[i]? with
  | some s => .ok s
  | none => .error .indexOutOfRange

/-- The position has been marked as protected. -/
def isProtected (l : Layout) (i : Nat) : Bool := l.sites[i]?.any Site.inTry

/-- The handlers to which an exception raised at `i` may go, span by span. -/
def handlersCovering (l : Layout) (i : Nat) : List Nat :=
  (l.spans.filter (·.covers i)).flatMap Span.targets

end Layout

end BytecodeVerifier
