import BytecodeVerifier.Code.Body

/-!
# Assembling a body

A body is assembled instruction by instruction, with labels handed out before they are placed.
`Assembler.finish` accepts a body in which no label is placed twice and every label referred to is
placed.
-/

namespace BytecodeVerifier

/-- A body under construction. -/
structure Assembler where
  body : Body := {}
  deriving Repr

/-- Why a body cannot be finished. -/
inductive AssemblyError where
  | duplicateLabel (label : Label)
  | unplacedLabel (label : Label)
  deriving DecidableEq, Repr

/-- The wording of an error. -/
def AssemblyError.message : AssemblyError → String
  | .duplicateLabel l => "label " ++ l.render ++ " was placed more than once"
  | .unplacedLabel l => "label " ++ l.render ++ " was referenced but never placed"

namespace Assembler

/-- Hands out a label that is not placed yet. When the numbers run out, the last one is handed out
again. -/
def newLabel (a : Assembler) : Label × Assembler :=
  let count := a.body.labelCount
  (⟨count⟩, ⟨{ a.body with labelCount := if count < Label.limit then count + 1 else count }⟩)

/-- Appends an instruction as it is. -/
def push (a : Assembler) (i : Instruction) : Assembler :=
  ⟨{ a.body with code := a.body.code ++ [i] }⟩

/-- Places a label at the current point. -/
def place (a : Assembler) (l : Label) : Assembler := a.push (.label l)

/-- Hands out a label and places it at the current point. -/
def here (a : Assembler) : Label × Assembler :=
  let (l, a) := a.newLabel
  (l, a.place l)

/-- Appends an instruction that has registers only. -/
def plain (a : Assembler) (op : Opcode) (regs : List Register) : Assembler :=
  a.push (.plain op regs)

/-- Appends an instruction that has a constant. -/
def withConstant (a : Assembler) (op : Opcode) (regs : List Register) (c : Constant) : Assembler :=
  a.push (.withConstant op regs c)

/-- Appends an instruction that names a label. -/
def branch (a : Assembler) (op : Opcode) (regs : List Register) (l : Label) : Assembler :=
  a.push (.withTarget op regs l)

/-- Appends a jump to a label. -/
def goto (a : Assembler) (l : Label) : Assembler := a.branch .goto [] l

/-- Appends a switch on `reg` with these cases. -/
def switch (a : Assembler) (op : Opcode) (reg : Register) (cases : List (Int32 × Label)) :
    Assembler :=
  a.push (.withTable op [reg] (cases.map Prod.fst) (cases.map Prod.snd))

/-- Appends a constant that takes one register. -/
def constInt (a : Assembler) (dst : Register) (value : Int32) : Assembler :=
  a.withConstant .constInt [dst] (.int value)

/-- Appends a constant that takes two registers. -/
def constWide (a : Assembler) (dst : Register) (value : Int64) : Assembler :=
  a.withConstant .constWide [dst] (.wide value)

/-- Declares a protected range. -/
def tryRange (a : Assembler) (r : TryRange) : Assembler :=
  ⟨{ a.body with tries := a.body.tries ++ [r] }⟩

/-- Records the source line of a program point. -/
def line (a : Assembler) (anchor : LineAnchor) : Assembler :=
  ⟨{ a.body with lines := a.body.lines ++ [anchor] }⟩

/-- The body, if every label is placed at most once and every label referred to is placed. -/
def finish (a : Assembler) : Except AssemblyError Body :=
  match a.body.firstPlacedTwice? with
  | some l => .error (.duplicateLabel l)
  | none =>
    match a.body.references.find? (fun l => !a.body.placed.contains l) with
    | some l => .error (.unplacedLabel l)
    | none => .ok a.body

end Assembler

end BytecodeVerifier
