import BytecodeVerifier.Code.Body
import BytecodeVerifier.Code.Fault

/-!
# Normal form of a body

In normal form a body begins with a label, no two labels stand side by side, and labels are numbered
`0, 1, 2, …` in the order in which they are placed. Every program point then has at most one name,
and the entry has one. `Body.normalize` brings a body into this form and keeps every program point
that is referred to.
-/

namespace BytecodeVerifier

/-- Code whose runs of labels are collapsed, and the new name of every label that was placed. The
references inside the code still have their old names. -/
structure Relabeling where
  code : List Instruction
  renamed : List (Label × Label)
  deriving Repr

namespace Relabeling

/-- Collapses each run of labels into one label. `count` labels are placed so far, and `atLabel`
says that the last of them stands right in front. -/
def collapse : (count : Nat) → (atLabel : Bool) → List Instruction → Relabeling
  | _, _, [] => ⟨[], []⟩
  | count, true, .label l :: rest =>
    let r := collapse count true rest
    ⟨r.code, (l, ⟨count - 1⟩) :: r.renamed⟩
  | count, false, .label l :: rest =>
    let r := collapse (count + 1) true rest
    ⟨.label ⟨count⟩ :: r.code, (l, ⟨count⟩) :: r.renamed⟩
  | count, _, i :: rest =>
    let r := collapse count false rest
    ⟨i :: r.code, r.renamed⟩

/-- The whole code, with a label placed at its entry. -/
def ofCode (code : List Instruction) : Relabeling :=
  let r := collapse 1 true code
  ⟨.label ⟨0⟩ :: r.code, r.renamed⟩

/-- The new name of a label. -/
def rename (r : Relabeling) (l : Label) : Except Fault Label :=
  match r.renamed.lookup l with
  | some l => .ok l
  | none => .error .referenceUnplaced

end Relabeling

namespace Body

/-- The body in normal form. A label that is placed twice, or referred to and never placed, is a
fault of whoever made the body. -/
def normalize (b : Body) : Except Fault Body := do
  let r := Relabeling.ofCode b.code
  let labelCount := r.code.countP Instruction.isLabel
  if Label.limit < labelCount then
    throw .labelCountOverflow
  if b.firstPlacedTwice?.isSome then
    throw .labelPlacedTwice
  let code ← r.code.mapM (Instruction.retarget r.rename)
  let tries ← b.tries.mapM (TryRange.retarget r.rename)
  let lines ← b.lines.mapM (LineAnchor.retarget r.rename)
  return { code, tries, lines, labelCount }

end Body

end BytecodeVerifier
