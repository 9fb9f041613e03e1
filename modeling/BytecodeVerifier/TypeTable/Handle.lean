import BytecodeVerifier.RegType.Lattice
import BytecodeVerifier.TypeTable

/-!
# Handles

Work on types that are known by their handles only. Two handles are compared as numbers. To know
more of a type one has to look it up in the table, and a type that is new has to be entered before
it has a handle. Each operation here is the operation of the same name on register types.
-/

namespace BytecodeVerifier

/-- The number under which a table keeps a register type. -/
structure Handle where
  index : Nat
  deriving DecidableEq, Repr

/-- The handle of a type that has the same one in every table. -/
def Handle.fixed (x : RegType) : Handle := ⟨TypeTable.fixedTypes.idxOf x⟩

/-- Work with a table, which may issue handles on the way. -/
abbrev Lookup := StateM TypeTable

namespace Lookup

/-- The type that a handle stands for. -/
def type (h : Handle) : Lookup RegType := return (← get).type h.index

/-- The handle of a type, issued now if it has none. -/
def intern (x : RegType) : Lookup Handle :=
  modifyGet fun t =>
    let (index, t) := t.intern x
    (⟨index⟩, t)

/-- The high half that belongs to a low half. -/
def highHalf? (h : Handle) : Lookup (Option Handle) := do
  match (← type h).highHalf? with
  | some hi => return some (← intern hi)
  | none => return none

/-- The new object of this class allocated at `allocation`. -/
def asUninitialized (h : Handle) (allocation : Nat) : Lookup Handle := do
  match ← type h with
  | .reference c _ | .unresolved c => intern (.uninitialized c allocation)
  | _ => return .fixed .conflict

/-- The receiver of a constructor of this class. -/
def asUninitializedThis (h : Handle) : Lookup Handle := do
  match ← type h with
  | .reference c _ | .unresolved c => intern (.uninitializedThis c)
  | _ => return .fixed .conflict

variable (p : ClassPool)

/-- A reference to `d`, or a conflict if `d` is not the descriptor of a class or an array. -/
def ofReference (d : Descriptor) (precise : Bool) : Lookup Handle :=
  if !d.isReference then return .fixed .conflict
  else if p.isResolvable d then intern (.reference (.named d) precise)
  else intern (.unresolved (.named d))

/-- A value declared with type `d`, the low half for a wide one; a conflict for a descriptor that is
malformed or void. -/
def ofDescriptor (d : Descriptor) (precise : Bool) : Lookup Handle :=
  match d.kind? with
  | none | some .void => return .fixed .conflict
  | some (.primitive t) => return .fixed (.ofPrimitive t)
  | some .classType | some .arrayType => ofReference p d precise

/-- The object after its constructor has run. -/
def initialized (h : Handle) : Lookup Handle := do
  match ← type h with
  | .uninitialized (.named d) _ => ofReference p d true
  | .uninitializedThis (.named d) => ofReference p d false
  | _ => return .fixed .conflict

/-- The type of the elements of an array, or a conflict. -/
def component (h : Handle) : Lookup Handle := do
  match ← type h with
  | .reference (.named d) _ | .unresolved (.named d) =>
    match d.component? with
    | some c => ofDescriptor p c false
    | none => return .fixed .conflict
  | _ => return .fixed .conflict

/-- The merge of two references `a` and `b`, which stand for `x` and `y`. -/
def mergeReferences (a b : Handle) (x y : RegType) : Lookup Handle :=
  if x.isUninitialized || y.isUninitialized then return .fixed .conflict
  else if x.isZero then return b
  else if y.isZero then return a
  else if x.isObject || y.isObject then intern .object
  else if x.isUnresolved || y.isUnresolved then return .fixed .unresolvedMerged
  else
    match x.descriptor?, y.descriptor? with
    | some dx, some dy => intern (.reference (.named (p.join dx dy)) false)
    | _, _ => return .fixed .conflict

/-- The merge of two types that are not both constants, both of them written. -/
def mergeWritten (a b : Handle) (x y : RegType) : Lookup Handle :=
  if x.fitsInt && y.fitsInt then return .fixed (RegType.mergeIntegral x y)
  else if x.fitsFloat && y.fitsFloat then return .fixed .float
  else if x.fitsLongLow && y.fitsLongLow then return .fixed (.low .long)
  else if x.fitsLongHigh && y.fitsLongHigh then return .fixed (.high .long)
  else if x.fitsDoubleLow && y.fitsDoubleLow then return .fixed (.low .double)
  else if x.fitsDoubleHigh && y.fitsDoubleHigh then return .fixed (.high .double)
  else if x.isReference && y.isReference then mergeReferences p a b x y
  else return .fixed .conflict

/-- The type of a register where it has type `a` on one path and `b` on another. -/
def merge (a b : Handle) : Lookup Handle := do
  if a = b then
    return a
  let x ← type a
  let y ← type b
  if x.isConflict || y.isConflict || x.isUndefined || y.isUndefined then
    return .fixed .conflict
  match x.range?, y.range? with
  | some (xlo, xhi), some (ylo, yhi) => intern (.constant (min xlo ylo) (max xhi yhi) false)
  | _, _ => mergeWritten p a b x y

/-- A value of type `rhs` may be used where `lhs` is expected. -/
def isAssignable (lhs rhs : Handle) : Lookup Bool := do
  if lhs = rhs then
    return true
  return (← type lhs).isAssignable p (← type rhs)

end Lookup

end BytecodeVerifier
