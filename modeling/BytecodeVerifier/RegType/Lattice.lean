import BytecodeVerifier.Hierarchy.ClassPool
import BytecodeVerifier.RegType

/-!
# Merging and assigning register types

`RegType.merge` is the type of a register where two paths meet, and `RegType.isAssignable` says
whether a value may be used where another type is expected. References are compared along the class
hierarchy of a pool. A class that the pool does not know is let through, since the check is repeated
when the code runs.
-/

namespace BytecodeVerifier

namespace ClassPool

/-- The closest common superclass of two classes, neither of them an array. An interface and a class
that does not implement it only have the root class in common. -/
def joinElements (p : ClassPool) (a b : Descriptor) : Descriptor :=
  if p.isSubclass b a then a
  else if p.isSubclass a b then b
  else if p.isInterface a || p.isInterface b then .object
  else
    let ancestors := (p.superclasses a).map ClassDef.desc
    (((p.superclasses b).map ClassDef.desc).find? ancestors.contains).getD .object

/-- The join of two types, of which the first has at most `dims` dimensions. -/
def joinUpTo (p : ClassPool) (dims : Nat) (a b : Descriptor) : Descriptor :=
  if a = b then a
  else
    match a.component?, b.component?, dims with
    | some ca, some cb, dims + 1 =>
      if ca.isReference && cb.isReference then (p.joinUpTo dims ca cb).arrayOf else .object
    | none, none, _ => p.joinElements a b
    | _, _, _ => .object

/-- The closest type to which both reference types can be assigned. Arrays of references are joined
element by element; any other two arrays only have the root class in common. -/
def join (p : ClassPool) (a b : Descriptor) : Descriptor := p.joinUpTo a.dimensions a b

/-- `isAssignable` for a type `lhs` of at most `dims` dimensions. -/
def isAssignableUpTo (p : ClassPool) (dims : Nat) (lhs rhs : Descriptor) : Bool :=
  if lhs = rhs || lhs = .object then true
  else
    match lhs.component?, rhs.component?, dims with
    | some cl, some cr, dims + 1 =>
      if cl.isPrimitive || cr.isPrimitive then cl == cr else p.isAssignableUpTo dims cl cr
    | none, some _, _ => lhs == .cloneable || lhs == .serializable
    | none, none, _ => p.isInterface lhs || p.isSubclass rhs lhs
    | some _, _, _ => false

/-- An object of type `rhs` may be used where `lhs` is expected. Every object may be used as an
interface. -/
def isAssignable (p : ClassPool) (lhs rhs : Descriptor) : Bool :=
  p.isAssignableUpTo lhs.dimensions lhs rhs

end ClassPool

namespace RegType

variable (p : ClassPool)

/-- A reference to `d`, or a conflict if `d` is not the descriptor of a class or an array. -/
def ofReference (d : Descriptor) (precise : Bool) : RegType :=
  if !d.isReference then .conflict
  else if p.isResolvable d then .reference (.named d) precise
  else .unresolved (.named d)

/-- A value declared with type `d`, the low half for a wide one; a conflict for a descriptor that is
malformed or void. -/
def ofDescriptor (d : Descriptor) (precise : Bool) : RegType :=
  match d.kind? with
  | none | some .void => .conflict
  | some (.primitive t) => .ofPrimitive t
  | some .classType | some .arrayType => ofReference p d precise

/-- The object after its constructor has run. A new object is exactly of its class; the receiver of
a constructor may be of a subclass. -/
def initialized : RegType → RegType
  | .uninitialized (.named d) _ => ofReference p d true
  | .uninitializedThis (.named d) => ofReference p d false
  | _ => .conflict

/-- The type of the elements of an array, or a conflict. -/
def component : RegType → RegType
  | .reference (.named d) _ | .unresolved (.named d) =>
    match d.component? with
    | some c => ofDescriptor p c false
    | none => .conflict
  | _ => .conflict

/-- The merge of two integral types that are not both constants. -/
def mergeIntegral (a b : RegType) : RegType :=
  if a.fitsBoolean && b.fitsBoolean then .boolean
  else if a.fitsByte && b.fitsByte then .byte
  else if a.fitsShort && b.fitsShort then .short
  else if a.fitsChar && b.fitsChar then .char
  else .int

/-- The merge of two references. -/
def mergeReferences (a b : RegType) : RegType :=
  if a.isUninitialized || b.isUninitialized then .conflict
  else if a.isZero then b
  else if b.isZero then a
  else if a.isObject || b.isObject then .object
  else if a.isUnresolved || b.isUnresolved then .unresolvedMerged
  else
    match a.descriptor?, b.descriptor? with
    | some da, some db => .reference (.named (p.join da db)) false
    | _, _ => .conflict

/-- The merge of two types that are not both constants, both of them written. -/
def mergeWritten (a b : RegType) : RegType :=
  if a.fitsInt && b.fitsInt then mergeIntegral a b
  else if a.fitsFloat && b.fitsFloat then .float
  else if a.fitsLongLow && b.fitsLongLow then .low .long
  else if a.fitsLongHigh && b.fitsLongHigh then .high .long
  else if a.fitsDoubleLow && b.fitsDoubleLow then .low .double
  else if a.fitsDoubleHigh && b.fitsDoubleHigh then .high .double
  else if a.isReference && b.isReference then mergeReferences p a b
  else .conflict

/-- The type of a register where it has type `a` on one path and `b` on another. -/
def merge (a b : RegType) : RegType :=
  if a = b then a
  else if a.isConflict || b.isConflict || a.isUndefined || b.isUndefined then .conflict
  else
    match a.range?, b.range? with
    | some (alo, ahi), some (blo, bhi) => .constant (min alo blo) (max ahi bhi) false
    | _, _ => mergeWritten p a b

/-- A reference of type `rhs` may be used where the reference type `lhs` is expected. -/
def isReferenceAssignable (lhs rhs : RegType) : Bool :=
  if rhs.isZero then true
  else if !rhs.isReference then false
  else if lhs.isUninitialized || rhs.isUninitialized then false
  else if lhs.isUnresolved || rhs.isUnresolved then true
  else
    match lhs.descriptor?, rhs.descriptor? with
    | some dl, some dr => p.isAssignable dl dr
    | _, _ => false

/-- A value of type `rhs` may be used where `lhs` is expected. -/
def isAssignable (lhs rhs : RegType) : Bool :=
  if lhs = rhs then true
  else
    match lhs with
    | .undefined | .conflict | .unissued _ | .low .constant | .high .constant => false
    | .boolean => rhs.fitsBoolean
    | .byte => rhs.fitsByte
    | .short => rhs.fitsShort
    | .char => rhs.fitsChar
    | .int => rhs.fitsInt
    | .float => rhs.fitsFloat
    | .low .long => rhs.fitsLongLow
    | .high .long => rhs.fitsLongHigh
    | .low .double => rhs.fitsDoubleLow
    | .high .double => rhs.fitsDoubleHigh
    | .constant lo hi _ => rhs.isConstantWithin lo hi
    | .unresolvedMerged => rhs.isReference
    | .reference _ _ | .unresolved _ | .uninitialized _ _ | .uninitializedThis _ =>
      isReferenceAssignable p lhs rhs

end RegType

end BytecodeVerifier
