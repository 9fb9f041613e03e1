import BytecodeVerifier.Descriptor

/-!
# Register types

What the verifier knows of the value in a register. The integral types form the chains
`boolean < byte < short < int` and `boolean < char < int`. A wide value takes two registers, a low
half and the matching high half. The constant `0` is also the null reference.
-/

namespace BytecodeVerifier

/-- A class as a register type names it. -/
inductive ClassName where
  | named (desc : Descriptor)
  /-- A handle number that stands for no class so far. -/
  | unissued (handle : Nat)
  deriving DecidableEq, Repr

/-- The descriptor of the class, if the name stands for one. -/
def ClassName.descriptor? : ClassName → Option Descriptor
  | .named d => some d
  | .unissued _ => none

/-- What a wide value may be. -/
inductive WideKind where
  | long
  | double
  /-- A wide constant serves as either. -/
  | constant
  deriving DecidableEq, Repr

/-- The type of a register. -/
inductive RegType where
  /-- Never written. -/
  | undefined
  /-- Written on some paths with values that do not go together. Unusable. -/
  | conflict
  /-- A handle number that stands for no type so far. It reads as a conflict. -/
  | unissued (handle : Nat)
  | boolean
  | byte
  | char
  | short
  | int
  | float
  /-- The low half of a wide value. -/
  | low (kind : WideKind)
  /-- The high half of a wide value. -/
  | high (kind : WideKind)
  /-- A number known to lie between `lo` and `hi`. It is precise if one instruction wrote it. -/
  | constant (lo hi : Int32) (precise : Bool)
  /-- An initialized object of a known class. It is precise if no subclass is possible. -/
  | reference (name : ClassName) (precise : Bool)
  /-- An object of a class that the pool does not know. -/
  | unresolved (name : ClassName)
  /-- One of several references, one of them to an unknown class. -/
  | unresolvedMerged
  /-- A new object before its constructor has run, and the position of its allocation. -/
  | uninitialized (name : ClassName) (allocation : Nat)
  /-- The receiver of a constructor before another constructor has run on it. -/
  | uninitializedThis (name : ClassName)
  deriving DecidableEq, Repr

namespace RegType

/-- The precise constant `0`, which is also the null reference. -/
def zero : RegType := .constant 0 0 true

/-- The type of a value of primitive type; for a wide one, of its low half. -/
def ofPrimitive : Primitive → RegType
  | .boolean => .boolean
  | .byte => .byte
  | .char => .char
  | .short => .short
  | .int => .int
  | .float => .float
  | .long => .low .long
  | .double => .low .double

/-- The bounds of a constant. -/
def range? : RegType → Option (Int32 × Int32)
  | .constant lo hi _ => some (lo, hi)
  | _ => none

/-- A constant whose bounds lie between `min` and `max`. -/
def isConstantWithin (t : RegType) (min max : Int32) : Bool :=
  match t.range? with
  | some (lo, hi) => min ≤ lo && hi ≤ max
  | none => false

/-- The register was never written. -/
def isUndefined (t : RegType) : Bool := t == .undefined

/-- The register cannot be used. -/
def isConflict : RegType → Bool
  | .conflict | .unissued _ => true
  | _ => false

/-- The value is a constant that takes one register. -/
def isConstant (t : RegType) : Bool := t.range?.isSome

/-- The value is a constant that one instruction wrote. -/
def isPreciseConstant : RegType → Bool
  | .constant _ _ precise => precise
  | _ => false

/-- The constant `0`, precise or not. -/
def isZero (t : RegType) : Bool := t.range? == some (0, 0)

/-- Usable as a `boolean`. -/
def fitsBoolean (t : RegType) : Bool := t == .boolean || t.isConstantWithin 0 1

/-- Usable as a `byte`. -/
def fitsByte (t : RegType) : Bool :=
  t == .byte || t == .boolean || t.isConstantWithin (-128) 127

/-- Usable as a `short`. -/
def fitsShort (t : RegType) : Bool :=
  t == .short || t == .byte || t == .boolean || t.isConstantWithin (-32768) 32767

/-- Usable as a `char`. -/
def fitsChar (t : RegType) : Bool := t == .char || t == .boolean || t.isConstantWithin 0 65535

/-- Usable as an `int`. -/
def fitsInt : RegType → Bool
  | .int | .constant _ _ _ | .byte | .short | .char | .boolean => true
  | _ => false

/-- Usable as a `float`. -/
def fitsFloat : RegType → Bool
  | .float | .constant _ _ _ => true
  | _ => false

/-- Usable as the low half of a `long`. -/
def fitsLongLow (t : RegType) : Bool := t == .low .long || t == .low .constant

/-- Usable as the high half of a `long`. -/
def fitsLongHigh (t : RegType) : Bool := t == .high .long || t == .high .constant

/-- Usable as the low half of a `double`. -/
def fitsDoubleLow (t : RegType) : Bool := t == .low .double || t == .low .constant

/-- Usable as the high half of a `double`. -/
def fitsDoubleHigh (t : RegType) : Bool := t == .high .double || t == .high .constant

/-- The register holds the low half of a wide value. -/
def isLowHalf : RegType → Bool
  | .low _ => true
  | _ => false

/-- The register holds the high half of a wide value. -/
def isHighHalf : RegType → Bool
  | .high _ => true
  | _ => false

/-- A primitive value in one register. -/
def isSingle : RegType → Bool
  | .constant _ _ _ | .boolean | .byte | .char | .short | .int | .float => true
  | _ => false

/-- A reference that is not known to be null. -/
def isNonNullReference : RegType → Bool
  | .reference _ _ | .unresolved _ | .unresolvedMerged => true
  | .uninitialized _ _ | .uninitializedThis _ => true
  | _ => false

/-- Any reference, null and uninitialized objects included. -/
def isReference (t : RegType) : Bool := t.isZero || t.isNonNullReference

/-- An object whose constructor has not run to its end. -/
def isUninitialized : RegType → Bool
  | .uninitialized _ _ | .uninitializedThis _ => true
  | _ => false

/-- The receiver of a constructor, before another constructor has run on it. -/
def isUninitializedThis : RegType → Bool
  | .uninitializedThis _ => true
  | _ => false

/-- A reference that the class pool cannot describe. -/
def isUnresolved : RegType → Bool
  | .unresolved _ | .unresolvedMerged => true
  | _ => false

/-- The class that a reference names. -/
def className? : RegType → Option ClassName
  | .reference c _ | .unresolved c | .uninitialized c _ | .uninitializedThis c => some c
  | _ => none

/-- The descriptor of the class that a reference names. -/
def descriptor? (t : RegType) : Option Descriptor := t.className?.bind ClassName.descriptor?

/-- The high half that belongs to a low half. -/
def highHalf? : RegType → Option RegType
  | .low k => some (.high k)
  | _ => none

/-- `t` and `hi` are the two halves of one wide value. -/
def pairsWith (t hi : RegType) : Bool := t.highHalf? == some hi

/-- A reference to an array that is not known to be null. -/
def isArray (t : RegType) : Bool := t.isNonNullReference && t.descriptor?.any Descriptor.isArray

/-- A reference to an array of references that is not known to be null. -/
def isObjectArray (t : RegType) : Bool :=
  t.isArray && (t.descriptor?.bind Descriptor.component?).any Descriptor.isReference

/-- An initialized object of exactly the root class as its static type. -/
def isObject : RegType → Bool
  | .reference c _ => c == .named .object
  | _ => false

/-- The new object of this class allocated at `allocation`. -/
def asUninitialized (t : RegType) (allocation : Nat) : RegType :=
  match t with
  | .reference c _ | .unresolved c => .uninitialized c allocation
  | _ => .conflict

/-- The receiver of a constructor of this class. -/
def asUninitializedThis : RegType → RegType
  | .reference c _ | .unresolved c => .uninitializedThis c
  | _ => .conflict

/-- An object of the root class. -/
def object : RegType := .reference (.named .object) false

/-- A string. -/
def string : RegType := .reference (.named .string) true

/-- A class object. -/
def classObject : RegType := .reference (.named .classObject) true

/-- Anything that can be thrown. -/
def throwable : RegType := .reference (.named .throwable) false

end RegType

end BytecodeVerifier
