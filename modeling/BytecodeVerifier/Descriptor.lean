/-!
# Type descriptors

A descriptor is the compact text of a type: `I` for `int`, `Lpkg/Name;` for a class, `[[J` for an
array of arrays of `long`. Method bodies come from untrusted input, so a `Descriptor` may hold any
text at all, and `Descriptor.kind?` says which texts are well formed and what they name.
-/

namespace BytecodeVerifier

/-- The eight primitive value types. -/
inductive Primitive where
  | boolean | byte | char | short | int | long | float | double
  deriving DecidableEq, Repr

namespace Primitive

/-- The primitive type that a descriptor letter stands for. -/
def ofLetter? : Char → Option Primitive
  | 'Z' => some .boolean
  | 'B' => some .byte
  | 'C' => some .char
  | 'S' => some .short
  | 'I' => some .int
  | 'J' => some .long
  | 'F' => some .float
  | 'D' => some .double
  | _ => none

/-- `long` and `double` take two registers. -/
def isWide : Primitive → Bool
  | .long | .double => true
  | _ => false

/-- The width in bytes of an array element of this type. -/
def elementWidth : Primitive → UInt8
  | .boolean | .byte => 1
  | .char | .short => 2
  | .int | .float => 4
  | .long | .double => 8

end Primitive

/-- What a well-formed descriptor names. -/
inductive DescriptorKind where
  | void
  | primitive (type : Primitive)
  | classType
  | arrayType
  deriving DecidableEq, Repr

namespace DescriptorKind

/-- Classes and arrays are held by reference. -/
def isReference : DescriptorKind → Bool
  | .classType | .arrayType => true
  | _ => false

/-- The number of registers that a value of this kind takes. -/
def slots : DescriptorKind → Nat
  | .void => 0
  | .primitive p => if p.isWide then 2 else 1
  | .classType | .arrayType => 1

end DescriptorKind

/-- A type descriptor, well formed or not. -/
structure Descriptor where
  text : String
  deriving DecidableEq, Repr

namespace Descriptor

/-- An array type has at most this many dimensions. -/
def maxDimensions : Nat := 255

/-- The root of the class hierarchy. -/
def object : Descriptor := ⟨"Ljava/lang/Object;"⟩

/-- The class of strings. -/
def string : Descriptor := ⟨"Ljava/lang/String;"⟩

/-- The class of class objects. -/
def classObject : Descriptor := ⟨"Ljava/lang/Class;"⟩

/-- The root of everything that can be thrown. -/
def throwable : Descriptor := ⟨"Ljava/lang/Throwable;"⟩

/-- One of the two interfaces that every array implements. -/
def cloneable : Descriptor := ⟨"Ljava/lang/Cloneable;"⟩

/-- One of the two interfaces that every array implements. -/
def serializable : Descriptor := ⟨"Ljava/io/Serializable;"⟩

/-- The descriptor of the class with the binary name `name`, such as `java/lang/String`. -/
def ofClassName (name : String) : Descriptor := ⟨"L" ++ name ++ ";"⟩

/-- The descriptor with these characters. -/
def ofChars (cs : List Char) : Descriptor := ⟨String.ofList cs⟩

/-- The characters of a descriptor. -/
def chars (d : Descriptor) : List Char := d.text.toList

/-- A character that may stand in a segment of a class name. -/
def isSegmentChar (c : Char) : Bool :=
  c != ';' && c != '[' && c != '.' && c != '/' && c != ' '

/-- Whether the text completes a class descriptor: segments divided by `/` and closed by `;`.
`started` says that the segment being read already has a character. -/
def closesClass : (started : Bool) → List Char → Bool
  | started, [';'] => started
  | started, '/' :: rest => started && closesClass false rest
  | _, c :: rest => isSegmentChar c && closesClass true rest
  | _, [] => false

/-- The kind of a text that does not open an array. -/
def elementKind? : List Char → Option DescriptorKind
  | 'L' :: rest => if closesClass false rest then some .classType else none
  | ['V'] => some .void
  | [c] => (Primitive.ofLetter? c).map .primitive
  | _ => none

/-- The kind of the array with `dims` dimensions over the element text `element`. -/
def arrayKind? (dims : Nat) (element : List Char) : Option DescriptorKind :=
  if maxDimensions < dims then none
  else
    match elementKind? element with
    | none | some .void => none
    | some _ => some .arrayType

/-- The number of brackets that open the descriptor. -/
def dimensions (d : Descriptor) : Nat := (d.chars.takeWhile (· == '[')).length

/-- The descriptor without its opening brackets: the innermost element type of an array. -/
def element (d : Descriptor) : Descriptor := ofChars (d.chars.dropWhile (· == '['))

/-- What the descriptor names, or nothing if it is malformed. -/
def kind? (d : Descriptor) : Option DescriptorKind :=
  match d.chars with
  | '[' :: _ => arrayKind? d.dimensions (d.chars.dropWhile (· == '['))
  | cs => elementKind? cs

/-- The descriptor is well formed. -/
def isValid (d : Descriptor) : Bool := d.kind?.isSome

/-- The descriptor is that of no value. -/
def isVoid (d : Descriptor) : Bool := d.kind? == some .void

/-- The descriptor is that of a primitive type. -/
def isPrimitive (d : Descriptor) : Bool :=
  match d.kind? with
  | some (.primitive _) => true
  | _ => false

/-- A value of the type takes two registers. -/
def isWide (d : Descriptor) : Bool :=
  match d.kind? with
  | some (.primitive p) => p.isWide
  | _ => false

/-- The descriptor is that of a class or an array. -/
def isReference (d : Descriptor) : Bool := d.kind?.any DescriptorKind.isReference

/-- The descriptor is that of an array. -/
def isArray (d : Descriptor) : Bool := d.kind? == some .arrayType

/-- The descriptor is that of a class. -/
def isClass (d : Descriptor) : Bool := d.kind? == some .classType

/-- The number of registers that a value of this type takes. A malformed descriptor counts as one
register, so that argument counts are defined before signatures are checked. -/
def slots (d : Descriptor) : Nat := (d.kind?.map DescriptorKind.slots).getD 1

/-- The type of an array's elements, one dimension down. -/
def component? (d : Descriptor) : Option Descriptor :=
  if d.isArray then some (ofChars d.chars.tail) else none

/-- The type of arrays whose elements have type `d`. -/
def arrayOf (d : Descriptor) : Descriptor := ⟨"[" ++ d.text⟩

/-- The package of the (innermost) class: what stands before its last `/`, if it has one. -/
def package (d : Descriptor) : List Char :=
  ((d.element.chars.reverse.dropWhile (· != '/')).drop 1).reverse

/-- Why a text is no descriptor. -/
inductive ParseError where
  | empty
  | tooManyDimensions (text : String)
  | malformed (text : String)
  deriving DecidableEq, Repr

/-- The wording of a parse error. -/
def ParseError.message : ParseError → String
  | .empty => "empty type descriptor"
  | .tooManyDimensions text =>
    "type descriptor `" ++ text ++ "` exceeds " ++ toString maxDimensions ++ " array dimensions"
  | .malformed text => "malformed type descriptor `" ++ text ++ "`"

/-- Accepts exactly the well-formed descriptors. -/
def parse (text : String) : Except ParseError Descriptor :=
  let d : Descriptor := ⟨text⟩
  if text = "" then .error .empty
  else if maxDimensions < d.dimensions then .error (.tooManyDimensions text)
  else if d.isValid then .ok d
  else .error (.malformed text)

end Descriptor

end BytecodeVerifier
