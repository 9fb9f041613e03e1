import BytecodeVerifier.RegType

/-!
# Type tables

A table numbers register types and classes in the order in which they are first entered. A handle is
such a number. Handles can be made up before the table has issued them: one that stands for nothing
so far reads as `RegType.unissued` or `ClassName.unissued`, later as what it was issued for.
So `TypeTable.type` is one-to-one on handles, and `TypeTable.intern` is its inverse.

Handles have 32 bits. A table is taken to have fewer than `2 ^ 32` types and fewer than `2 ^ 32`
classes, so that a handle can be any number here: that one more would share its handle with others
is left out.
-/

namespace BytecodeVerifier

/-- The register types and classes that have handles. A type that names a class by an unissued
handle is replaced as soon as the handle is issued. -/
structure TypeTable where
  types : Array RegType
  classes : Array Descriptor
  deriving DecidableEq, Repr

/-- The type with another class name. -/
def RegType.mapName (f : ClassName → ClassName) : RegType → RegType
  | .reference c precise => .reference (f c) precise
  | .unresolved c => .unresolved (f c)
  | .uninitialized c allocation => .uninitialized (f c) allocation
  | .uninitializedThis c => .uninitializedThis (f c)
  | t => t

namespace TypeTable

/-- The types that have the same handle in every table. -/
def fixedTypes : Array RegType :=
  #[.undefined, .conflict, .boolean, .byte, .char, .short, .int, .float, .low .long, .high .long,
    .low .double, .high .double, .low .constant, .high .constant, .unresolvedMerged, .zero]

/-- The classes that have the same handle in every table. -/
def fixedClasses : Array Descriptor := #[.object, .string, .classObject, .throwable]

/-- The table that has issued only the fixed handles. -/
def initial : TypeTable := ⟨fixedTypes, fixedClasses⟩

/-- The number of types with a handle. -/
def size (t : TypeTable) : Nat := t.types.size

/-- The class that a class handle stands for. -/
def className (t : TypeTable) (handle : Nat) : ClassName :=
  match t.classes[handle]? with
  | some d => .named d
  | none => .unissued handle

/-- The type that a handle stands for. -/
def type (t : TypeTable) (handle : Nat) : RegType :=
  match t.types[handle]? with
  | some x => x
  | none => .unissued handle

/-- The class name with its handle looked up, if it is one. -/
def resolveName (t : TypeTable) : ClassName → ClassName
  | .unissued handle => t.className handle
  | c => c

/-- The type with its handles looked up. -/
def resolve (t : TypeTable) : RegType → RegType
  | .unissued handle => t.type handle
  | x => x.mapName t.resolveName

/-- The handle of a class, issued now if it has none. -/
def internClass (t : TypeTable) (d : Descriptor) : Nat × TypeTable :=
  match t.classes.idxOf? d with
  | some handle => (handle, t)
  | none =>
    let t' : TypeTable := { t with classes := t.classes.push d }
    (t.classes.size, { t' with types := t.types.map (·.mapName t'.resolveName) })

/-- The table in which the class that a type names has a handle. -/
def withClassOf (t : TypeTable) (x : RegType) : TypeTable :=
  match x.descriptor? with
  | some d => (t.internClass d).2
  | none => t

/-- The handle of a type, issued now if it has none. The class that it names is entered first. -/
def intern (t : TypeTable) (x : RegType) : Nat × TypeTable :=
  match t.resolve x with
  | .unissued handle => (handle, t)
  | x =>
    let t := t.withClassOf x
    match t.types.idxOf? x with
    | some handle => (handle, t)
    | none => (t.types.size, { t with types := t.types.push x })

end TypeTable

end BytecodeVerifier
