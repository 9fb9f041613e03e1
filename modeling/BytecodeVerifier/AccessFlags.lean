/-!
# Access flags

The modifiers of classes, fields and methods, kept as the bit set that class files store.
-/

namespace BytecodeVerifier

/-- A modifier that the verifier knows by name. -/
inductive Modifier where
  | publicAccess | privateAccess | protectedAccess
  | static | final | synchronized | native | interface | abstract | initializer
  deriving DecidableEq, Repr

namespace Modifier

/-- The bit of a modifier. -/
def mask : Modifier → UInt32
  | .publicAccess => 0x1
  | .privateAccess => 0x2
  | .protectedAccess => 0x4
  | .static => 0x8
  | .final => 0x10
  | .synchronized => 0x20
  | .native => 0x100
  | .interface => 0x200
  | .abstract => 0x400
  | .initializer => 0x10000

/-- The word that is printed for a modifier. -/
def word : Modifier → String
  | .publicAccess => "public"
  | .privateAccess => "private"
  | .protectedAccess => "protected"
  | .static => "static"
  | .final => "final"
  | .synchronized => "synchronized"
  | .native => "native"
  | .interface => "interface"
  | .abstract => "abstract"
  | .initializer => "constructor"

/-- Every modifier, in the order in which they are printed. -/
def all : List Modifier :=
  [.publicAccess, .privateAccess, .protectedAccess, .static, .final, .synchronized, .native,
    .interface, .abstract, .initializer]

end Modifier

/-- A set of modifiers, one bit each. Bits without a name are kept. -/
structure AccessFlags where
  bits : UInt32
  deriving DecidableEq, Repr

namespace AccessFlags

/-- The set that holds exactly these modifiers. -/
def ofModifiers (ms : List Modifier) : AccessFlags := ⟨ms.foldl (fun b m => b ||| m.mask) 0⟩

/-- Every bit of `b` is set in `a`. -/
def contains (a b : AccessFlags) : Bool := a.bits &&& b.bits == b.bits

/-- The modifier is set. -/
def has (a : AccessFlags) (m : Modifier) : Bool := a.contains ⟨m.mask⟩

/-- The flags that are set in either. -/
def union (a b : AccessFlags) : AccessFlags := ⟨a.bits ||| b.bits⟩

/-- The words of the modifiers that are set, divided by blanks. -/
def render (a : AccessFlags) : String :=
  " ".intercalate ((Modifier.all.filter a.has).map Modifier.word)

end AccessFlags

end BytecodeVerifier
