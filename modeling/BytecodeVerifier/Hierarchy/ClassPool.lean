import BytecodeVerifier.Hierarchy.ClassDef

/-!
# Class pools

A pool holds the classes that the verifier knows, ordered by descriptor. The links between classes
are names, and nothing keeps them from dangling or from running in a circle, so that every walk
along them stops after `ClassPool.walkLimit` classes.
-/

namespace BytecodeVerifier

/-- The known classes, ordered by descriptor. -/
structure ClassPool where
  classes : List ClassDef
  deriving DecidableEq, Repr

namespace ClassPool

/-- No walk along the links between classes meets more classes than this. -/
def walkLimit : Nat := 256

/-- The class with this descriptor. -/
def find? (p : ClassPool) (d : Descriptor) : Option ClassDef :=
  p.classes.find? fun c => c.desc == d

/-- The list with `c` at its place by descriptor, instead of any class of the same descriptor. -/
def insertSorted (c : ClassDef) : List ClassDef → List ClassDef
  | [] => [c]
  | d :: rest =>
    if c.desc = d.desc then c :: rest
    else if c.desc.text < d.desc.text then c :: d :: rest
    else d :: insertSorted c rest

/-- Adds a class, or replaces the one with its descriptor. -/
def insert (p : ClassPool) (c : ClassDef) : ClassPool := ⟨insertSorted c p.classes⟩

/-- The classes that every pool starts from. -/
def coreClasses : List ClassDef :=
  let visible := AccessFlags.ofModifiers [.publicAccess]
  let closed := AccessFlags.ofModifiers [.publicAccess, .final]
  let initializer := AccessFlags.ofModifiers [.publicAccess, .initializer]
  let noArguments := fun (ret : Descriptor) => ({ params := [], ret } : Prototype)
  [ ({ desc := .object, superclass := none } : ClassDef)
      |>.declareMethod constructorName (noArguments ⟨"V"⟩) initializer
      |>.declareMethod "hashCode" (noArguments ⟨"I"⟩) visible
      |>.declareMethod "equals" { params := [.object], ret := ⟨"Z"⟩ } visible
      |>.declareMethod "toString" (noArguments .string) visible,
    ({ desc := .string, superclass := some .object, flags := closed,
       interfaces := [.serializable] } : ClassDef)
      |>.declareMethod constructorName (noArguments ⟨"V"⟩) initializer
      |>.declareMethod "length" (noArguments ⟨"I"⟩) visible,
    { desc := .classObject, superclass := some .object, flags := closed },
    ({ desc := .throwable, superclass := some .object,
       interfaces := [.serializable] } : ClassDef)
      |>.declareMethod constructorName (noArguments ⟨"V"⟩) initializer,
    .ofInterface .cloneable,
    .ofInterface .serializable ]

/-- The pool of the core classes. -/
def core : ClassPool := coreClasses.foldl insert ⟨[]⟩

/-- The class `d` and its superclasses, nearest first, at most `n` of them. -/
def chain (p : ClassPool) : (n : Nat) → (d : Descriptor) → List ClassDef
  | 0, _ => []
  | n + 1, d =>
    match p.find? d with
    | none => []
    | some c =>
      match c.superclass with
      | none => [c]
      | some s => c :: p.chain n s

/-- The class `d` and its superclasses, nearest first. -/
def superclasses (p : ClassPool) (d : Descriptor) : List ClassDef := p.chain walkLimit d

/-- The descriptors met by a walk that follows `links` depth first, the last link of a class first.
`pending` are those still to be met, `seen` those met already, and `n` more may be met. A name that
the pool does not know is met like any other. -/
def walk (p : ClassPool) (links : ClassDef → List Descriptor) :
    (n : Nat) → (seen pending : List Descriptor) → List Descriptor
  | 0, _, _ => []
  | n + 1, seen, pending =>
    match pending.dropWhile seen.contains with
    | [] => []
    | d :: rest =>
      let next := (p.find? d).elim [] links
      d :: p.walk links n (d :: seen) (next.reverse ++ rest)

/-- The descriptors met from `d` on along `links`, `d` first. -/
def reach (p : ClassPool) (links : ClassDef → List Descriptor) (d : Descriptor) :
    List Descriptor :=
  p.walk links walkLimit [] [d]

/-- `sub` is `sup`, extends it or implements it. -/
def isSubclass (p : ClassPool) (sub sup : Descriptor) : Bool :=
  sub == sup ||
    (p.reach ClassDef.parents sub).any fun d =>
      (p.find? d).any fun c => c.parents.contains sup

/-- The descriptor names a known interface. -/
def isInterface (p : ClassPool) (d : Descriptor) : Bool := (p.find? d).any ClassDef.isInterface

/-- The pool can describe the type: a known class, or an array whose innermost element is primitive
or a known class. -/
def isResolvable (p : ClassPool) (d : Descriptor) : Bool :=
  match d.kind? with
  | some .classType => (p.find? d).isSome
  | some .arrayType => d.element.isPrimitive || (p.find? d.element).isSome
  | _ => false

end ClassPool

end BytecodeVerifier
