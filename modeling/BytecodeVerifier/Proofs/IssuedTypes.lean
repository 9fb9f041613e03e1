import BytecodeVerifier.Proofs.Commutativity

/-!
# Types that agree with the pool

A type in a table makes a statement about the pool: a reference is to something that the pool can
describe, an unresolved one to something that it cannot (`RegType.Faithful`). Most requests for a
type look the descriptor up. A merge does not. It enters a reference to the join of two types as it
is, which is right because the pool knows the join of two classes that it knows
(`ClassPool.isResolvable_join`).

`Lookup.Issues` collects the handles that one gets by making any requests, in any order, on handles
that one has already. All of them stand for faithful types (`Lookup.faithful_of_issues`).
-/

namespace BytecodeVerifier

namespace ClassPool

variable {p : ClassPool} {a b d : Descriptor}

/-! ## What a pool knows -/

/-- A pool starts from the core classes, and others are added. -/
inductive Built : ClassPool → Prop
  | core : Built core
  | insert {p : ClassPool} (c : ClassDef) : Built p → Built (p.insert c)

theorem find?_insert (p : ClassPool) (c : ClassDef) (d : Descriptor) :
    (p.insert c).find? d = if c.desc = d then some c else p.find? d := by
  unfold find? insert
  dsimp only
  induction p.classes with
  | nil => by_cases hd : c.desc = d <;> simp [insertSorted, hd]
  | cons e rest ih =>
    unfold insertSorted
    split
    · rename_i hsame
      by_cases hd : c.desc = d <;> simp [← hsame, hd]
    split
    · by_cases hd : c.desc = d <;> simp [hd]
    · rename_i hne _
      by_cases he : e.desc = d
      · have hd : c.desc ≠ d := fun hd => hne (hd.trans he.symm)
        simp [he, hd]
      · simp [he, ih]

/-- A class can be replaced, but not taken away. -/
theorem Built.isSome_find? (hp : p.Built) (hd : (ClassPool.core.find? d).isSome = true) :
    (p.find? d).isSome = true := by
  induction hp with
  | core => exact hd
  | insert c _ ih =>
    rw [find?_insert]
    split
    · rfl
    · exact ih

/-! ## What a pool can describe -/

theorem isResolvable_of_isClass (hd : d.isClass = true) :
    p.isResolvable d = (p.find? d).isSome := by
  have hkind : d.kind? = some .classType := by simpa [Descriptor.isClass] using hd
  simp [isResolvable, hkind]

theorem isReference_of_isResolvable (hd : p.isResolvable d = true) : d.isReference = true := by
  unfold isResolvable at hd
  unfold Descriptor.isReference
  cases hkind : d.kind? with
  | none => simp [hkind] at hd
  | some k => cases k <;> simp_all [DescriptorKind.isReference]

/-- The pool can describe an array of references if it can describe the references. -/
theorem isResolvable_arrayOf (harray : d.arrayOf.isArray = true) (hd : d.isReference = true) :
    p.isResolvable d.arrayOf = p.isResolvable d := by
  have hkind : d.arrayOf.kind? = some .arrayType := by simpa [Descriptor.isArray] using harray
  rcases Descriptor.isReference_iff.1 hd with hclass | hdArray
  · have hdKind : d.kind? = some .classType := by simpa [Descriptor.isClass] using hclass
    have helement := (Descriptor.isClass_spec hclass).2.2
    simp [isResolvable, hkind, hdKind, helement, Descriptor.isPrimitive]
  · have hdKind : d.kind? = some .arrayType := by simpa [Descriptor.isArray] using hdArray
    simp [isResolvable, hkind, hdKind]

/-- The join of two known classes is known, if only because the root is. -/
theorem isSome_find?_joinElements (hroot : (p.find? .object).isSome = true)
    (ha : (p.find? a).isSome = true) (hb : (p.find? b).isSome = true) :
    (p.find? (p.joinElements a b)).isSome = true := by
  have hjoined := p.joined_joinElements a b
  generalize p.joinElements a b = r at hjoined
  cases hjoined with
  | left => exact ha
  | right => exact hb
  | interface | root => exact hroot
  | common hfind =>
    obtain ⟨c, hc, rfl⟩ := List.mem_map.1 (List.mem_of_find?_eq_some hfind)
    rw [(mem_chain hc).1]
    rfl

/-- A join goes through as many dimensions as both sides have, and it has no more of them. This
    leaves room to make an array of it again on the way back. -/
private theorem isResolvable_joinUpTo (hnamed : p.Named) (hroot : (p.find? .object).isSome = true)
    (dims : Nat) (a b : Descriptor) (ha : p.isResolvable a = true) (hb : p.isResolvable b = true) :
    p.isResolvable (p.joinUpTo dims a b) = true ∧
      (p.joinUpTo dims a b).dimensions ≤ a.dimensions := by
  have hobject : ∀ a : Descriptor, p.isResolvable .object = true ∧
      Descriptor.object.dimensions ≤ a.dimensions := by
    intro a
    rw [isResolvable_of_isClass Descriptor.isClass_object,
      (Descriptor.isClass_spec Descriptor.isClass_object).2.1]
    exact ⟨hroot, Nat.zero_le _⟩
  fun_induction joinUpTo p dims a b with
  | case1 => exact ⟨ha, Nat.le_refl _⟩
  | case2 a b _ ca cb dims hcb hca href ih =>
    obtain ⟨haArray, rfl⟩ := Descriptor.component?_eq_some_iff.1 hca
    obtain ⟨hbArray, rfl⟩ := Descriptor.component?_eq_some_iff.1 hcb
    rw [Bool.and_eq_true] at href
    rw [isResolvable_arrayOf haArray href.1] at ha
    rw [isResolvable_arrayOf hbArray href.2] at hb
    obtain ⟨hjoin, hdims⟩ := ih ha hb
    have hjoinRef := isReference_of_isResolvable hjoin
    have hroom := Descriptor.dimensions_lt_of_isArray haArray
    have harray := Descriptor.isArray_arrayOf hjoinRef (by omega)
    rw [isResolvable_arrayOf harray hjoinRef, Descriptor.dimensions_arrayOf,
      Descriptor.dimensions_arrayOf]
    exact ⟨hjoin, by omega⟩
  | case3 a => exact hobject a
  | case4 _ a b _ hcb hca =>
    -- neither is an array, so that both are classes
    rw [Descriptor.component?_eq_none_iff] at hca hcb
    have haRef := Descriptor.isReference_iff.1 (isReference_of_isResolvable ha)
    have hbRef := Descriptor.isReference_iff.1 (isReference_of_isResolvable hb)
    rw [isResolvable_of_isClass (haRef.resolve_right (by simp [hca]))] at ha
    rw [isResolvable_of_isClass (hbRef.resolve_right (by simp [hcb]))] at hb
    have hknown := isSome_find?_joinElements hroot ha hb
    obtain ⟨c, hc⟩ := Option.isSome_iff_exists.1 hknown
    obtain ⟨hmem, hdesc⟩ := find?_spec hc
    have hjoin := hnamed c hmem
    rw [hdesc] at hjoin
    rw [isResolvable_of_isClass hjoin, (Descriptor.isClass_spec hjoin).2.1]
    exact ⟨hknown, Nat.zero_le _⟩
  | case5 _ a => exact hobject a

theorem isResolvable_join (hnamed : p.Named) (hroot : (p.find? .object).isSome = true)
    (ha : p.isResolvable a = true) (hb : p.isResolvable b = true) :
    p.isResolvable (p.join a b) = true :=
  (isResolvable_joinUpTo hnamed hroot _ a b ha hb).1

end ClassPool

namespace RegType

variable {p : ClassPool} {x y : RegType}

/-! ## Faithful types -/

/-- What the type says of the pool is so, the class that it names is well-formed, and the bounds of
    a constant are in order. -/
def Faithful (p : ClassPool) : RegType → Prop
  | .unissued _ => False
  | .constant lo hi _ => lo ≤ hi
  | .reference c _ => ∃ d, c = .named d ∧ d.isReference = true ∧ p.isResolvable d = true
  | .unresolved c => ∃ d, c = .named d ∧ d.isReference = true ∧ p.isResolvable d = false
  | .uninitialized c _ | .uninitializedThis c => ∃ d, c = .named d ∧ d.isReference = true
  | _ => True

theorem faithful_of_isFixed (hx : x.isFixed = true) : x.Faithful p := by
  cases x <;> simp_all [isFixed, Faithful]

theorem faithful_of_mem_fixedTypes (hx : x ∈ TypeTable.fixedTypes) : x.Faithful p := by
  have hfixed : ∀ x ∈ TypeTable.fixedTypes, x = .zero ∨ x.isFixed = true := by decide
  rcases hfixed x hx with rfl | hx
  · exact Int32.le_refl 0
  · exact faithful_of_isFixed hx

theorem faithful_constant (value : Int32) (precise : Bool) :
    (constant value value precise).Faithful p :=
  Int32.le_refl value

theorem faithful_ofReference (p : ClassPool) (d : Descriptor) (precise : Bool) :
    (ofReference p d precise).Faithful p := by
  unfold ofReference
  split
  · trivial
  rename_i href
  have href : d.isReference = true := by simpa using href
  split
  · rename_i hresolvable
    exact ⟨d, rfl, href, hresolvable⟩
  · rename_i hresolvable
    exact ⟨d, rfl, href, by simpa using hresolvable⟩

theorem faithful_ofDescriptor (p : ClassPool) (d : Descriptor) (precise : Bool) :
    (ofDescriptor p d precise).Faithful p := by
  unfold ofDescriptor
  split
  · trivial
  · trivial
  · rename_i k _
    exact faithful_of_mem_fixedTypes (Lookup.ofPrimitive_mem_fixedTypes k)
  · exact faithful_ofReference p d precise
  · exact faithful_ofReference p d precise

/-- A reference to a core class is right in every pool. -/
theorem faithful_of_core {d : Descriptor} (hp : p.Built) (hd : d.isClass = true)
    (hcore : (ClassPool.core.find? d).isSome = true) (precise : Bool) :
    (reference (.named d) precise).Faithful p := by
  refine ⟨d, rfl, Descriptor.isReference_iff.2 (.inl hd), ?_⟩
  rw [ClassPool.isResolvable_of_isClass hd]
  exact hp.isSome_find? hcore

theorem faithful_object (hp : p.Built) : object.Faithful p :=
  faithful_of_core hp (by decide) (by decide +kernel) false

theorem Faithful.asUninitialized (hx : x.Faithful p) (allocation : Nat) :
    (x.asUninitialized allocation).Faithful p := by
  cases x with
  | reference c _ | unresolved c =>
    obtain ⟨d, hd, href, -⟩ := hx
    exact ⟨d, hd, href⟩
  | _ => trivial

theorem Faithful.asUninitializedThis (hx : x.Faithful p) : x.asUninitializedThis.Faithful p := by
  cases x with
  | reference c _ | unresolved c =>
    obtain ⟨d, hd, href, -⟩ := hx
    exact ⟨d, hd, href⟩
  | _ => trivial

theorem faithful_initialized (p : ClassPool) (x : RegType) : (x.initialized p).Faithful p := by
  unfold initialized
  split
  · exact faithful_ofReference p _ _
  · exact faithful_ofReference p _ _
  · trivial

theorem faithful_component (p : ClassPool) (x : RegType) : (x.component p).Faithful p := by
  cases x with
  | reference c _ | unresolved c =>
    cases c with
    | unissued => trivial
    | named d =>
      unfold component
      dsimp only
      cases d.component? with
      | none => trivial
      | some c => exact faithful_ofDescriptor p c false
  | _ => trivial

theorem Faithful.ordered (hx : x.Faithful p) : x.Ordered := by
  cases x with
  | constant => exact hx
  | _ => trivial

/-- Nothing that a merge gives has to be looked up. -/
theorem Faithful.merge (hp : p.Built) (hnamed : p.Named) (hx : x.Faithful p)
    (hy : y.Faithful p) : (x.merge p y).Faithful p := by
  have hordered := Ordered.merge (p := p) hx.ordered hy.ordered
  have hmerged := merged_merge p x y
  generalize x.merge p y = z at hordered hmerged
  cases hmerged with
  | left => exact hx
  | right => exact hy
  | fixed hz => exact faithful_of_isFixed hz
  | constant => exact hordered
  | object => exact faithful_object hp
  | join hxRef hyRef =>
    subst hxRef hyRef
    obtain ⟨da, hda, -, ha⟩ := hx
    obtain ⟨db, hdb, -, hb⟩ := hy
    cases hda
    cases hdb
    have hroot := hp.isSome_find? (d := .object) (by decide +kernel)
    have hjoin := ClassPool.isResolvable_join hnamed hroot ha hb
    exact ⟨_, rfl, ClassPool.isReference_of_isResolvable hjoin, hjoin⟩

end RegType

/-! ## Requests -/

/-- What one can ask for to get the handle of a type. -/
inductive TypeRequest where
  | reference (d : Descriptor) (precise : Bool)
  | descriptor (d : Descriptor) (precise : Bool)
  | object
  | string
  | classObject
  | throwable
  | constant (value : Int32) (precise : Bool)
  | uninitialized (h : Handle) (allocation : Nat)
  | uninitializedThis (h : Handle)
  | initialized (h : Handle)
  | component (h : Handle)
  | merge (a b : Handle)

namespace TypeRequest

/-- The handles that have to be there before. -/
def arguments : TypeRequest → List Handle
  | .uninitialized h _ | .uninitializedThis h | .initialized h | .component h => [h]
  | .merge a b => [a, b]
  | _ => []

/-- Answers the request. -/
def run (p : ClassPool) : TypeRequest → Lookup Handle
  | .reference d precise => Lookup.ofReference p d precise
  | .descriptor d precise => Lookup.ofDescriptor p d precise
  | .object => Lookup.intern .object
  | .string => Lookup.intern .string
  | .classObject => Lookup.intern .classObject
  | .throwable => Lookup.intern .throwable
  | .constant value precise => Lookup.intern (.constant value value precise)
  | .uninitialized h allocation => Lookup.asUninitialized h allocation
  | .uninitializedThis h => Lookup.asUninitializedThis h
  | .initialized h => Lookup.initialized p h
  | .component h => Lookup.component p h
  | .merge a b => Lookup.merge p a b

/-- A request on faithful types is answered with a faithful type. -/
theorem exists_gives {p : ClassPool} {t : TypeTable} (hp : p.Built) (hnamed : p.Named)
    (q : TypeRequest) (hargs : ∀ h ∈ q.arguments, ∃ x, t.Denotes h x ∧ x.Faithful p) :
    ∃ x : RegType, x.Faithful p ∧ Lookup.Gives t (q.run p) x := by
  cases q with
  | reference d precise =>
    exact ⟨_, RegType.faithful_ofReference p d precise, Lookup.gives_ofReference p d precise⟩
  | descriptor d precise =>
    exact ⟨_, RegType.faithful_ofDescriptor p d precise, Lookup.gives_ofDescriptor p d precise⟩
  | object => exact ⟨_, RegType.faithful_object hp, Lookup.gives_intern rfl⟩
  | string =>
    exact ⟨.string, RegType.faithful_of_core hp (by decide) (by decide +kernel) true,
      Lookup.gives_intern rfl⟩
  | classObject =>
    exact ⟨.classObject, RegType.faithful_of_core hp (by decide) (by decide +kernel) true,
      Lookup.gives_intern rfl⟩
  | throwable =>
    exact ⟨.throwable, RegType.faithful_of_core hp (by decide) (by decide +kernel) false,
      Lookup.gives_intern rfl⟩
  | constant value precise =>
    exact ⟨_, RegType.faithful_constant value precise, Lookup.gives_intern rfl⟩
  | uninitialized h allocation =>
    obtain ⟨x, hx, hfaithful⟩ := hargs h (by simp [arguments])
    exact ⟨_, hfaithful.asUninitialized allocation, Lookup.gives_asUninitialized hx allocation⟩
  | uninitializedThis h =>
    obtain ⟨x, hx, hfaithful⟩ := hargs h (by simp [arguments])
    exact ⟨_, hfaithful.asUninitializedThis, Lookup.gives_asUninitializedThis hx⟩
  | initialized h =>
    obtain ⟨x, hx, -⟩ := hargs h (by simp [arguments])
    exact ⟨_, RegType.faithful_initialized p x, Lookup.gives_initialized p hx⟩
  | component h =>
    obtain ⟨x, hx, -⟩ := hargs h (by simp [arguments])
    exact ⟨_, RegType.faithful_component p x, Lookup.gives_component p hx⟩
  | merge a b =>
    obtain ⟨x, hx, hxFaithful⟩ := hargs a (by simp [arguments])
    obtain ⟨y, hy, hyFaithful⟩ := hargs b (by simp [arguments])
    exact ⟨_, hxFaithful.merge hp hnamed hyFaithful, Lookup.gives_merge p hx hy⟩

end TypeRequest

namespace Lookup

variable {p : ClassPool} {t : TypeTable} {hs : List Handle}

/-- The handles that one has after some requests, beginning with the fixed ones. Others may enter
    what they like into the same table meanwhile. -/
inductive Issues (p : ClassPool) : TypeTable → List Handle → Prop
  | fixed : Issues p .initial (TypeTable.fixedTypes.toList.map .fixed)
  | request {t : TypeTable} {hs : List Handle} (q : TypeRequest) : Issues p t hs →
      (∀ h ∈ q.arguments, h ∈ hs) → Issues p (q.run p t).2 ((q.run p t).1 :: hs)
  | enter {t : TypeTable} {hs : List Handle} (x : RegType) : Issues p t hs →
      Issues p (t.intern x).2 hs
  | enterClass {t : TypeTable} {hs : List Handle} (d : Descriptor) : Issues p t hs →
      Issues p (t.internClass d).2 hs

/-- A handle goes on to stand for the faithful type that it was issued for. -/
theorem Issues.denotes (hp : p.Built) (hnamed : p.Named) (h : Issues p t hs) :
    t.Reachable ∧ ∀ h ∈ hs, ∃ x, t.Denotes h x ∧ x.Faithful p := by
  have hmono : ∀ {t t' : TypeTable} {hs : List Handle}, t.Extends t' →
      (∀ h ∈ hs, ∃ x, t.Denotes h x ∧ x.Faithful p) →
      ∀ h ∈ hs, ∃ x, t'.Denotes h x ∧ x.Faithful p := by
    intro t t' hs hext hall h hmem
    obtain ⟨x, hx, hfaithful⟩ := hall h hmem
    exact ⟨x, hx.mono hext, hfaithful⟩
  induction h with
  | fixed =>
    refine ⟨.initial, ?_⟩
    intro h hmem
    obtain ⟨x, hx, rfl⟩ := List.mem_map.1 hmem
    have hx := Array.mem_toList_iff.1 hx
    exact ⟨x, TypeTable.denotes_fixed .initial hx, RegType.faithful_of_mem_fixedTypes hx⟩
  | request q _ hargs ih =>
    obtain ⟨ht, hall⟩ := ih
    obtain ⟨x, hx, hgives⟩ := q.exists_gives hp hnamed fun h hmem => hall h (hargs h hmem)
    obtain ⟨ht', hext, hread⟩ := hgives ht
    exact ⟨ht', List.forall_mem_cons.2 ⟨⟨x, hread, hx⟩, hmono hext hall⟩⟩
  | enter x _ ih => exact ⟨ih.1.intern x, hmono (TypeTable.extends_intern _ x) ih.2⟩
  | enterClass d _ ih =>
    exact ⟨ih.1.internClass d, hmono (TypeTable.extends_internClass _ d) ih.2⟩

/-- Whatever has been asked for, in a pool whose classes have well-formed names every handle stands
    for a type that agrees with the pool. -/
theorem faithful_of_issues (hp : p.Built) (hnamed : p.Named) (h : Issues p t hs) :
    ∀ h ∈ hs, (t.type h.index).Faithful p := by
  intro h' hmem
  obtain ⟨x, hx, hfaithful⟩ := (h.denotes hp hnamed).2 h' hmem
  rw [hx.type_eq]
  exact hfaithful

end Lookup

theorem diamondPool_built : diamondPool.Built :=
  .insert _ (.insert _ (.insert _ (.insert _ .core)))

/-- Asks for arrays of `B` and of `C`, merges them, and asks for a class that nobody knows and for a
    new object of it. -/
theorem diamond_issued_faithful : diamondPool.Built ∧ diamondPool.Named ∧
    ∃ t hs, Lookup.Issues diamondPool t hs ∧
      hs.map (fun h => t.type h.index) =
        [.uninitialized (.named ⟨"LX;"⟩) 7, .unresolved (.named ⟨"LX;"⟩),
          .reference (.named ⟨"[LA;"⟩) false, .reference (.named ⟨"[LC;"⟩) false,
          .reference (.named ⟨"[LB;"⟩) true] ++ TypeTable.fixedTypes.toList ∧
      ∀ h ∈ hs, (t.type h.index).Faithful diamondPool := by
  have hissues := Lookup.Issues.fixed (p := diamondPool)
    |>.request (.reference ⟨"[LB;"⟩ true) (by decide)
    |>.request (.reference ⟨"[LC;"⟩ false) (by decide)
    |>.request (.merge ⟨16⟩ ⟨17⟩) (by decide +kernel)
    |>.request (.reference ⟨"LX;"⟩ true) (by decide)
    |>.request (.uninitialized ⟨19⟩ 7) (by decide +kernel)
  have hnamed := diamondPool_regular.named
  exact ⟨diamondPool_built, hnamed, _, _, hissues, by decide +kernel,
    Lookup.faithful_of_issues diamondPool_built hnamed hissues⟩

end BytecodeVerifier
