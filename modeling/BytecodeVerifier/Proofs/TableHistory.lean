import BytecodeVerifier.Proofs.Evolution
import BytecodeVerifier.TypeTable.Handle
import Mathlib.Data.List.Nodup

/-!
# The history of a table

Which handle a type has depends on what was entered before it. Whatever that was
(`TypeTable.Reachable`), no type has two handles (`TypeTable.Valid`), and a handle that stands for a
type goes on to do so (`TypeTable.Extends`). Only a type that names a class by a number which has
not been issued can turn into another one.

`TypeTable.Denotes` says what a handle stands for, once and for all. Two handles are equal if and
only if the types are (`TypeTable.Denotes.eq_iff`).
-/

namespace BytecodeVerifier

/-! ## Class names -/

namespace RegType

variable {x y : RegType} {f : ClassName → ClassName}

/-- Passing on the class name of a type changes nothing else. -/
@[simp] theorem className?_mapName : (x.mapName f).className? = x.className?.map f := by
  cases x <;> rfl

/-- The type is no more than a handle number. -/
def isHandle : RegType → Bool
  | .unissued _ => true
  | _ => false

@[simp] theorem isHandle_mapName : (x.mapName f).isHandle = x.isHandle := by
  cases x <;> rfl

theorem mapName_congr {g : ClassName → ClassName} (h : ∀ c, x.className? = some c → f c = g c) :
    x.mapName f = x.mapName g := by
  cases x <;> simp_all [mapName, className?]

theorem mapName_eq_self (h : ∀ c, x.className? = some c → f c = c) : x.mapName f = x := by
  cases x <;> simp_all [mapName, className?]

/-- Types that differ are told apart after their class names have been passed on, if these are. -/
theorem eq_of_mapName_eq (h : x.mapName f = y.mapName f)
    (hf : ∀ c, x.className? = some c → ∀ c', y.className? = some c' → f c = f c' → c = c') :
    x = y := by
  cases x <;> cases y <;> simp_all [mapName, className?]

/-- The class of a type that names one is known. -/
theorem exists_named_of_isNamed {c : ClassName} (hx : x.isNamed = true)
    (hc : x.className? = some c) : ∃ d, c = .named d := by
  cases c with
  | named d => exact ⟨d, rfl⟩
  | unissued h => cases x <;> simp_all [isNamed, className?, ClassName.descriptor?]

theorem isHandle_of_isNamed (hx : x.isNamed = true) : x.isHandle = false := by
  cases x <;> simp_all [isNamed, isHandle]

end RegType

namespace TypeTable

variable {t t' : TypeTable} {x y : RegType} {d : Descriptor} {i : Nat}

/-- A type without handle numbers is what it is. -/
theorem resolve_of_isNamed (hx : x.isNamed = true) : t.resolve x = x := by
  have hname : x.mapName t.resolveName = x := by
    apply RegType.mapName_eq_self
    intro c hc
    obtain ⟨d, rfl⟩ := RegType.exists_named_of_isNamed hx hc
    rfl
  cases x <;> first | exact hname | simp [RegType.isNamed] at hx

/-! ## Valid tables -/

/-- What holds of a table at any time. -/
structure Valid (t : TypeTable) : Prop where
  /-- No type has two handles. -/
  nodup : t.types.toList.Nodup
  /-- A type in the table is more than a handle number. -/
  issued : ∀ x ∈ t.types, x.isHandle = false
  /-- A class that a type names has a handle. -/
  named : ∀ x ∈ t.types, ∀ d, x.className? = some (.named d) → d ∈ t.classes
  /-- A class that a type names by its number alone has not been issued. -/
  unissued : ∀ x ∈ t.types, ∀ n, x.className? = some (.unissued n) → t.classes.size ≤ n
  /-- The fixed types have their handles. -/
  fixed : ∀ (i : Nat) (x : RegType), fixedTypes[i]? = some x → t.types[i]? = some x

theorem valid_initial : initial.Valid where
  nodup := by decide
  issued := by decide
  named x hx d hd := by
    have hnone : ∀ x ∈ initial.types, x.className? = none := by decide
    rw [hnone x hx] at hd
    exact absurd hd (by simp)
  unissued x hx n hn := by
    have hnone : ∀ x ∈ initial.types, x.className? = none := by decide
    rw [hnone x hx] at hn
    exact absurd hn (by simp)
  fixed i x hx := hx

/-- A handle keeps standing for a type that names its class. -/
def Extends (t t' : TypeTable) : Prop :=
  ∀ (i : Nat) (x : RegType), t.types[i]? = some x → x.isNamed = true → t'.types[i]? = some x

theorem Extends.refl (t : TypeTable) : t.Extends t := fun _ _ h _ => h

theorem Extends.trans {t'' : TypeTable} (h : t.Extends t') (h' : t'.Extends t'') :
    t.Extends t'' := by
  intro i x hx hnamed
  exact h' i x (h i x hx hnamed) hnamed

/-- What a search finds stands where it is found. -/
private theorem getElem?_of_idxOf? {α : Type} [DecidableEq α] {xs : Array α} {a : α}
    (h : xs.idxOf? a = some i) : xs[i]? = some a := by
  rw [Array.idxOf?_eq_map_finIdxOf?_val, Option.map_eq_some_iff] at h
  obtain ⟨j, hj, rfl⟩ := h
  rw [Array.finIdxOf?_eq_some_iff] at hj
  exact Array.getElem?_eq_some_iff.2 ⟨j.isLt, hj.1⟩

/-! ## Entering a class -/

/-- How class names are read once `d` has the next handle. -/
private theorem resolveName_push {c : ClassName} (types : Array RegType)
    (hc : ∀ n, c = .unissued n → t.classes.size ≤ n) :
    resolveName ⟨types, t.classes.push d⟩ c =
      if c = .unissued t.classes.size then .named d else c := by
  cases c with
  | named e => rfl
  | unissued n =>
    have hn := hc n rfl
    simp only [resolveName, className, Array.getElem?_push, ClassName.unissued.injEq]
    by_cases hsize : n = t.classes.size
    · rw [if_pos hsize, if_pos hsize]
    · rw [if_neg hsize, if_neg hsize, Array.getElem?_eq_none hn]

private theorem className?_fixed (h : fixedTypes[i]? = some x) : x.className? = none := by
  have hnone : ∀ x ∈ fixedTypes, x.className? = none := by decide
  exact hnone x (Array.mem_of_getElem? h)

/-- The types of a table in which the class `d` has got the next handle. -/
private theorem mem_map_resolveName (ht : t.Valid)
    (hx : x ∈ t.types.map (·.mapName (resolveName ⟨t.types, t.classes.push d⟩))) :
    ∃ y ∈ t.types, x.isHandle = y.isHandle ∧ x.className? =
      y.className?.map fun c => if c = .unissued t.classes.size then .named d else c := by
  obtain ⟨y, hy, rfl⟩ := Array.mem_map.1 hx
  refine ⟨y, hy, RegType.isHandle_mapName, ?_⟩
  rw [RegType.className?_mapName]
  cases hc : y.className? with
  | none => rfl
  | some c =>
    have hn : ∀ n, c = .unissued n → t.classes.size ≤ n := by
      rintro n rfl
      exact ht.unissued y hy n hc
    rw [Option.map_some, Option.map_some, resolveName_push _ hn]

theorem Valid.internClass (ht : t.Valid) (d : Descriptor) : (t.internClass d).2.Valid := by
  unfold TypeTable.internClass
  cases hd : t.classes.idxOf? d with
  | some n => exact ht
  | none =>
    rw [Array.idxOf?_eq_none_iff] at hd
    constructor
    case nodup =>
      rw [Array.toList_map]
      apply List.Nodup.map_on _ ht.nodup
      intro x hx y hy hxy
      rw [Array.mem_toList_iff] at hx hy
      apply RegType.eq_of_mapName_eq hxy
      intro c hc c' hc' heq
      -- the new class is named by no type so far
      have hfresh : ∀ z ∈ t.types, z.className? ≠ some (.named d) := fun z hz h =>
        hd (ht.named z hz d h)
      have hn : ∀ n, c = .unissued n → t.classes.size ≤ n := by
        rintro n rfl
        exact ht.unissued x hx n hc
      have hn' : ∀ n, c' = .unissued n → t.classes.size ≤ n := by
        rintro n rfl
        exact ht.unissued y hy n hc'
      rw [resolveName_push _ hn, resolveName_push _ hn'] at heq
      have hx' := hfresh x hx
      have hy' := hfresh y hy
      rw [hc] at hx'
      rw [hc'] at hy'
      split at heq <;> split at heq <;> simp_all
    case issued =>
      intro x hx
      obtain ⟨y, hy, hhandle, -⟩ := mem_map_resolveName ht hx
      rw [hhandle, ht.issued y hy]
    case named =>
      intro x hx e he
      obtain ⟨y, hy, -, hname⟩ := mem_map_resolveName ht hx
      rw [hname, Option.map_eq_some_iff] at he
      obtain ⟨c, hc, he⟩ := he
      split at he
      · cases he
        simp
      · subst he
        exact Array.mem_push_of_mem _ (ht.named y hy e hc)
    case unissued =>
      intro x hx n hn
      obtain ⟨y, hy, -, hname⟩ := mem_map_resolveName ht hx
      rw [hname, Option.map_eq_some_iff] at hn
      obtain ⟨c, hc, hn⟩ := hn
      split at hn
      · exact absurd hn (by simp)
      · rename_i hne
        subst hn
        have := ht.unissued y hy n hc
        rw [ClassName.unissued.injEq] at hne
        simp only [Array.size_push]
        omega
    case fixed =>
      intro i x hx
      have hname := className?_fixed hx
      rw [Array.getElem?_map, ht.fixed i x hx, Option.map_some]
      congr 1
      apply RegType.mapName_eq_self
      simp [hname]

theorem extends_internClass (t : TypeTable) (d : Descriptor) : t.Extends (t.internClass d).2 := by
  unfold TypeTable.internClass
  split
  · exact Extends.refl t
  · intro i x hx hnamed
    rw [Array.getElem?_map, hx, Option.map_some]
    congr 1
    apply RegType.mapName_eq_self
    intro c hc
    obtain ⟨e, rfl⟩ := RegType.exists_named_of_isNamed hnamed hc
    rfl

/-- The class has a handle now. -/
theorem mem_internClass (t : TypeTable) (d : Descriptor) : d ∈ (t.internClass d).2.classes := by
  unfold TypeTable.internClass
  split
  · rename_i h
    exact Array.mem_of_getElem? (getElem?_of_idxOf? h)
  · simp

/-! ## Entering a type -/

/-- The type with its handles looked up names no class by a number that has been issued. -/
private theorem le_of_resolve (h : (t.resolve x).className? = some (.unissued i))
    (ht : t.Valid) : t.classes.size ≤ i := by
  have hname : ∀ c, t.resolveName c = .unissued i → t.classes.size ≤ i := by
    intro c hc
    cases c with
    | named d => exact absurd hc (by simp [resolveName])
    | unissued n =>
      have hclass : t.className n = .unissued i := hc
      unfold className at hclass
      split at hclass
      · exact absurd hclass (by simp)
      · rename_i hnone
        cases hclass
        exact Array.getElem?_eq_none_iff.1 hnone
  unfold resolve at h
  split at h
  · unfold type at h
    split at h
    · rename_i hx
      exact ht.unissued _ (Array.mem_of_getElem? hx) i h
    · exact absurd h (by simp [RegType.className?])
  · rw [RegType.className?_mapName, Option.map_eq_some_iff] at h
    obtain ⟨c, -, hc⟩ := h
    exact hname c hc

theorem Valid.withClassOf (ht : t.Valid) (x : RegType) : (t.withClassOf x).Valid := by
  unfold TypeTable.withClassOf
  split
  · exact ht.internClass _
  · exact ht

theorem extends_withClassOf (t : TypeTable) (x : RegType) : t.Extends (t.withClassOf x) := by
  unfold TypeTable.withClassOf
  split
  · exact extends_internClass t _
  · exact Extends.refl t

/-- A type is entered behind all others, if it is new. -/
private theorem Valid.push (ht : t.Valid) (hnew : x ∉ t.types) (hissued : x.isHandle = false)
    (hnamed : ∀ d, x.className? = some (.named d) → d ∈ t.classes)
    (hunissued : ∀ n, x.className? = some (.unissued n) → t.classes.size ≤ n) :
    Valid { t with types := t.types.push x } where
  nodup := by
    rw [Array.toList_push, List.nodup_append]
    refine ⟨ht.nodup, by simp, ?_⟩
    intro y hy z hz
    rw [List.mem_singleton] at hz
    rintro rfl
    exact hnew (hz ▸ Array.mem_toList_iff.1 hy)
  issued y hy := by
    rcases Array.mem_push.1 hy with hy | rfl
    · exact ht.issued y hy
    · exact hissued
  named y hy := by
    rcases Array.mem_push.1 hy with hy | rfl
    · exact ht.named y hy
    · exact hnamed
  unissued y hy := by
    rcases Array.mem_push.1 hy with hy | rfl
    · exact ht.unissued y hy
    · exact hunissued
  fixed i y hy := by
    have hi := ht.fixed i y hy
    obtain ⟨hlt, -⟩ := Array.getElem?_eq_some_iff.1 hi
    rw [Array.getElem?_push, if_neg (by omega)]
    exact hi

/-- What entering a type does, if it is more than a handle number. -/
private theorem intern_eq (h : (t.resolve x).isHandle = false) :
    t.intern x = match (t.withClassOf (t.resolve x)).types.idxOf? (t.resolve x) with
      | some i => (i, t.withClassOf (t.resolve x))
      | none => ((t.withClassOf (t.resolve x)).types.size,
          { t.withClassOf (t.resolve x) with
            types := (t.withClassOf (t.resolve x)).types.push (t.resolve x) }) := by
  unfold TypeTable.intern
  split
  · rename_i hx
    rw [hx] at h
    exact absurd h (by simp [RegType.isHandle])
  · rfl

private theorem intern_eq_self (h : (t.resolve x).isHandle = true) : (t.intern x).2 = t := by
  unfold TypeTable.intern
  split
  · rfl
  · rename_i hx
    cases hr : t.resolve x with
    | unissued n => exact absurd hr (hx n)
    | _ => rw [hr] at h; simp [RegType.isHandle] at h

theorem Valid.intern (ht : t.Valid) (x : RegType) : (t.intern x).2.Valid := by
  by_cases hx : (t.resolve x).isHandle = true
  · rw [intern_eq_self hx]
    exact ht
  · rw [Bool.not_eq_true] at hx
    rw [intern_eq hx]
    have hclass := ht.withClassOf (t.resolve x)
    split
    · exact hclass
    · rename_i hnew
      rw [Array.idxOf?_eq_none_iff] at hnew
      apply hclass.push hnew hx
      · intro d hd
        have hdesc : (t.resolve x).descriptor? = some d := by
          rw [RegType.descriptor?, hd]
          rfl
        rw [TypeTable.withClassOf, hdesc]
        exact mem_internClass t d
      · intro n hn
        have hdesc : (t.resolve x).descriptor? = none := by
          rw [RegType.descriptor?, hn]
          rfl
        rw [TypeTable.withClassOf, hdesc]
        exact le_of_resolve hn ht

theorem extends_intern (t : TypeTable) (x : RegType) : t.Extends (t.intern x).2 := by
  by_cases hx : (t.resolve x).isHandle = true
  · rw [intern_eq_self hx]
    exact Extends.refl t
  · rw [Bool.not_eq_true] at hx
    rw [intern_eq hx]
    have hclass := t.extends_withClassOf (t.resolve x)
    split
    · exact hclass
    · apply hclass.trans
      intro i y hy _
      obtain ⟨hlt, -⟩ := Array.getElem?_eq_some_iff.1 hy
      show (Array.push _ _)[i]? = some y
      rw [Array.getElem?_push, if_neg (by omega)]
      exact hy

/-- The handle of a type stands for that type. -/
private theorem getElem?_intern_of_resolve (hx : t.resolve x = x) (hhandle : x.isHandle = false) :
    (t.intern x).2.types[(t.intern x).1]? = some x := by
  rw [intern_eq (hx.symm ▸ hhandle), hx]
  split
  · rename_i hfound
    exact getElem?_of_idxOf? hfound
  · exact Array.getElem?_push_size

theorem getElem?_intern (t : TypeTable) (hx : x.isNamed = true) :
    (t.intern x).2.types[(t.intern x).1]? = some x :=
  getElem?_intern_of_resolve (resolve_of_isNamed hx) (RegType.isHandle_of_isNamed hx)

/-! ## Reading back -/

theorem type_eq (h : t.types[i]? = some x) : t.type i = x := by
  rw [type, h]

/-- A handle that has not been issued stands for itself. -/
theorem type_eq_unissued (h : t.types[i]? = none) : t.type i = .unissued i := by
  rw [type, h]

/-- No type has two handles. -/
private theorem Valid.index_unique {j : Nat} (ht : t.Valid) (hi : t.types[i]? = some x)
    (hj : t.types[j]? = some x) : i = j := by
  obtain ⟨hlt, hget⟩ := Array.getElem?_eq_some_iff.1 hi
  obtain ⟨hlt', hget'⟩ := Array.getElem?_eq_some_iff.1 hj
  have hsame : t.types.toList[i] = t.types.toList[j] := by
    rw [Array.getElem_toList, Array.getElem_toList, hget, hget']
  exact ht.nodup.getElem_inj_iff.1 hsame

private theorem resolve_of_isHandle_eq_false (hx : x.isHandle = false) :
    t.resolve x = x.mapName t.resolveName := by
  cases x <;> first | rfl | simp [RegType.isHandle] at hx

/-- A type that a table reads has no handle number left that stands for something. -/
theorem Valid.resolve_type (ht : t.Valid) (i : Nat) : t.resolve (t.type i) = t.type i := by
  cases hi : t.types[i]? with
  | none =>
    rw [type_eq_unissued hi]
    exact type_eq_unissued hi
  | some x =>
    have hx := Array.mem_of_getElem? hi
    rw [type_eq hi, resolve_of_isHandle_eq_false (ht.issued x hx)]
    apply RegType.mapName_eq_self
    intro c hc
    cases c with
    | named d => rfl
    | unissued n =>
      rw [resolveName, className, Array.getElem?_eq_none (ht.unissued x hx n hc)]

/-- A class that has a handle is not entered again. -/
private theorem withClassOf_eq_self (h : ∀ d, x.descriptor? = some d → d ∈ t.classes) :
    t.withClassOf x = t := by
  unfold TypeTable.withClassOf
  cases hd : x.descriptor? with
  | none => rfl
  | some d =>
    show (t.internClass d).2 = t
    unfold TypeTable.internClass
    cases hfound : t.classes.idxOf? d with
    | some n => rfl
    | none => exact absurd (h d hd) (Array.idxOf?_eq_none_iff.1 hfound)

/-- The class of a type in the table has a handle. -/
private theorem Valid.mem_classes (ht : t.Valid) (hi : t.types[i]? = some x)
    (hd : x.descriptor? = some d) : d ∈ t.classes := by
  apply ht.named x (Array.mem_of_getElem? hi) d
  obtain ⟨c, hc, hdesc⟩ := Option.bind_eq_some_iff.1 hd
  cases c with
  | named e =>
    cases hdesc
    exact hc
  | unissued n => simp [ClassName.descriptor?] at hdesc

/-- To enter what a handle stands for gives the handle. -/
theorem Valid.intern_type (ht : t.Valid) (i : Nat) : t.intern (t.type i) = (i, t) := by
  cases hi : t.types[i]? with
  | none =>
    unfold TypeTable.intern
    rw [ht.resolve_type, type_eq_unissued hi]
  | some x =>
    have hresolve := ht.resolve_type i
    rw [type_eq hi] at hresolve
    rw [type_eq hi, intern_eq (hresolve.symm ▸ ht.issued x (Array.mem_of_getElem? hi)), hresolve,
      withClassOf_eq_self fun d => ht.mem_classes hi]
    split
    · rename_i j hj
      rw [ht.index_unique hi (getElem?_of_idxOf? hj)]
    · rename_i hnew
      exact absurd (Array.mem_of_getElem? hi) (Array.idxOf?_eq_none_iff.1 hnew)

theorem Valid.type_injective (ht : t.Valid) : Function.Injective t.type := by
  intro i j h
  have hi := ht.intern_type i
  rw [h, ht.intern_type j] at hi
  exact (Prod.mk.inj hi).1.symm

/-- A handle that is issued stands for the type that is entered. -/
theorem type_intern (hx : t.resolve x = x) : (t.intern x).2.type (t.intern x).1 = x := by
  cases hhandle : x.isHandle with
  | false => exact type_eq (getElem?_intern_of_resolve hx hhandle)
  | true =>
    cases x with
    | unissued n =>
      have hn : t.intern (.unissued n) = (n, t) := by
        unfold TypeTable.intern
        rw [hx]
      rw [hn]
      exact hx
    | _ => simp [RegType.isHandle] at hhandle

/-! ## Reachable tables -/

/-- A table after types and classes have been entered, in any order. -/
inductive Reachable : TypeTable → Prop
  | initial : Reachable initial
  | intern {t : TypeTable} (x : RegType) : Reachable t → Reachable (t.intern x).2
  | internClass {t : TypeTable} (d : Descriptor) : Reachable t → Reachable (t.internClass d).2

theorem Reachable.valid (ht : t.Reachable) : t.Valid := by
  induction ht with
  | initial => exact valid_initial
  | intern x _ ih => exact ih.intern x
  | internClass d _ ih => exact ih.internClass d

/-- The root class has a handle in every table. -/
theorem Reachable.object_mem_classes (ht : t.Reachable) : .object ∈ t.classes := by
  have hkeeps : ∀ {t : TypeTable} (d : Descriptor), .object ∈ t.classes →
      .object ∈ (t.internClass d).2.classes := by
    intro t d h
    unfold TypeTable.internClass
    split
    · exact h
    · exact Array.mem_push_of_mem _ h
  induction ht with
  | initial => simp [TypeTable.initial, fixedClasses]
  | internClass d _ ih => exact hkeeps d ih
  | @intern t x _ ih =>
    by_cases hx : (t.resolve x).isHandle = true
    · rwa [intern_eq_self hx]
    · rw [intern_eq (by simpa using hx), TypeTable.withClassOf]
      repeat' split
      all_goals first | exact ih | exact hkeeps _ ih

/-! ## What becomes of a handle -/

/-- A handle that stood for `x` stands for `y` once the type `z` has been entered. -/
inductive Becomes (z : RegType) : RegType → RegType → Prop
  | same (x : RegType) : Becomes z x x
  | issued (n : Nat) : Becomes z (.unissued n) z
  /-- The class that `x` names has got its handle. The root class has always had one. -/
  | named {x : RegType} {n : Nat} {d : Descriptor} : x.className? = some (.unissued n) →
      d ≠ .object → Becomes z x (x.mapName fun _ => .named d)

theorem Becomes.eq_of_isNamed {z : RegType} (h : Becomes z x y) (hx : x.isNamed = true) :
    y = x := by
  cases h with
  | same => rfl
  | issued => simp [RegType.isNamed] at hx
  | named hc =>
    obtain ⟨d, hd⟩ := RegType.exists_named_of_isNamed hx hc
    simp at hd

private theorem becomes_internClass (ht : t.Reachable) (z : RegType) (d : Descriptor)
    (hi : t.types[i]? = some x) :
    ∃ y, (t.internClass d).2.types[i]? = some y ∧ Becomes z x y := by
  unfold TypeTable.internClass
  cases hd : t.classes.idxOf? d with
  | some n => exact ⟨x, hi, .same x⟩
  | none =>
    have hroot : d ≠ .object := by
      rintro rfl
      exact Array.idxOf?_eq_none_iff.1 hd ht.object_mem_classes
    refine ⟨_, by rw [Array.getElem?_map, hi, Option.map_some], ?_⟩
    have hresolve : ∀ c, x.className? = some c → resolveName ⟨t.types, t.classes.push d⟩ c =
        if c = .unissued t.classes.size then .named d else c := by
      intro c hc
      apply resolveName_push
      rintro n rfl
      exact ht.valid.unissued x (Array.mem_of_getElem? hi) n hc
    rw [RegType.mapName_congr hresolve]
    by_cases hnext : x.className? = some (.unissued t.classes.size)
    · rw [RegType.mapName_congr (g := fun _ => .named d)
        fun c hc => if_pos (Option.some.inj (hc.symm.trans hnext))]
      exact .named hnext hroot
    · rw [RegType.mapName_eq_self fun c hc => if_neg (by rintro rfl; exact hnext hc)]
      exact .same x

theorem becomes_intern {z : RegType} (ht : t.Reachable) (hz : t.resolve z = z) (i : Nat) :
    Becomes z (t.type i) ((t.intern z).2.type i) := by
  by_cases hhandle : z.isHandle = true
  · rw [intern_eq_self (hz.symm ▸ hhandle)]
    exact .same _
  have hclass : ∀ x, t.types[i]? = some x →
      ∃ y, (t.withClassOf z).types[i]? = some y ∧ Becomes z x y := by
    intro x hi
    unfold TypeTable.withClassOf
    split
    · exact becomes_internClass ht z _ hi
    · exact ⟨x, hi, .same x⟩
  have hsize : (t.withClassOf z).types.size = t.types.size := by
    unfold TypeTable.withClassOf TypeTable.internClass
    repeat' split
    all_goals simp
  rw [intern_eq (hz.symm ▸ by simpa using hhandle), hz]
  cases hi : t.types[i]? with
  | some x =>
    obtain ⟨y, hy, hbecomes⟩ := hclass x hi
    rw [type_eq hi]
    split
    · rwa [type_eq hy]
    · have hlt := (Array.getElem?_eq_some_iff.1 hy).1
      rwa [type_eq (x := y) (by rw [Array.getElem?_push, if_neg (by omega), hy])]
  | none =>
    have hnone : (t.withClassOf z).types[i]? = none := by
      rw [Array.getElem?_eq_none_iff, hsize]
      exact Array.getElem?_eq_none_iff.1 hi
    rw [type_eq_unissued hi]
    split
    · rw [type_eq_unissued hnone]
      exact .same _
    · by_cases hlast : i = (t.withClassOf z).types.size
      · rw [type_eq (x := z) (by rw [hlast]; exact Array.getElem?_push_size)]
        exact .issued i
      · rw [type_eq_unissued (by rw [Array.getElem?_push, if_neg hlast, hnone])]
        exact .same _

/-- No type changes if no class has to be entered. -/
theorem type_intern_of_mem_classes {z : RegType} (hz : t.resolve z = z)
    (hclass : ∀ d, z.descriptor? = some d → d ∈ t.classes) (hi : (t.type i).isHandle = false) :
    (t.intern z).2.type i = t.type i := by
  by_cases hhandle : z.isHandle = true
  · rw [intern_eq_self (hz.symm ▸ hhandle)]
  cases hx : t.types[i]? with
  | none => simp [type_eq_unissued hx, RegType.isHandle] at hi
  | some x =>
    rw [intern_eq (hz.symm ▸ by simpa using hhandle), hz, withClassOf_eq_self hclass]
    split
    · rfl
    · have hlt := (Array.getElem?_eq_some_iff.1 hx).1
      rw [type_eq hx, type_eq (x := x) (by rw [Array.getElem?_push, if_neg (by omega), hx])]

/-! ## What handles stand for -/

/-- The handle stands for the type, and will go on to do so. -/
def Denotes (t : TypeTable) (h : Handle) (x : RegType) : Prop :=
  t.types[h.index]? = some x ∧ x.isNamed = true

variable {h h' : Handle}

theorem Denotes.mono (hx : t.Denotes h x) (ht : t.Extends t') : t'.Denotes h x :=
  ⟨ht h.index x hx.1 hx.2, hx.2⟩

theorem Denotes.type_eq (hx : t.Denotes h x) : t.type h.index = x :=
  TypeTable.type_eq hx.1

/-- Handles that stand for the same type are the same. -/
theorem Reachable.eq_of_type_eq (ht : t.Reachable) (htype : t.type h.index = t.type h'.index) :
    h = h' := by
  cases h
  cases h'
  rw [Handle.mk.injEq]
  exact ht.valid.type_injective htype

/-- No type has two handles, and no handle stands for two types. -/
theorem Denotes.eq_iff (ht : t.Reachable) (hx : t.Denotes h x) (hy : t.Denotes h' y) :
    h = h' ↔ x = y := by
  constructor
  · rintro rfl
    exact Option.some.inj (hx.1.symm.trans hy.1)
  · rintro rfl
    exact ht.eq_of_type_eq (hx.type_eq.trans hy.type_eq.symm)

theorem denotes_intern (t : TypeTable) (hx : x.isNamed = true) :
    (t.intern x).2.Denotes ⟨(t.intern x).1⟩ x :=
  ⟨t.getElem?_intern hx, hx⟩

/-- A fixed type has the same handle in every table. -/
theorem denotes_fixed (ht : t.Reachable) (hx : x ∈ fixedTypes) : t.Denotes (.fixed x) x := by
  have hnamed : ∀ x ∈ fixedTypes, x.isNamed = true := by decide
  have hget : ∀ x ∈ fixedTypes, fixedTypes[fixedTypes.idxOf x]? = some x := by decide +kernel
  exact ⟨ht.valid.fixed _ x (hget x hx), hnamed x hx⟩

/-- Whether a handle is that of a conflict tells whether it stands for one. -/
theorem Denotes.eq_conflict_iff (hx : t.Denotes h x) (ht : t.Reachable) :
    h = .fixed .conflict ↔ x = .conflict :=
  hx.eq_iff ht (denotes_fixed ht (by simp [fixedTypes]))

end TypeTable

end BytecodeVerifier
