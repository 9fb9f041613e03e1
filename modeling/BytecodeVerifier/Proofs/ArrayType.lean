import BytecodeVerifier.Descriptor

/-!
# Array types

The descriptor of an array is a bracket in front of the descriptor of its elements.
`Descriptor.component?` takes the bracket away and `Descriptor.arrayOf` puts it back; the
two are inverse on well-formed arrays.
-/

namespace BytecodeVerifier

namespace Descriptor

variable {c d : Descriptor}

@[simp] theorem chars_ofChars (cs : List Char) : (ofChars cs).chars = cs := by
  simp [ofChars, chars]

@[simp] theorem ofChars_chars (d : Descriptor) : ofChars d.chars = d := by
  simp [ofChars, chars]

@[simp] theorem chars_arrayOf (d : Descriptor) : d.arrayOf.chars = '[' :: d.chars := by
  simp [arrayOf, chars, String.toList_append]

theorem chars_inj (h : c.chars = d.chars) : c = d := by
  rw [← ofChars_chars c, h, ofChars_chars]

@[simp] theorem dimensions_arrayOf (d : Descriptor) : d.arrayOf.dimensions = d.dimensions + 1 := by
  simp [dimensions]

@[simp] theorem element_arrayOf (d : Descriptor) : d.arrayOf.element = d.element := by
  simp [element]

theorem arrayOf_inj (h : c.arrayOf = d.arrayOf) : c = d := by
  have := congrArg chars h
  simp only [chars_arrayOf, List.cons.injEq, true_and] at this
  exact chars_inj this

/-- The kind of an array depends on its dimensions and its innermost elements only. -/
theorem kind?_arrayOf (d : Descriptor) :
    d.arrayOf.kind? = arrayKind? (d.dimensions + 1) d.element.chars := by
  simp [kind?, dimensions, element]

/-- A descriptor that opens with no bracket has no dimensions and is its own element. -/
theorem dimensions_eq_zero_of_not_bracket (h : ∀ cs, d.chars ≠ '[' :: cs) :
    d.dimensions = 0 ∧ d.element = d := by
  cases hd : d.chars with
  | nil => exact ⟨by simp [dimensions, hd], chars_inj (by simp [element, hd])⟩
  | cons x xs =>
    have hx : (x == '[') = false := by
      rw [beq_eq_false_iff_ne]
      rintro rfl
      exact h xs hd
    exact ⟨by simp [dimensions, hd, hx], chars_inj (by simp [element, hd, hx])⟩

/-- A text of array kind has few enough dimensions, and elements that are not void. -/
theorem arrayKind?_eq_some_iff {n : Nat} {cs : List Char} {k : DescriptorKind} :
    arrayKind? n cs = some k ↔
      k = .arrayType ∧ n ≤ maxDimensions ∧ ∃ e, elementKind? cs = some e ∧ e ≠ .void := by
  unfold arrayKind?
  split
  · simp; omega
  · rename_i hn
    have hn : n ≤ maxDimensions := by omega
    cases elementKind? cs with
    | none => simp
    | some e => cases e <;> simp [hn, eq_comm]

/-- A text without brackets is not of array kind. -/
theorem elementKind?_ne_arrayType (cs : List Char) : elementKind? cs ≠ some .arrayType := by
  unfold elementKind?
  split <;> simp

/-- An array is a bracket in front of its elements' type. -/
theorem isArray_iff : d.isArray = true ↔
    ∃ c : Descriptor, d = c.arrayOf ∧ c.dimensions < maxDimensions ∧
      ∃ e, elementKind? c.element.chars = some e ∧ e ≠ .void := by
  constructor
  · intro h
    have hkind : d.kind? = some .arrayType := by simpa [isArray] using h
    by_cases hb : ∃ cs, d.chars = '[' :: cs
    · obtain ⟨cs, hcs⟩ := hb
      have hd : d = (ofChars cs).arrayOf := chars_inj (by simp [hcs])
      rw [hd, kind?_arrayOf, arrayKind?_eq_some_iff] at hkind
      exact ⟨ofChars cs, hd, by omega, hkind.2.2⟩
    -- without a bracket the kind is that of an element, which is never an array
    · have hb : ∀ cs, d.chars ≠ '[' :: cs := by simpa using hb
      unfold kind? at hkind
      split at hkind
      · exact absurd ‹_› (hb _)
      · exact absurd hkind (elementKind?_ne_arrayType _)
  · rintro ⟨c, rfl, hdims, he⟩
    have : c.arrayOf.kind? = some .arrayType := by
      rw [kind?_arrayOf, arrayKind?_eq_some_iff]
      exact ⟨rfl, by omega, he⟩
    simp [isArray, this]

theorem component?_eq_some_iff : d.component? = some c ↔ d.isArray = true ∧ d = c.arrayOf := by
  unfold component?
  split
  · rename_i h
    obtain ⟨e, rfl, -⟩ := isArray_iff.1 h
    simp only [chars_arrayOf, List.tail_cons, ofChars_chars, Option.some.injEq, h, true_and]
    exact ⟨fun h => h ▸ rfl, arrayOf_inj⟩
  · simp_all

theorem component?_eq_none_iff : d.component? = none ↔ d.isArray = false := by
  simp [component?]

theorem component?_arrayOf (h : d.arrayOf.isArray = true) : d.arrayOf.component? = some d :=
  component?_eq_some_iff.2 ⟨h, rfl⟩

/-- A reference type is a class or an array. -/
theorem isReference_iff : d.isReference = true ↔ d.isClass = true ∨ d.isArray = true := by
  unfold isReference isClass isArray
  cases d.kind? with
  | none => simp
  | some k => cases k <;> simp [DescriptorKind.isReference]

/-- A class is no array, has no dimensions and is its own element. -/
theorem isClass_spec (h : d.isClass = true) :
    d.isArray = false ∧ d.dimensions = 0 ∧ d.element = d := by
  have hkind : d.kind? = some .classType := by simpa [isClass] using h
  refine ⟨by simp [isArray, hkind], dimensions_eq_zero_of_not_bracket ?_⟩
  intro cs hcs
  have hd : d = (ofChars cs).arrayOf := chars_inj (by simp [hcs])
  rw [hd, kind?_arrayOf, arrayKind?_eq_some_iff] at hkind
  simp at hkind

/-- A reference type with a dimension to spare is the element type of an array. -/
theorem isArray_arrayOf (h : d.isReference = true) (hdims : d.dimensions < maxDimensions) :
    d.arrayOf.isArray = true := by
  refine isArray_iff.2 ⟨d, rfl, hdims, ?_⟩
  rcases isReference_iff.1 h with hclass | harray
  -- a class is its own innermost element
  · have hkind : d.kind? = some .classType := by simpa [isClass] using hclass
    refine ⟨.classType, ?_, by simp⟩
    rw [(isClass_spec hclass).2.2]
    unfold kind? at hkind
    split at hkind
    · simp [arrayKind?_eq_some_iff] at hkind
    · exact hkind
  · obtain ⟨c, rfl, -, he⟩ := isArray_iff.1 harray
    simpa using he

/-- The element type of an array has a dimension to spare. -/
theorem dimensions_lt_of_isArray (h : c.arrayOf.isArray = true) :
    c.dimensions < maxDimensions := by
  obtain ⟨e, he, hdims, -⟩ := isArray_iff.1 h
  exact arrayOf_inj he ▸ hdims

theorem dimensions_le_of_isReference (h : d.isReference = true) :
    d.dimensions ≤ maxDimensions := by
  rcases isReference_iff.1 h with hclass | harray
  · have := (isClass_spec hclass).2.1
    omega
  · obtain ⟨c, rfl, hdims, -⟩ := isArray_iff.1 harray
    simp only [dimensions_arrayOf]
    omega

theorem isClass_object : object.isClass = true := by decide

end Descriptor

end BytecodeVerifier
