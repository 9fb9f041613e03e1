import BytecodeVerifier.Proofs.ArrayType
import Mathlib.Data.List.TakeWhile

/-!
# The grammar of descriptors

A descriptor is a letter, a class name between `L` and `;`, or up to `Descriptor.maxDimensions`
brackets in front of one of these other than `V` (`Descriptor.Form`). `Descriptor.kind?` reads a
text from left to right and keeps no more than whether a segment has begun. What it accepts is the
grammar, and `Descriptor.parse` accepts the same texts and says of any other why it is none
(`Descriptor.parse_accepts_grammar`).
-/

namespace BytecodeVerifier

/-- The letter of a primitive type. -/
def Primitive.letter : Primitive → Char
  | .boolean => 'Z'
  | .byte => 'B'
  | .char => 'C'
  | .short => 'S'
  | .int => 'I'
  | .long => 'J'
  | .float => 'F'
  | .double => 'D'

theorem Primitive.ofLetter?_eq_some_iff {x : Char} {t : Primitive} :
    ofLetter? x = some t ↔ x = t.letter := by
  constructor
  · intro h
    unfold ofLetter? at h
    split at h <;> cases h <;> rfl
  · rintro rfl
    cases t <;> rfl

namespace Descriptor

/-- A segment of a class name. -/
def IsSegment (cs : List Char) : Prop :=
  cs ≠ [] ∧ ∀ c ∈ cs, c ≠ ';' ∧ c ≠ '[' ∧ c ≠ '.' ∧ c ≠ '/' ∧ c ≠ ' '

/-- The characters name a type of this kind that is no array. -/
inductive ElementForm : List Char → DescriptorKind → Prop
  | void : ElementForm ['V'] .void
  | primitive (t : Primitive) : ElementForm [t.letter] (.primitive t)
  | classType {first : List Char} {others : List (List Char)} : IsSegment first →
      (∀ cs ∈ others, IsSegment cs) →
      ElementForm ('L' :: ['/'].intercalate (first :: others) ++ [';']) .classType

/-- The characters name a type of this kind. -/
inductive Form : List Char → DescriptorKind → Prop
  | element {cs : List Char} {k : DescriptorKind} : ElementForm cs k → Form cs k
  | array {n : Nat} {cs : List Char} {k : DescriptorKind} : 1 ≤ n → n ≤ maxDimensions →
      ElementForm cs k → cs ≠ ['V'] → Form (List.replicate n '[' ++ cs) .arrayType

/-- The characters begin with more brackets than an array has. -/
def Overlong (cs : List Char) : Prop :=
  ∃ n rest, maxDimensions < n ∧ cs = List.replicate n '[' ++ rest

variable {c d : Descriptor} {k : DescriptorKind} {cs rest : List Char} {started : Bool} {n : Nat}

/-! ## Class names -/

theorem isSegmentChar_iff {x : Char} : isSegmentChar x = true ↔
    x ≠ ';' ∧ x ≠ '[' ∧ x ≠ '.' ∧ x ≠ '/' ∧ x ≠ ' ' := by
  simp [isSegmentChar, and_assoc]

theorem isSegment_iff : IsSegment cs ↔ cs ≠ [] ∧ ∀ x ∈ cs, isSegmentChar x = true := by
  simp only [IsSegment, isSegmentChar_iff]

theorem closesClass_slash :
    closesClass started ('/' :: rest) = (started && closesClass false rest) := by
  simp [closesClass]

/-- Behind one character of a segment there is more of it, or it is over. -/
theorem closesClass_cons {x : Char} (hx : isSegmentChar x = true) :
    closesClass started (x :: rest) = closesClass true rest := by
  obtain ⟨hsemicolon, -, -, hslash, -⟩ := isSegmentChar_iff.1 hx
  rw [closesClass, hx, Bool.true_and]
  · rintro heq -
    exact hsemicolon heq
  · exact hslash

theorem closesClass_append (hcs : ∀ x ∈ cs, isSegmentChar x = true) (hne : cs ≠ []) :
    closesClass started (cs ++ rest) = closesClass true rest := by
  induction cs generalizing started with
  | nil => exact absurd rfl hne
  | cons x cs ih =>
    rw [List.forall_mem_cons] at hcs
    rw [List.cons_append, closesClass_cons hcs.1]
    by_cases hnil : cs = []
    · rw [hnil, List.nil_append]
    · exact ih hcs.2 hnil

theorem intercalate_slash (first : List Char) (others : List (List Char)) :
    ['/'].intercalate (first :: others) = first ++ others.flatMap ('/' :: ·) := by
  induction others generalizing first with
  | nil => simp
  | cons second others ih => simp [List.intercalate_cons_cons, ih]

/-- More segments, each behind a slash, and the end. -/
theorem closesClass_flatMap {others : List (List Char)} (h : ∀ cs ∈ others, IsSegment cs) :
    closesClass true (others.flatMap ('/' :: ·) ++ [';']) = true := by
  induction others with
  | nil => rfl
  | cons cs others ih =>
    rw [List.forall_mem_cons, isSegment_iff] at h
    obtain ⟨⟨hne, hcs⟩, hothers⟩ := h
    simp only [List.flatMap_cons, List.cons_append, List.append_assoc]
    rw [closesClass_slash, Bool.true_and, closesClass_append hcs hne]
    exact ih hothers

/-- What is read to the end is the rest of a segment, which is empty only if the segment has begun
    before, and more segments. -/
theorem segments_of_closesClass (h : closesClass started cs = true) :
    ∃ (first : List Char) (others : List (List Char)),
      cs = first ++ others.flatMap ('/' :: ·) ++ [';'] ∧
      (started = true ∨ first ≠ []) ∧ (∀ x ∈ first, isSegmentChar x = true) ∧
      ∀ cs ∈ others, IsSegment cs := by
  fun_induction closesClass started cs with
  | case1 started => exact ⟨[], [], by simp, .inl h, by simp, by simp⟩
  | case2 started rest ih =>
    -- the slash ends a segment, and what follows begins another one
    rw [Bool.and_eq_true] at h
    obtain ⟨first, others, rfl, hbegun, hfirst, hothers⟩ := ih h.2
    have hne : first ≠ [] := hbegun.resolve_left Bool.false_ne_true
    refine ⟨[], first :: others, by simp, .inl h.1, by simp, ?_⟩
    exact List.forall_mem_cons.2 ⟨isSegment_iff.2 ⟨hne, hfirst⟩, hothers⟩
  | case3 started x rest _ _ ih =>
    rw [Bool.and_eq_true] at h
    obtain ⟨first, others, rfl, -, hfirst, hothers⟩ := ih h.2
    exact ⟨x :: first, others, by simp, .inr (by simp), List.forall_mem_cons.2 ⟨h.1, hfirst⟩,
      hothers⟩
  | case4 => exact absurd h Bool.false_ne_true

/-! ## Elements -/

/-- Texts without brackets are accepted as the grammar has them. -/
theorem elementKind?_eq_some_iff : elementKind? cs = some k ↔ ElementForm cs k := by
  constructor
  · intro h
    unfold elementKind? at h
    split at h
    · rename_i rest
      split at h
      · rename_i hclose
        cases h
        obtain ⟨first, others, rfl, hbegun, hfirst, hothers⟩ := segments_of_closesClass hclose
        have hne : first ≠ [] := hbegun.resolve_left Bool.false_ne_true
        have hform := ElementForm.classType (isSegment_iff.2 ⟨hne, hfirst⟩) hothers
        rwa [intercalate_slash] at hform
      · cases h
    · cases h
      exact .void
    · rename_i x _
      obtain ⟨t, ht, rfl⟩ := Option.map_eq_some_iff.1 h
      obtain rfl := Primitive.ofLetter?_eq_some_iff.1 ht
      exact .primitive t
    · cases h
  · intro h
    cases h with
    | void => rfl
    | primitive t => cases t <;> rfl
    | @classType first others hfirst hothers =>
      obtain ⟨hne, hfirst⟩ := isSegment_iff.1 hfirst
      have hclose : closesClass false (first ++ others.flatMap ('/' :: ·) ++ [';']) = true := by
        rw [List.append_assoc, closesClass_append hfirst hne]
        exact closesClass_flatMap hothers
      rw [intercalate_slash, List.cons_append, elementKind?, if_pos hclose]

/-! ## Arrays -/

theorem ElementForm.ne_bracket (h : ElementForm cs k) (rest : List Char) : cs ≠ '[' :: rest := by
  rintro rfl
  rw [← elementKind?_eq_some_iff] at h
  cases rest <;> cases h

/-- A text is as many brackets as it has dimensions, and its element. -/
theorem chars_eq_replicate (d : Descriptor) :
    d.chars = List.replicate d.dimensions '[' ++ d.element.chars := by
  have hbrackets : d.chars.takeWhile (· == '[') = List.replicate d.dimensions '[' := by
    refine List.eq_replicate_iff.2 ⟨rfl, fun x hx => ?_⟩
    simpa using List.mem_takeWhile_imp hx
  rw [element, chars_ofChars, ← hbrackets, List.takeWhile_append_dropWhile]

/-- Brackets in front count, whatever follows. -/
theorem le_dimensions_of_replicate (h : d.chars = List.replicate n '[' ++ rest) :
    n ≤ d.dimensions := by
  rw [dimensions, h, List.takeWhile_append_of_pos (by simp)]
  simp

/-- Brackets in front of something that begins with none are the dimensions. -/
theorem dimensions_of_replicate (h : d.chars = List.replicate n '[' ++ cs)
    (hcs : ∀ rest, cs ≠ '[' :: rest) : d.dimensions = n ∧ d.element.chars = cs := by
  obtain ⟨hdims, helement⟩ :=
    dimensions_eq_zero_of_not_bracket (d := ofChars cs) (by simpa using hcs)
  simp only [dimensions, element, chars_ofChars] at hdims helement ⊢
  rw [h, List.takeWhile_append_of_pos (by simp), List.dropWhile_append_of_pos (by simp)]
  exact ⟨by simp [hdims], by simpa using congrArg chars helement⟩

theorem overlong_iff : Overlong d.chars ↔ maxDimensions < d.dimensions := by
  constructor
  · rintro ⟨n, rest, hn, h⟩
    have := le_dimensions_of_replicate h
    omega
  · exact fun h => ⟨d.dimensions, d.element.chars, h, d.chars_eq_replicate⟩

/-! ## Descriptors -/

theorem kind?_eq (d : Descriptor) : d.kind? =
    if d.dimensions = 0 then elementKind? d.chars
    else arrayKind? d.dimensions d.element.chars := by
  unfold kind?
  split
  · rename_i rest hchars
    rw [if_neg (by simp [dimensions, hchars]), element, chars_ofChars, hchars]
  · rename_i hchars
    rw [if_pos (dimensions_eq_zero_of_not_bracket hchars).1]

/-- What has a kind is what the grammar has, and the kind is that of the form. -/
theorem kind?_eq_some_iff : d.kind? = some k ↔ Form d.chars k := by
  rw [kind?_eq]
  constructor
  · intro h
    split at h
    · exact .element (elementKind?_eq_some_iff.1 h)
    · rename_i hdims
      obtain ⟨rfl, hle, e, he, hvoid⟩ := arrayKind?_eq_some_iff.1 h
      rw [chars_eq_replicate]
      refine .array (Nat.pos_of_ne_zero hdims) hle (elementKind?_eq_some_iff.1 he) fun hV => ?_
      rw [hV] at he
      cases he
      exact hvoid rfl
  · intro h
    generalize hchars : d.chars = cs at h
    cases h with
    | element hform =>
      have hbracket := hform.ne_bracket
      rw [← hchars] at hbracket
      rw [if_pos (dimensions_eq_zero_of_not_bracket hbracket).1]
      exact elementKind?_eq_some_iff.2 hform
    | @array n cs k hpos hle hform hV =>
      obtain ⟨hdims, helement⟩ := dimensions_of_replicate hchars hform.ne_bracket
      rw [hdims, helement, if_neg (Nat.ne_of_gt hpos), arrayKind?_eq_some_iff]
      refine ⟨rfl, hle, k, elementKind?_eq_some_iff.2 hform, ?_⟩
      rintro rfl
      cases hform
      exact hV rfl

theorem isValid_iff : d.isValid = true ↔ ∃ k, Form d.chars k := by
  simp only [isValid, Option.isSome_iff_exists, kind?_eq_some_iff]

/-- What the grammar has is not empty and has few enough brackets. -/
theorem Form.not_overlong (h : Form d.chars k) : d.text ≠ "" ∧ ¬Overlong d.chars := by
  rw [← kind?_eq_some_iff, kind?_eq] at h
  constructor
  · intro hempty
    simp [chars, dimensions, hempty, elementKind?] at h
  · rw [overlong_iff]
    intro hlt
    rw [if_neg (by omega), arrayKind?_eq_some_iff] at h
    omega

theorem Overlong.ne_empty {s : String} (h : Overlong s.toList) : s ≠ "" := by
  obtain ⟨n, rest, hn, hs⟩ := h
  rintro rfl
  have hlength := congrArg List.length hs
  simp at hlength
  omega

/-- The elements of an array can be named, and are not void. -/
theorem form_of_component? (h : d.component? = some c) : c.text ≠ "V" ∧ ∃ k, Form c.chars k := by
  obtain ⟨harray, rfl⟩ := component?_eq_some_iff.1 h
  have hform : Form ('[' :: c.chars) .arrayType := by
    rw [← chars_arrayOf, ← kind?_eq_some_iff]
    simpa [isArray] using harray
  generalize hchars : '[' :: c.chars = cs at hform
  cases hform with
  | element hform => exact absurd hchars.symm (hform.ne_bracket _)
  | @array n cs k hpos hle hform hV =>
    obtain ⟨n, rfl⟩ := Nat.exists_eq_add_one_of_ne_zero (Nat.ne_of_gt hpos)
    rw [List.replicate_succ, List.cons_append, List.cons.injEq] at hchars
    have hvoid : c.text = "V" → c.chars = ['V'] := fun htext => by rw [chars, htext]; rfl
    rw [hchars.2] at hvoid ⊢
    -- with its last bracket gone an array is its innermost element
    cases n with
    | zero => exact ⟨mt hvoid hV, k, .element hform⟩
    | succ n =>
      rw [List.replicate_succ, List.cons_append, List.cons.injEq] at hvoid
      exact ⟨fun htext => absurd (hvoid htext).1 (by decide), .arrayType,
        .array (by omega) (by omega) hform hV⟩

/-- A text is refused for the first thing that is wrong with it. -/
theorem parse_cases (s : String) :
    (s = "" ∧ ¬Overlong s.toList ∧ (¬∃ k, Form s.toList k) ∧ parse s = .error .empty) ∨
    (s ≠ "" ∧ Overlong s.toList ∧ (¬∃ k, Form s.toList k) ∧
      parse s = .error (.tooManyDimensions s)) ∨
    (s ≠ "" ∧ ¬Overlong s.toList ∧ (∃ k, Form s.toList k) ∧ parse s = .ok ⟨s⟩) ∨
    (s ≠ "" ∧ ¬Overlong s.toList ∧ (¬∃ k, Form s.toList k) ∧
      parse s = .error (.malformed s)) := by
  have hlong : maxDimensions < (⟨s⟩ : Descriptor).dimensions ↔ Overlong s.toList :=
    overlong_iff.symm
  have hvalid : (⟨s⟩ : Descriptor).isValid = true ↔ ∃ k, Form s.toList k := isValid_iff
  have hform : ∀ k, Form s.toList k → s ≠ "" ∧ ¬Overlong s.toList :=
    fun k h => Form.not_overlong (d := ⟨s⟩) h
  unfold parse
  by_cases hs : s = ""
  · exact .inl ⟨hs, fun h => h.ne_empty hs, not_exists.2 fun k h => (hform k h).1 hs, if_pos hs⟩
  by_cases hover : Overlong s.toList
  · refine .inr (.inl ⟨hs, hover, not_exists.2 fun k h => (hform k h).2 hover, ?_⟩)
    exact (if_neg hs).trans (if_pos (hlong.2 hover))
  rw [if_neg hs, if_neg (mt hlong.1 hover)]
  by_cases hk : ∃ k, Form s.toList k
  · exact .inr (.inr (.inl ⟨hs, hover, hk, if_pos (hvalid.2 hk)⟩))
  · exact .inr (.inr (.inr ⟨hs, hover, hk, if_neg (mt hvalid.1 hk)⟩))

/-- A text is accepted, with the kind that its form has, exactly if the grammar has it, and otherwise
    the error says what is wrong with it. One bracket can be taken off every array, and what remains
    is accepted as well. -/
theorem parse_accepts_grammar (s : String) :
    (∀ k, (⟨s⟩ : Descriptor).kind? = some k ↔ Form s.toList k) ∧
    ((parse s = .ok ⟨s⟩ ↔ ∃ k, Form s.toList k) ∧
      (parse s = .error .empty ↔ s = "") ∧
      (parse s = .error (.tooManyDimensions s) ↔ Overlong s.toList) ∧
      (parse s = .error (.malformed s) ↔
        s ≠ "" ∧ ¬Overlong s.toList ∧ ¬∃ k, Form s.toList k)) ∧
    (∀ c, (⟨s⟩ : Descriptor).component? = some c ↔
      Form s.toList .arrayType ∧ (⟨s⟩ : Descriptor) = c.arrayOf) ∧
    ∀ c, (⟨s⟩ : Descriptor).component? = some c → c.text ≠ "V" ∧ ∃ k, Form c.chars k := by
  refine ⟨fun k => kind?_eq_some_iff, ?_, fun c => ?_, fun c => form_of_component?⟩
  · rcases parse_cases s with ⟨hs, hover, hform, hp⟩ | ⟨hs, hover, hform, hp⟩ |
      ⟨hs, hover, hform, hp⟩ | ⟨hs, hover, hform, hp⟩
    · exact ⟨iff_of_false (by simp [hp]) hform, iff_of_true hp hs,
        iff_of_false (by simp [hp]) hover, iff_of_false (by simp [hp]) fun h => h.1 hs⟩
    · exact ⟨iff_of_false (by simp [hp]) hform, iff_of_false (by simp [hp]) hs,
        iff_of_true hp hover, iff_of_false (by simp [hp]) fun h => h.2.1 hover⟩
    · exact ⟨iff_of_true hp hform, iff_of_false (by simp [hp]) hs,
        iff_of_false (by simp [hp]) hover, iff_of_false (by simp [hp]) fun h => h.2.2 hform⟩
    · exact ⟨iff_of_false (by simp [hp]) hform, iff_of_false (by simp [hp]) hs,
        iff_of_false (by simp [hp]) hover, iff_of_true hp ⟨hs, hover, hform⟩⟩
  · rw [component?_eq_some_iff, isArray, beq_iff_eq, kind?_eq_some_iff]
    exact Iff.rfl

/-- The array over `int` with as many dimensions as there may be is accepted, and the one with one
    more is not. -/
theorem deepest_array_accepted :
    (parse (String.ofList (List.replicate 255 '[' ++ ['I'])) =
        .ok (ofChars (List.replicate 255 '[' ++ ['I'])) ∧
      parse (String.ofList (List.replicate 256 '[' ++ ['I'])) =
        .error (.tooManyDimensions (String.ofList (List.replicate 256 '[' ++ ['I'])))) ∧
    component? ⟨"[[I"⟩ = some ⟨"[I"⟩ := by
  obtain ⟨-, ⟨hok, -⟩, -⟩ :=
    parse_accepts_grammar (String.ofList (List.replicate 255 '[' ++ ['I']))
  obtain ⟨-, ⟨-, -, hmany, -⟩, -⟩ :=
    parse_accepts_grammar (String.ofList (List.replicate 256 '[' ++ ['I']))
  obtain ⟨-, -, hcomponent, -⟩ := parse_accepts_grammar "[[I"
  rw [String.toList_ofList] at hok hmany
  have hint : ElementForm ['I'] (.primitive .int) := .primitive .int
  refine ⟨⟨hok.2 ⟨.arrayType, .array ?_ ?_ hint ?_⟩, hmany.2 ⟨256, ['I'], ?_, rfl⟩⟩, ?_⟩
  · decide
  · decide
  · decide
  · decide
  · exact (hcomponent _).2 ⟨.array (n := 2) (by decide) (by decide) hint (by decide), rfl⟩

end Descriptor

end BytecodeVerifier
