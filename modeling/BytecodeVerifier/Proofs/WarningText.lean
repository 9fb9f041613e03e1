import BytecodeVerifier.Proofs.DescriptorGrammar
import BytecodeVerifier.Proofs.OperationObjections
import Mathlib.Data.List.Basic
import Mathlib.Data.Nat.Digits.Defs

/-!
# Warnings are told apart by their texts

A warning is known to the outside by its kind, its message and its position. Two different warnings
that can be raised at one position differ in their kind or in their message
(`Environment.Warns.eq_of_message_eq`). The messages are read back piece by piece: a number ends
where its digits do, and a descriptor at the end of a message begins behind the last blank, since a
well-formed descriptor has none (`Descriptor.blank_notMem`). Descriptors in the middle of a message
may hold any text.
-/

namespace BytecodeVerifier

/-! ## Splitting texts -/

namespace Text

variable {c : Char} {x y z w : List Char}

/-- A text is split at the first occurrence of a character. -/
theorem append_cons_inj (hx : c ∉ x) (hy : c ∉ y) (h : x ++ c :: z = y ++ c :: w) :
    x = y ∧ z = w := by
  induction x generalizing y with
  | nil =>
    cases y with
    | nil => exact ⟨rfl, List.tail_eq_of_cons_eq h⟩
    | cons b y => exact absurd (List.head_eq_of_cons_eq h ▸ List.mem_cons_self) hy
  | cons a x ih =>
    cases y with
    | nil => exact absurd (List.head_eq_of_cons_eq h ▸ List.mem_cons_self) hx
    | cons b y =>
      rw [List.cons_append, List.cons_append, List.cons.injEq] at h
      obtain ⟨rfl, h⟩ := h
      obtain ⟨rfl, rfl⟩ := ih (List.not_mem_of_not_mem_cons hx) (List.not_mem_of_not_mem_cons hy) h
      exact ⟨rfl, rfl⟩

/-- A text is split at the last occurrence of a character. -/
theorem append_cons_inj_last (hz : c ∉ z) (hw : c ∉ w) (h : x ++ c :: z = y ++ c :: w) :
    x = y ∧ z = w := by
  have hreverse := congrArg List.reverse h
  simp only [List.reverse_append, List.reverse_cons, List.append_assoc, List.singleton_append]
    at hreverse
  obtain ⟨hzw, hxy⟩ := append_cons_inj (by simpa using hz) (by simpa using hw) hreverse
  exact ⟨List.reverse_injective hxy, List.reverse_injective hzw⟩

/-- A number is read off if a blank follows it. -/
theorem number_inj {m n : Nat} (h : Nat.toDigits 10 m ++ ' ' :: x = Nat.toDigits 10 n ++ ' ' :: y) :
    m = n ∧ x = y := by
  have hblank (k : Nat) : ' ' ∉ Nat.toDigits 10 k := fun hmem =>
    absurd (Nat.isDigit_of_mem_toDigits (by decide) (by decide) hmem) (by decide)
  obtain ⟨hnumber, hrest⟩ := append_cons_inj (hblank m) (hblank n) h
  have hvalue := congrArg (Nat.ofDigitChars 10 · 0) hnumber
  rw [Nat.ofDigitChars_ten_toDigits, Nat.ofDigitChars_ten_toDigits] at hvalue
  exact ⟨hvalue, hrest⟩

private theorem digitChar_inj {m n : Nat} (hm : m < 16) (hn : n < 16)
    (h : Nat.digitChar m = Nat.digitChar n) : m = n := by
  have hall : ∀ i < 16, ∀ j < 16, Nat.digitChar i = Nat.digitChar j → i = j := by decide
  exact hall m hm n hn h

private theorem toDigits_inj {m n : Nat} (h : Nat.toDigits 16 m = Nat.toDigits 16 n) : m = n := by
  -- the last digit is cut off at a time, and a single digit is no longer number with it
  induction m using Nat.strongRecOn generalizing n with
  | ind m ih =>
    have hlast {i j : Nat} (hi : i < 16) (hj : 16 ≤ j) :
        Nat.toDigits 16 i ≠ Nat.toDigits 16 j := by
      rw [Nat.toDigits_of_lt_base hi, Nat.toDigits_of_base_le (by omega) hj]
      intro h
      have hlength := congrArg List.length h
      have hpos := Nat.length_toDigits_pos (b := 16) (n := j / 16)
      simp only [List.length_append, List.length_singleton] at hlength
      omega
    by_cases hm : m < 16
    · by_cases hn : n < 16
      · rw [Nat.toDigits_of_lt_base hm, Nat.toDigits_of_lt_base hn] at h
        exact digitChar_inj hm hn (List.singleton_inj.1 h)
      · exact absurd h (hlast hm (by omega))
    · by_cases hn : n < 16
      · exact absurd h.symm (hlast hn (by omega))
      · have hm' := Nat.toDigits_of_base_le (b := 16) (by omega) (Nat.le_of_not_lt hm)
        have hn' := Nat.toDigits_of_base_le (b := 16) (by omega) (Nat.le_of_not_lt hn)
        rw [hm', hn'] at h
        obtain ⟨hinit, hdigit⟩ := List.append_inj' h rfl
        have hdiv := ih (m / 16) (by omega) hinit
        have hmod := digitChar_inj (by omega) (by omega) (List.singleton_inj.1 hdigit)
        omega

theorem hex_inj {m n : Nat} (h : hex m = hex n) : m = n := by
  apply toDigits_inj
  exact String.ofList_inj.1 h

end Text

namespace Descriptor

theorem ElementForm.blank_notMem {cs : List Char} {k : DescriptorKind} (h : ElementForm cs k) :
    ' ' ∉ cs := by
  have hsegment {cs : List Char} (hcs : IsSegment cs) : ' ' ∉ cs :=
    fun hblank => (hcs.2 ' ' hblank).2.2.2.2 rfl
  cases h with
  | void => decide
  | primitive t => cases t <;> decide
  | classType hfirst hothers =>
    rw [intercalate_slash]
    simp only [List.cons_append, List.mem_cons, List.mem_append, List.mem_flatMap]
    rintro (hL | (hblank | ⟨cs, hcs, hslash | hblank⟩) | hsemicolon)
    · exact absurd hL (by decide)
    · exact hsegment hfirst hblank
    · exact absurd hslash (by decide)
    · exact hsegment (hothers cs hcs) hblank
    · exact absurd hsemicolon (by decide)

/-- A well-formed descriptor has no blank. -/
theorem blank_notMem {d : Descriptor} (h : d.isReference = true) : ' ' ∉ d.text.toList := by
  obtain ⟨k, hk, -⟩ := (Option.any_eq_true _ _).1 h
  have hform : Form d.text.toList k := kind?_eq_some_iff.1 hk
  generalize d.text.toList = cs at hform
  cases hform with
  | element hform => exact hform.blank_notMem
  | array _ _ hform _ =>
    rw [List.mem_append, List.mem_replicate]
    rintro (⟨-, hbracket⟩ | hblank)
    · exact absurd hbracket (by decide)
    · exact hform.blank_notMem hblank

end Descriptor

/-! ## Texts of types -/

namespace RegType

/-- An initialized object that is not known to be null. -/
inductive IsInstance : RegType → Prop
  | known (d : Descriptor) (precise : Bool) : IsInstance (.reference (.named d) precise)
  | unknown (d : Descriptor) : IsInstance (.unresolved (.named d))
  | merged : IsInstance .unresolvedMerged

variable {t u : RegType}

theorem isInstance_of_isNamed (hname : t.isNamed = true) (href : t.isNonNullReference = true)
    (hinit : t.isUninitialized = false) : t.IsInstance := by
  cases t with
  | reference c precise =>
    cases c with
    | named d => exact .known d precise
    | unissued n => exact absurd hname (by simp [isNamed, className?, ClassName.descriptor?])
  | unresolved c =>
    cases c with
    | named d => exact .unknown d
    | unissued n => exact absurd hname (by simp [isNamed, className?, ClassName.descriptor?])
  | unresolvedMerged => exact .merged
  | uninitialized | uninitializedThis => exact absurd hinit.symm Bool.false_ne_true
  | _ => exact absurd href Bool.false_ne_true

theorem render_known (d : Descriptor) :
    (reference (.named d) false).render = "Reference: " ++ d.text := by
  show "" ++ "Reference: " ++ d.text = _
  rw [String.empty_append]

theorem render_precise (d : Descriptor) :
    (reference (.named d) true).render = "Precise Reference: " ++ d.text := by
  show "Precise " ++ "Reference: " ++ d.text = _
  congr 1

theorem render_unknown (d : Descriptor) :
    (unresolved (.named d)).render = "Unresolved Reference: " ++ d.text := rfl

theorem render_merged : unresolvedMerged.render = "Unresolved Merged References" := rfl

/-- An initialized object is known by its text. -/
theorem IsInstance.eq_of_render_eq (ht : t.IsInstance) (hu : u.IsInstance)
    (h : t.render = u.render) : t = u := by
  rw [← String.toList_inj] at h
  cases ht with
  | known d precise =>
    cases hu with
    | known d' precise' =>
      cases precise <;> cases precise' <;> simp [render_known, render_precise] at h ⊢
      · exact Descriptor.chars_inj h
      · exact Descriptor.chars_inj h
    | unknown | merged =>
      cases precise <;> simp [render_known, render_precise, render_unknown, render_merged] at h
  | unknown d =>
    cases hu with
    | known d' precise =>
      cases precise <;> simp [render_known, render_precise, render_unknown] at h
    | unknown d' =>
      simp only [render_unknown, String.toList_append, List.append_cancel_left_eq] at h
      rw [Descriptor.chars_inj h]
    | merged => simp [render_unknown, render_merged] at h
  | merged =>
    cases hu with
    | known d' precise => cases precise <;> simp [render_known, render_precise, render_merged] at h
    | unknown d' => simp [render_unknown, render_merged] at h
    | merged => rfl

/-- What stands before the descriptor in the text of a declared type. -/
private def opening : RegType → String
  | .reference _ false => "Reference:"
  | .reference _ true => "Precise Reference:"
  | _ => "Unresolved Reference:"

/-- The text of a declared type ends in its descriptor. -/
private theorem IsDeclared.exists_descriptor (ht : t.IsDeclared) :
    ∃ d : Descriptor, d.isReference = true ∧ t.descriptor? = some d ∧
      t.render.toList = t.opening.toList ++ ' ' :: d.text.toList := by
  cases ht with
  | @known d hd precise =>
    refine ⟨d, hd, rfl, ?_⟩
    cases precise with
    | false => simp [render_known, opening]
    | true => simp [render_precise, opening]
  | @unknown d hd => exact ⟨d, hd, rfl, by simp [render_unknown, opening]⟩

private theorem IsDeclared.eq_of_opening_eq (ht : t.IsDeclared) (hu : u.IsDeclared)
    (h : t.opening = u.opening) (hd : t.descriptor? = u.descriptor?) : t = u := by
  cases ht with
  | known _ precise =>
    cases hu with
    | known _ precise' =>
      cases hd
      cases precise <;> cases precise' <;> first | rfl | simp [opening] at h
    | unknown => cases precise <;> simp [opening] at h
  | unknown =>
    cases hu with
    | known _ precise => cases precise <;> simp [opening] at h
    | unknown =>
      cases hd
      rfl

/-- A text that is followed by a type does not run into it. -/
private theorem opening_inj {x y sep : String} (hsep : sep = " but expected " ∨ sep = " into ")
    (h : x.toList ++ sep.toList ++ t.opening.toList = y.toList ++ sep.toList ++ u.opening.toList) :
    x = y ∧ t.opening = u.opening := by
  have hreverse := congrArg List.reverse h
  have hopening (v : RegType) : v.opening = "Reference:" ∨ v.opening = "Precise Reference:" ∨
      v.opening = "Unresolved Reference:" := by
    unfold opening
    split <;> simp
  rcases hopening t with ht | ht | ht <;> rcases hopening u with hu | hu | hu <;>
    rcases hsep with rfl | rfl <;> simp [ht, hu, String.toList_inj] at hreverse ⊢ <;> exact hreverse

/-- A type at the end of a text is read off, whatever stands before it. -/
theorem IsDeclared.eq_of_append_eq {x y sep : String} (ht : t.IsDeclared) (hu : u.IsDeclared)
    (hsep : sep = " but expected " ∨ sep = " into ")
    (h : x ++ sep ++ t.render = y ++ sep ++ u.render) : x = y ∧ t = u := by
  obtain ⟨d, hd, htd, htext⟩ := ht.exists_descriptor
  obtain ⟨d', hd', hud, hutext⟩ := hu.exists_descriptor
  have hchars := congrArg String.toList h
  simp only [String.toList_append, htext, hutext, ← List.append_assoc] at hchars
  obtain ⟨hbefore, hsame⟩ := Text.append_cons_inj_last (Descriptor.blank_notMem hd)
    (Descriptor.blank_notMem hd') hchars
  obtain ⟨rfl, hopening⟩ := opening_inj hsep hbefore
  obtain rfl : d = d' := Descriptor.chars_inj hsame
  exact ⟨rfl, ht.eq_of_opening_eq hu hopening (htd.trans hud.symm)⟩

end RegType

/-! ## Texts of warnings -/

namespace Warning

private theorem typeMismatch_inj {reg reg' : Nat} {a a' e e' : RegType} (ha : a.IsInstance)
    (ha' : a'.IsInstance) (he : e.IsDeclared) (he' : e'.IsDeclared)
    (h : (typeMismatch reg a e).message = (typeMismatch reg' a' e').message) :
    typeMismatch reg a e = typeMismatch reg' a' e' := by
  obtain ⟨hbefore, rfl⟩ := he.eq_of_append_eq he' (.inl rfl) h
  have hchars := congrArg String.toList hbefore
  simp only [Nat.toString_eq_repr, String.toList_append, String.reduceToList, Nat.toList_repr,
    List.cons_append, List.nil_append, List.append_assoc, List.cons.injEq, true_and] at hchars
  obtain ⟨rfl, hrest⟩ := Text.number_inj hchars
  simp only [List.cons.injEq, true_and, String.toList_inj] at hrest
  rw [ha.eq_of_render_eq ha' hrest]

private theorem storedElement_inj {t t' a a' : RegType} (ht : t.IsInstance) (ht' : t'.IsInstance)
    (ha : a.IsDeclared) (ha' : a'.IsDeclared)
    (h : (storedElement t a).message = (storedElement t' a').message) :
    storedElement t a = storedElement t' a' := by
  obtain ⟨hbefore, rfl⟩ := ha.eq_of_append_eq ha' (.inr rfl) h
  rw [ht.eq_of_render_eq ht' ((String.append_right_inj _).1 hbefore)]

private theorem monitorMismatch_inj {i i' n n' t t' : Nat}
    (h : (monitorMismatch i n t).message = (monitorMismatch i' n' t').message) :
    monitorMismatch i n t = monitorMismatch i' n' t' := by
  have hchars :
      ("monitor depth " ++ toString i ++ " does not match " ++ toString n ++ " at join [0x" ++
        Text.hex t ++ "]").toList =
      ("monitor depth " ++ toString i' ++ " does not match " ++ toString n' ++ " at join [0x" ++
        Text.hex t' ++ "]").toList :=
    congrArg String.toList h
  simp only [Nat.toString_eq_repr, String.toList_append, String.reduceToList, Nat.toList_repr,
    List.cons_append, List.nil_append, List.append_assoc, List.cons.injEq, true_and] at hchars
  obtain ⟨rfl, hrest⟩ := Text.number_inj hchars
  simp only [List.cons.injEq, true_and] at hrest
  obtain ⟨rfl, hjoin⟩ := Text.number_inj hrest
  simp only [List.cons.injEq, true_and, List.append_cancel_right_eq, String.toList_inj] at hjoin
  rw [Text.hex_inj hjoin]

private theorem monitorsHeld_inj {n n' : Nat}
    (h : (monitorsHeld n).message = (monitorsHeld n').message) :
    monitorsHeld n = monitorsHeld n' := by
  have hchars : ("returning with " ++ toString n ++ " monitors held").toList =
      ("returning with " ++ toString n' ++ " monitors held").toList := congrArg String.toList h
  simp only [Nat.toString_eq_repr, String.toList_append, String.reduceToList, Nat.toList_repr,
    List.cons_append, List.nil_append, List.cons.injEq, true_and] at hchars
  rw [(Text.number_inj hchars).1]

/-- The letter at which the messages of one kind part. -/
private def mark (w : Warning) : Option Char :=
  match w.kind with
  | .noClass => w.message.toList[18]?
  | .locking => w.message.toList[7]?
  | _ => w.message.toList[2]?

@[simp] private theorem mark_typeMismatch (reg : Nat) (a e : RegType) :
    (typeMismatch reg a e).mark = some 'g' := by
  show ("register v" ++ toString reg ++ " has type " ++ a.render ++ " but expected " ++
    e.render).toList[2]? = _
  simp

@[simp] private theorem mark_receiverMismatch (a : RegType) (d : Descriptor) :
    (receiverMismatch a d).mark = some 'c' := by
  show ("receiver " ++ a.render ++ " is not an instance of " ++ d.text).toList[2]? = _
  simp

@[simp] private theorem mark_storedElement (t a : RegType) :
    (storedElement t a).mark = some 'u' := by
  show ("aput-object of " ++ t.render ++ " into " ++ a.render).toList[2]? = _
  simp

@[simp] private theorem mark_fieldObject (field : FieldRef) (t : RegType) :
    (fieldObject field t).mark = some 'n' := by
  show ("cannot access field " ++ field.render ++ " through " ++ t.render).toList[2]? = _
  simp

@[simp] private theorem mark_fieldForm (place : FieldPlace) (form : ElementForm) (field : FieldRef)
    (t : RegType) : (fieldForm (.field place .get form) field t).mark = some 'e' := by
  show (place.letter ++ "get" ++ form.suffix ++ " on field " ++ field.render ++ " of type " ++
    t.render).toList[2]? = _
  cases place <;> simp [FieldPlace.letter]

@[simp] private theorem mark_unknownOwner (m : MethodRef) : (unknownOwner m).mark = some 'c' := by
  show ("unable to resolve class " ++ m.owner.text ++ " for " ++ m.render).toList[18]? = _
  simp

@[simp] private theorem mark_unknownDeclaringClass (d : Descriptor) (m : MethodRef) :
    (unknownDeclaringClass d m).mark = some 'd' := by
  show ("unable to resolve declaring class " ++ d.text ++ " for " ++ m.render).toList[18]? = _
  simp

@[simp] private theorem mark_unknownMethod (m : MethodRef) : (unknownMethod m).mark = some 'a' := by
  show ("unable to resolve method " ++ m.render).toList[2]? = _
  simp

@[simp] private theorem mark_superOutside (m : MethodRef) (d : Descriptor) :
    (superOutside m d).mark = some 'v' := by
  show ("invoke-super to " ++ m.render ++ " outside the superclasses of " ++ d.text).toList[2]? = _
  simp

@[simp] private theorem mark_monitorMismatch (i n t : Nat) :
    (monitorMismatch i n t).mark = some ' ' := by
  show ("monitor depth " ++ toString i ++ " does not match " ++ toString n ++ " at join [0x" ++
    Text.hex t ++ "]").toList[7]? = _
  simp

@[simp] private theorem mark_monitorsHeld (n : Nat) : (monitorsHeld n).mark = some 'n' := by
  show ("returning with " ++ toString n ++ " monitors held").toList[7]? = _
  simp

@[simp] private theorem mark_noMonitor : noMonitor.mark = some '-' := by
  show "monitor-exit with no monitor held".toList[7]? = _
  simp

private theorem mark_eq {w w' : Warning} (hkind : w.kind = w'.kind)
    (hmessage : w.message = w'.message) : w.mark = w'.mark := by
  rw [mark, mark, hkind, hmessage]

end Warning

/-- Of the warnings that can be raised at one position, no two have the same kind and message. -/
theorem Environment.Warns.eq_of_message_eq {env : Environment} {o : Option Operation}
    {w w' : Warning} (h : env.Warns RegType.IsInstance o w) (h' : env.Warns RegType.IsInstance o w')
    (hkind : w.kind = w'.kind) (hmessage : w.message = w'.message) : w = w' := by
  have hmark := Warning.mark_eq hkind hmessage
  cases h with
  | monitorMismatch i n t =>
    cases h' with
    | monitorMismatch i' n' t' => exact Warning.monitorMismatch_inj hmessage
    | _ => simp [Warning.kind] at hkind hmark
  | monitorsHeld n =>
    cases h' with
    | monitorsHeld n' => exact Warning.monitorsHeld_inj hmessage
    | _ => simp [Warning.kind] at hkind hmark
  | typeMismatch ha he =>
    cases h' with
    | typeMismatch ha' he' => exact Warning.typeMismatch_inj ha ha' he he' hmessage
    | _ => simp [Warning.kind] at hkind hmark
  | storedElement ht ha =>
    cases h' with
    | storedElement ht' ha' => exact Warning.storedElement_inj ht ht' ha ha' hmessage
    | _ => simp [Warning.kind] at hkind hmark
  | fieldObject ht =>
    cases h' with
    | fieldObject ht' => rw [ht.eq_of_render_eq ht' ((String.append_right_inj _).1 hmessage)]
    | _ => simp [Warning.kind] at hkind hmark
  | fieldForm place hplace =>
    cases h' with
    | fieldForm place' hplace' => rw [hplace, hplace']
    | _ => simp [Warning.kind] at hkind hmark
  | receiverMismatch ht =>
    cases h' with
    | receiverMismatch ht' =>
      have htext := (String.append_left_inj _).1 ((String.append_left_inj _).1 hmessage)
      rw [ht.eq_of_render_eq ht' ((String.append_right_inj _).1 htext)]
    | _ => simp [Warning.kind] at hkind hmark
  -- the other warnings are about nothing but what the operation names
  | _ => cases h' <;> first | rfl | simp [Warning.kind] at hkind hmark

end BytecodeVerifier
