import BytecodeVerifier.Proofs.ControlFlow
import Mathlib.Data.List.Forall2

/-!
# Program points

The program points of a body are the places in front of its operations and the one behind the last.
They are counted by operations, so that it does not matter how many labels stand at a point or what
they are called.

Normal form renames labels, drops some and adds one. It keeps the operations, and every reference to
a label goes to the program point to which it went before (`Body.normalize_keepsPoints`).
-/

namespace BytecodeVerifier

open List (Forall₂)

/-- The instruction is more than a label mark. -/
def Instruction.isOperation (i : Instruction) : Bool := !i.isLabel

/-- The code places the label in front of its operation number `k`, counted from zero. -/
def PlacesAt (code : List Instruction) (l : Label) (k : Nat) : Prop :=
  ∃ i, code[i]? = some (.label l) ∧ (code.take i).countP Instruction.isOperation = k

/-! ## What a reference may become -/

section Agreement

variable (R : Label → Label → Prop)

/-- The operations are the same but for the labels to which they refer, and these are related. -/
inductive Instruction.Agrees : Instruction → Instruction → Prop
  | plain (op : Opcode) (regs : List Register) : Agrees (.plain op regs) (.plain op regs)
  | withConstant (op : Opcode) (regs : List Register) (c : Constant) :
      Agrees (.withConstant op regs c) (.withConstant op regs c)
  | withTarget (op : Opcode) (regs : List Register) {l l' : Label} : R l l' →
      Agrees (.withTarget op regs l) (.withTarget op regs l')
  | withTable (op : Opcode) (regs : List Register) (keys : List Int32) {ls ls' : List Label} :
      Forall₂ R ls ls' → Agrees (.withTable op regs keys ls) (.withTable op regs keys ls')

/-- The handlers are for the same class of exceptions, and their labels are related. -/
structure CatchHandler.Agrees (h h' : CatchHandler) : Prop where
  exception : h'.exception = h.exception
  label : R h.label h'.label

/-- The ranges have as many handlers, and their labels are related one by one. -/
structure TryRange.Agrees (r r' : TryRange) : Prop where
  start : R r.start r'.start
  stop : R r.stop r'.stop
  handlers : Forall₂ (CatchHandler.Agrees R) r.handlers r'.handlers
  catchAll : Option.Rel R r.catchAll r'.catchAll

/-- The anchors are for the same source line, and their labels are related. -/
structure LineAnchor.Agrees (a a' : LineAnchor) : Prop where
  line : a'.line = a.line
  label : R a.label a'.label

end Agreement

namespace Body

/-- The operations of the body, in order. -/
def operations (b : Body) : List Instruction := b.code.filter Instruction.isOperation

/-- The label `l` of `b` and the label `l'` of `b'` each stand at one program point, and it is the
    same one. -/
def SamePoint (b b' : Body) (l l' : Label) : Prop :=
  ∃ k, (∀ j, PlacesAt b.code l j ↔ j = k) ∧ ∀ j, PlacesAt b'.code l' j ↔ j = k

/-- The bodies have the same operations, ranges and lines, and refer to the same program points. -/
structure KeepsPoints (b b' : Body) : Prop where
  operations : Forall₂ (Instruction.Agrees (b.SamePoint b')) b.operations b'.operations
  tries : Forall₂ (TryRange.Agrees (b.SamePoint b')) b.tries b'.tries
  lines : Forall₂ (LineAnchor.Agrees (b.SamePoint b')) b.lines b'.lines

end Body

/-! ## Replacing labels -/

section Retarget

variable {ε : Type} {f : Label → Except ε Label} {R : Label → Label → Prop}

/-- A list is mapped to one of the same length, element by element. -/
theorem forall₂_of_mapM {α β : Type} {g : α → Except ε β} {as : List α} {bs : List β}
    (h : as.mapM g = .ok bs) : Forall₂ (fun a b => g a = .ok b) as bs := by
  induction as generalizing bs with
  | nil =>
    cases h
    exact .nil
  | cons a as ih =>
    rw [List.mapM_cons] at h
    obtain ⟨b, hb, h⟩ := bind_eq_ok.1 h
    obtain ⟨bs, hbs, h⟩ := bind_eq_ok.1 h
    cases h
    exact .cons hb (ih hbs)

theorem Instruction.placed?_of_retarget {i i' : Instruction} (h : i.retarget f = .ok i') :
    i'.placed? = i.placed? := by
  cases i with
  | withTarget op rs l =>
    obtain ⟨l', -, h⟩ := bind_eq_ok.1 h
    cases h
    rfl
  | withTable op rs ks ls =>
    obtain ⟨ls', -, h⟩ := bind_eq_ok.1 h
    cases h
    rfl
  | _ =>
    cases h
    rfl

theorem Instruction.isOperation_of_retarget {i i' : Instruction} (h : i.retarget f = .ok i') :
    i'.isOperation = i.isOperation := by
  rw [isOperation, isOperation, isLabel, isLabel, placed?_of_retarget h]

theorem Instruction.agrees_of_retarget {i i' : Instruction} (hf : ∀ l l', f l = .ok l' → R l l')
    (hi : i.isOperation = true) (h : i.retarget f = .ok i') : i.Agrees R i' := by
  cases i with
  | label l => simp [isOperation, isLabel, placed?] at hi
  | plain op rs =>
    cases h
    exact .plain op rs
  | withConstant op rs c =>
    cases h
    exact .withConstant op rs c
  | withTarget op rs l =>
    obtain ⟨l', hl', h⟩ := bind_eq_ok.1 h
    cases h
    exact .withTarget op rs (hf l l' hl')
  | withTable op rs ks ls =>
    obtain ⟨ls', hls', h⟩ := bind_eq_ok.1 h
    cases h
    exact .withTable op rs ks ((forall₂_of_mapM hls').imp hf)

theorem TryRange.agrees_of_retarget {r r' : TryRange} (hf : ∀ l l', f l = .ok l' → R l l')
    (h : r.retarget f = .ok r') : r.Agrees R r' := by
  obtain ⟨handlers, hhandlers, h⟩ := bind_eq_ok.1 h
  obtain ⟨start, hstart, h⟩ := bind_eq_ok.1 h
  obtain ⟨stop, hstop, h⟩ := bind_eq_ok.1 h
  obtain ⟨catchAll, hcatchAll, h⟩ := bind_eq_ok.1 h
  cases h
  refine ⟨hf _ _ hstart, hf _ _ hstop, (forall₂_of_mapM hhandlers).imp ?_, ?_⟩
  · intro c c' hc
    obtain ⟨l', hl', hc⟩ := bind_eq_ok.1 hc
    cases hc
    exact ⟨rfl, hf _ _ hl'⟩
  · cases hall : r.catchAll with
    | none =>
      rw [hall] at hcatchAll
      cases hcatchAll
      exact .none
    | some l =>
      rw [hall] at hcatchAll
      obtain ⟨l', hl', hcatchAll⟩ := bind_eq_ok.1 hcatchAll
      cases hcatchAll
      exact .some (hf l l' hl')

theorem LineAnchor.agrees_of_retarget {a a' : LineAnchor} (hf : ∀ l l', f l = .ok l' → R l l')
    (h : a.retarget f = .ok a') : a.Agrees R a' := by
  obtain ⟨l', hl', h⟩ := bind_eq_ok.1 h
  cases h
  exact ⟨rfl, hf _ _ hl'⟩

end Retarget

/-! ## Points of code -/

variable {code code' : List Instruction} {l l' : Label} {k : Nat}

/-- Behind an operation the points are counted from one. -/
theorem placesAt_cons {i : Instruction} : PlacesAt (i :: code) l k ↔
    i = .label l ∧ k = 0 ∨ ∃ n, PlacesAt code l n ∧ k = n + i.isOperation.toNat := by
  constructor
  · rintro ⟨j, hj, hcount⟩
    cases j with
    | zero => exact .inl ⟨by simpa using hj, by simpa using hcount.symm⟩
    | succ j =>
      refine .inr ⟨_, ⟨j, by simpa using hj, rfl⟩, ?_⟩
      rw [← hcount, List.take_succ_cons, List.countP_cons]
      cases i.isOperation <;> rfl
  · rintro (⟨rfl, rfl⟩ | ⟨n, ⟨j, hj, hcount⟩, rfl⟩)
    · exact ⟨0, rfl, rfl⟩
    · refine ⟨j + 1, by simpa using hj, ?_⟩
      rw [List.take_succ_cons, List.countP_cons, hcount]
      cases i.isOperation <;> rfl

/-- A label is placed at one point if it is placed once. -/
theorem PlacesAt.eq_of_nodup (hnodup : (code.filterMap Instruction.placed?).Nodup)
    (h : PlacesAt code l k) {j : Nat} : PlacesAt code l j ↔ j = k := by
  constructor
  · rintro ⟨i, hi, rfl⟩
    obtain ⟨i', hi', rfl⟩ := h
    rw [Instruction.position_unique hnodup hi hi']
  · rintro rfl
    exact h

/-- Replacing the labels to which code refers does not move the labels that it places. -/
theorem placesAt_of_retarget {ε : Type} {f : Label → Except ε Label}
    (h : Forall₂ (fun i i' => i.retarget f = .ok i') code code') :
    PlacesAt code' l k ↔ PlacesAt code l k := by
  induction h generalizing k with
  | nil => exact Iff.rfl
  | @cons i i' code code' hi _ ih =>
    have hlabel : i' = .label l ↔ i = .label l := by
      rw [← Instruction.retarget_eq_label (f := f) (i := i), hi, Except.ok.injEq]
    simp only [placesAt_cons, hlabel, ih, Instruction.isOperation_of_retarget hi]

/-! ## Collapsing runs of labels -/

namespace Relabeling

variable {count : Nat} {atLabel : Bool}

/-- Collapsed code has the same operations. -/
theorem filter_collapse (count : Nat) (atLabel : Bool) (code : List Instruction) :
    (collapse count atLabel code).code.filter Instruction.isOperation =
      code.filter Instruction.isOperation := by
  have hlabel : ∀ l, (Instruction.label l).isOperation = false := fun _ => rfl
  fun_induction collapse count atLabel code with
  | case1 => rfl
  | case2 count l rest r ih => simpa [hlabel] using ih
  | case3 count l rest r ih => simpa [hlabel] using ih
  | case4 count atLabel i rest r hnot hnot' ih => simp only [List.filter_cons, r, ih]

/-- A label keeps its point under its new name, unless it is now the label right in front. -/
theorem placesAt_collapse (h : (l, l') ∈ (collapse count atLabel code).renamed) :
    ∃ k, PlacesAt code l k ∧ (PlacesAt (collapse count atLabel code).code l' k ∨
      atLabel = true ∧ l' = ⟨count - 1⟩ ∧ k = 0) := by
  fun_induction collapse count atLabel code with
  | case1 => simp at h
  -- a label that is dropped takes the name of the one in front of it
  | case2 count l₁ rest r ih =>
    rcases List.mem_cons.1 h with heq | h
    · cases heq
      exact ⟨0, placesAt_cons.2 (.inl ⟨rfl, rfl⟩), .inr ⟨rfl, rfl, rfl⟩⟩
    · obtain ⟨k, hk, hnew⟩ := ih h
      exact ⟨k, placesAt_cons.2 (.inr ⟨k, hk, rfl⟩), hnew⟩
  -- a label that is kept stands where it stood, with those right behind it
  | case3 count l₁ rest r ih =>
    rcases List.mem_cons.1 h with heq | h
    · cases heq
      exact ⟨0, placesAt_cons.2 (.inl ⟨rfl, rfl⟩), .inl (placesAt_cons.2 (.inl ⟨rfl, rfl⟩))⟩
    · obtain ⟨k, hk, hnew | ⟨-, rfl, rfl⟩⟩ := ih h
      · exact ⟨k, placesAt_cons.2 (.inr ⟨k, hk, rfl⟩),
          .inl (placesAt_cons.2 (.inr ⟨k, hnew, rfl⟩))⟩
      · exact ⟨0, placesAt_cons.2 (.inr ⟨0, hk, rfl⟩), .inl (placesAt_cons.2 (.inl ⟨rfl, rfl⟩))⟩
  | case4 count atLabel i rest r hnot hnot' ih =>
    obtain ⟨k, hk, hnew | ⟨hfalse, -⟩⟩ := ih h
    · exact ⟨k + i.isOperation.toNat, placesAt_cons.2 (.inr ⟨k, hk, rfl⟩),
        .inl (placesAt_cons.2 (.inr ⟨k, hnew, rfl⟩))⟩
    · cases hfalse

/-- A label keeps its point under its new name. -/
theorem placesAt_of_rename (h : (ofCode code).rename l = .ok l') :
    ∃ k, PlacesAt code l k ∧ PlacesAt (ofCode code).code l' k := by
  unfold rename at h
  split at h
  · rename_i hlookup
    cases h
    obtain ⟨pre, post, hsplit, -⟩ := List.lookup_eq_some_iff.1 hlookup
    have hmem : (l, l') ∈ (collapse 1 true code).renamed := by
      show (l, l') ∈ (ofCode code).renamed
      simp [hsplit]
    obtain ⟨k, hk, hnew | ⟨-, rfl, rfl⟩⟩ := placesAt_collapse hmem
    · exact ⟨k, hk, placesAt_cons.2 (.inr ⟨k, hnew, rfl⟩)⟩
    -- the labels in front of all code take the name of the one that is added there
    · exact ⟨0, hk, placesAt_cons.2 (.inl ⟨rfl, rfl⟩)⟩
  · cases h

end Relabeling

/-! ## Normal form -/

namespace Body

variable {b b' : Body}

/-- If no label is found a second time, none is placed twice. -/
theorem firstRepeated?_eq_none_iff {seen ls : List Label} :
    firstRepeated? seen ls = none ↔ ls.Nodup ∧ ∀ l ∈ ls, l ∉ seen := by
  induction ls generalizing seen with
  | nil => simp [firstRepeated?]
  | cons l ls ih =>
    by_cases hl : l ∈ seen
    · simp [firstRepeated?, hl]
    · simp only [firstRepeated?, hl, if_false, ih, List.nodup_cons, List.mem_cons, not_or,
        forall_eq_or_imp, not_false_eq_true, true_and]
      constructor
      · rintro ⟨hnodup, hseen⟩
        exact ⟨⟨fun hmem => (hseen l hmem).1 rfl, hnodup⟩, fun l' hl' => (hseen l' hl').2⟩
      · rintro ⟨⟨hmem, hnodup⟩, hseen⟩
        exact ⟨hnodup, fun l' hl' => ⟨fun heq => hmem (heq ▸ hl'), hseen l' hl'⟩⟩

/-- The new name of a label stands at its program point. -/
theorem samePoint_of_rename (h : b.normalize = .ok b')
    (hl : (Relabeling.ofCode b.code).rename l = .ok l') : b.SamePoint b' l l' := by
  obtain ⟨k, hk, hk'⟩ := Relabeling.placesAt_of_rename hl
  have hnodup : b.placed.Nodup := (firstRepeated?_eq_none_iff.1 (normalize_eq_ok.1 h).2.1).1
  refine ⟨k, fun j => hk.eq_of_nodup hnodup, fun j => ?_⟩
  rw [placesAt_of_retarget (forall₂_of_mapM (code_of_normalize h))]
  exact hk'.eq_of_nodup (Relabeling.nodup_placed_ofCode b.code)

theorem operations_of_normalize (h : b.normalize = .ok b') :
    Forall₂ (fun i i' => i.retarget (Relabeling.ofCode b.code).rename = .ok i') b.operations
      b'.operations := by
  have hfilter : b.operations =
      (Relabeling.ofCode b.code).code.filter Instruction.isOperation := by
    have hentry : (Instruction.label ⟨0⟩).isOperation = false := rfl
    simp [operations, Relabeling.ofCode, hentry, Relabeling.filter_collapse]
  rw [hfilter]
  apply List.rel_filter _ (forall₂_of_mapM (code_of_normalize h))
  intro i i' hi
  dsimp only
  rw [Instruction.isOperation_of_retarget hi]

/-- Normal form keeps the operations of a body with their opcodes, registers, constants and keys. It
    keeps the ranges and the lines, and each reference of any of them to a label becomes a reference
    to a label at the same program point. -/
theorem normalize_keepsPoints (h : b.normalize = .ok b') : b.KeepsPoints b' := by
  obtain ⟨-, -, -, htries, hlines, -⟩ := normalize_eq_ok.1 h
  have hpoint : ∀ l l', (Relabeling.ofCode b.code).rename l = .ok l' → b.SamePoint b' l l' :=
    fun l l' => samePoint_of_rename h
  constructor
  case operations =>
    have hall : ∀ i ∈ b.operations, i.isOperation = true := fun i hi => (List.mem_filter.1 hi).2
    have hboth := (List.forall₂_and_left _ _).2 ⟨hall, operations_of_normalize h⟩
    exact hboth.imp fun i i' hi => Instruction.agrees_of_retarget hpoint hi.1 hi.2
  case tries => exact (forall₂_of_mapM htries).imp fun r r' => TryRange.agrees_of_retarget hpoint
  case lines => exact (forall₂_of_mapM hlines).imp fun a a' => LineAnchor.agrees_of_retarget hpoint

end Body

/-- Runs of labels at the entry, in the middle and behind the last operation, referred to from in
    front and from behind. -/
def tangled : Body where
  code :=
    [.label ⟨3⟩, .label ⟨1⟩, .withTable (.switch .packed) [0] [0, 5] [⟨7⟩, ⟨1⟩], .label ⟨7⟩,
      .label ⟨4⟩, .withTarget .goto [] ⟨9⟩, .label ⟨5⟩, .plain .moveException [0], .label ⟨9⟩,
      .label ⟨2⟩, .plain .returnVoid [], .label ⟨8⟩, .label ⟨0⟩]
  tries :=
    [{ start := ⟨1⟩, stop := ⟨4⟩, handlers := [⟨.throwable, ⟨5⟩⟩], catchAll := some ⟨9⟩ },
      { start := ⟨2⟩, stop := ⟨0⟩, handlers := [], catchAll := some ⟨5⟩ }]
  lines := [⟨⟨2⟩, 42⟩, ⟨⟨3⟩, 7⟩]
  labelCount := 10

/-- The normal form of `tangled`. -/
def untangled : Body where
  code :=
    [.label ⟨0⟩, .withTable (.switch .packed) [0] [0, 5] [⟨1⟩, ⟨0⟩], .label ⟨1⟩,
      .withTarget .goto [] ⟨3⟩, .label ⟨2⟩, .plain .moveException [0], .label ⟨3⟩,
      .plain .returnVoid [], .label ⟨4⟩]
  tries :=
    [{ start := ⟨0⟩, stop := ⟨1⟩, handlers := [⟨.throwable, ⟨2⟩⟩], catchAll := some ⟨3⟩ },
      { start := ⟨3⟩, stop := ⟨4⟩, handlers := [], catchAll := some ⟨2⟩ }]
  lines := [⟨⟨3⟩, 42⟩, ⟨⟨0⟩, 7⟩]
  labelCount := 5

/-- Each reference ends up at the point to which it went. -/
theorem tangled_keepsPoints :
    tangled.normalize = .ok untangled ∧ tangled.KeepsPoints untangled := by
  have h : tangled.normalize = .ok untangled := by decide +kernel
  exact ⟨h, Body.normalize_keepsPoints h⟩

end BytecodeVerifier
