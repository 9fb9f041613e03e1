import BytecodeVerifier.Proofs.LabelResolution
import BytecodeVerifier.Proofs.ProgramPoints
import Mathlib.Data.List.Chain

/-!
# Bodies in normal form

`Body.IsNormal` says what a normal form looks like, without saying how it is made. The result of
`Body.normalize` always looks like that (`Body.isNormal_of_normalize`), and `Body.normalize` leaves
a body alone that does (`Body.IsNormal.normalize`). So a second normalization changes nothing
(`Body.normalize_canonical`).

The second half rests on one fact about collapsing runs of labels. If labels stand apart and are
numbered in order, then no label is dropped, and each gets the number that it has already. At the
entry the label that is there takes the place of the one that is added.
-/

namespace BytecodeVerifier

/-- At most one of the two instructions is a label mark. -/
def Instruction.Apart (i j : Instruction) : Prop := ¬(i.isLabel = true ∧ j.isLabel = true)

/-- The body is in normal form. -/
structure Body.IsNormal (b : Body) : Prop where
  /-- The first instruction is a label mark. -/
  entry : ∃ l, b.code.head? = some (.label l)
  /-- No two label marks are neighbours. -/
  apart : b.code.IsChain Instruction.Apart
  /-- The labels are `0, 1, 2, …` in the order in which they are placed. -/
  numbered : b.placed = (List.range b.labelCount).map Label.mk
  /-- Only these labels are referred to. -/
  resolved : ∀ l ∈ b.references, l.id < b.labelCount
  /-- Their number is one that a body can have. -/
  limited : b.labelCount ≤ Label.limit

/-! ## Keeping labels -/

section Keeping

variable {ε : Type} {f : Label → Except ε Label}

/-- What the mapped elements say is what the elements said, if the mapping keeps it. -/
theorem map_of_mapM {α β γ : Type} {g : α → Except ε β} {q : α → γ} {q' : β → γ} {as : List α}
    {bs : List β} (h : as.mapM g = .ok bs) (hg : ∀ a b, g a = .ok b → q' b = q a) :
    bs.map q' = as.map q := by
  have hall := forall₂_of_mapM h
  clear h
  induction hall with
  | nil => rfl
  | cons hab _ ih => rw [List.map_cons, List.map_cons, ih, hg _ _ hab]

theorem mapM_eq_map {α β : Type} {g : α → Except ε β} {q : α → β} {as : List α}
    (h : ∀ a ∈ as, g a = .ok (q a)) : as.mapM g = .ok (as.map q) := by
  induction as with
  | nil => rfl
  | cons a as ih =>
    rw [List.forall_mem_cons] at h
    rw [List.mapM_cons, h.1, ih h.2]
    rfl

theorem mapM_eq_self {α : Type} {g : α → Except ε α} {as : List α}
    (h : ∀ a ∈ as, g a = .ok a) : as.mapM g = .ok as := by
  simpa using mapM_eq_map (q := id) h

theorem Instruction.retarget_eq_self {i : Instruction} (h : ∀ l ∈ i.targets, f l = .ok l) :
    i.retarget f = .ok i := by
  cases i with
  | withTarget op rs l =>
    have hl : f l = .ok l := h l (List.mem_singleton.2 rfl)
    rw [retarget, hl]
    rfl
  | withTable op rs ks ls =>
    have hls : ls.mapM f = .ok ls := mapM_eq_self h
    rw [retarget, hls]
    rfl
  | _ => rfl

theorem TryRange.retarget_eq_self {r : TryRange} (h : ∀ l ∈ r.references, f l = .ok l) :
    r.retarget f = .ok r := by
  simp only [mem_references] at h
  have hhandlers : r.handlers.mapM (fun c => do return { c with label := ← f c.label }) =
      .ok r.handlers := by
    apply mapM_eq_self
    intro c hc
    rw [h c.label (.inr (.inr (.inl ⟨c, hc, rfl⟩)))]
    rfl
  have hcatchAll : r.catchAll.mapM f = .ok r.catchAll := by
    cases hc : r.catchAll with
    | none => rfl
    | some l => exact bind_eq_ok.2 ⟨l, h l (.inr (.inr (.inr hc))), rfl⟩
  rw [retarget, hhandlers, h r.start (.inl rfl), h r.stop (.inr (.inl rfl)), hcatchAll]
  rfl

theorem LineAnchor.retarget_eq_self {a : LineAnchor} (h : f a.label = .ok a.label) :
    a.retarget f = .ok a := by
  rw [retarget, h]
  rfl

end Keeping

/-! ## Collapsing runs of labels -/

namespace Relabeling

variable {n : Nat} {code : List Instruction} {l : Label}

theorem countP_isLabel (code : List Instruction) :
    code.countP Instruction.isLabel = (code.filterMap Instruction.placed?).length :=
  List.length_filterMap_eq_countP.symm

/-- Behind a label there is something else. -/
theorem isChain_label_cons : (Instruction.label l :: code).IsChain Instruction.Apart ↔
    (∀ i ∈ code.head?, i.isLabel = false) ∧ code.IsChain Instruction.Apart := by
  have hlabel : (Instruction.label l).isLabel = true := rfl
  simp [List.isChain_cons, Instruction.Apart, hlabel]

/-- In collapsed code labels stand apart, and none stands right behind the label in front. -/
theorem isChain_collapse (count : Nat) (atLabel : Bool) (code : List Instruction) :
    (collapse count atLabel code).code.IsChain Instruction.Apart ∧
      (atLabel = true → ∀ i ∈ (collapse count atLabel code).code.head?, i.isLabel = false) := by
  fun_induction collapse count atLabel code with
  | case1 => exact ⟨.nil, by simp⟩
  -- a label right behind a label is dropped
  | case2 count l rest r ih => exact ih
  -- a label that is kept is the one in front of the rest
  | case3 count l rest r ih =>
    exact ⟨isChain_label_cons.2 ⟨ih.2 rfl, ih.1⟩, fun hfalse => absurd hfalse Bool.false_ne_true⟩
  | case4 count atLabel i rest r hnot hnot' ih =>
    have hi : i.isLabel = false := by
      rw [Instruction.isLabel, placed?_eq_none hnot hnot', Option.isSome_none]
    constructor
    · simp [List.isChain_cons, Instruction.Apart, hi, r, ih.1]
    · simp [hi]

theorem isChain_ofCode (code : List Instruction) :
    (ofCode code).code.IsChain Instruction.Apart := by
  obtain ⟨hchain, hfront⟩ := isChain_collapse 1 true code
  exact isChain_label_cons.2 ⟨hfront rfl, hchain⟩

/-- Labels that stand apart and are numbered from `count` on are kept, each with its number. -/
theorem collapse_eq_self (count : Nat) (atLabel : Bool) (hapart : code.IsChain Instruction.Apart)
    (hfront : atLabel = true → ∀ i ∈ code.head?, i.isLabel = false)
    (hplaced : code.filterMap Instruction.placed? = (List.range' count n).map Label.mk) :
    collapse count atLabel code =
      ⟨code, (code.filterMap Instruction.placed?).map fun l => (l, l)⟩ := by
  induction code generalizing count atLabel n with
  | nil => rfl
  | cons i rest ih =>
    cases hi : i.placed? with
    | none =>
      -- an operation, behind which a label may stand
      rw [List.filterMap_cons_none hi] at hplaced ⊢
      have hrest := ih count false (List.isChain_cons.1 hapart).2
        (fun hfalse => absurd hfalse Bool.false_ne_true) hplaced
      cases i with
      | label l => cases hi
      | _ => cases atLabel <;> simp [collapse, hrest]
    | some l =>
      -- a label has the next number, and nothing stands right in front of it
      obtain rfl := Instruction.placed?_eq_some.1 hi
      rw [isChain_label_cons] at hapart
      cases atLabel with
      | true => exact absurd (hfront rfl _ rfl) (by simp [Instruction.isLabel, hi])
      | false =>
        cases n with
        | zero => simp [Instruction.placed?] at hplaced
        | succ n =>
          have hnumber : l = ⟨count⟩ ∧
              rest.filterMap Instruction.placed? = (List.range' (count + 1) n).map Label.mk := by
            simpa [Instruction.placed?, List.range'_succ] using hplaced
          obtain ⟨rfl, hnumbers⟩ := hnumber
          have hrest := ih (count + 1) true hapart.2 (fun _ => hapart.1) hnumbers
          simp [collapse, hrest, Instruction.placed?]

/-- The label at the entry takes the place of the one that is added there. -/
theorem ofCode_eq_self (hentry : code.head? = some (.label l))
    (hapart : code.IsChain Instruction.Apart)
    (hplaced : code.filterMap Instruction.placed? = (List.range n).map Label.mk) :
    ofCode code = ⟨code, (code.filterMap Instruction.placed?).map fun l => (l, l)⟩ := by
  obtain ⟨rest, rfl⟩ := List.head?_eq_some_iff.1 hentry
  rw [isChain_label_cons] at hapart
  rw [List.range_eq_range'] at hplaced
  cases n with
  | zero => simp [Instruction.placed?] at hplaced
  | succ n =>
    have hnumber : l = ⟨0⟩ ∧
        rest.filterMap Instruction.placed? = (List.range' 1 n).map Label.mk := by
      simpa [Instruction.placed?, List.range'_succ] using hplaced
    obtain ⟨rfl, hnumbers⟩ := hnumber
    have hrest := collapse_eq_self 1 true hapart.2 (fun _ => hapart.1) hnumbers
    simp [ofCode, collapse, hrest, Instruction.placed?]

/-- A label that is placed keeps its name if all do. -/
theorem rename_eq_self {r : Relabeling} {ls : List Label} (hr : r.renamed = ls.map fun l => (l, l))
    (hl : l ∈ ls) : r.rename l = .ok l := by
  cases hlookup : r.renamed.lookup l with
  | none =>
    have hmem : (l, l) ∈ r.renamed := hr ▸ List.mem_map.2 ⟨l, hl, rfl⟩
    simpa using List.lookup_eq_none_iff.1 hlookup _ hmem
  | some l' =>
    obtain ⟨pre, post, hsplit, -⟩ := List.lookup_eq_some_iff.1 hlookup
    have hmem : (l, l') ∈ ls.map fun l => (l, l) := by simp [← hr, hsplit]
    obtain ⟨_, -, heq⟩ := List.mem_map.1 hmem
    cases heq
    rw [rename, hlookup]

end Relabeling

/-! ## Normal form -/

namespace Body

variable {b n : Body}

/-- Normal form places the labels of the collapsed code, at the same positions. -/
theorem map_placed?_of_normalize (h : b.normalize = .ok n) :
    n.code.map Instruction.placed? =
      (Relabeling.ofCode b.code).code.map Instruction.placed? :=
  map_of_mapM (code_of_normalize h) fun _ _ => Instruction.placed?_of_retarget

/-- What `Body.normalize` makes is in normal form. -/
theorem isNormal_of_normalize (h : b.normalize = .ok n) : n.IsNormal := by
  obtain ⟨hlimit, -, -, -, -, hcount⟩ := normalize_eq_ok.1 h
  have hmarks := map_placed?_of_normalize h
  have hplaced : n.placed = (Relabeling.ofCode b.code).code.filterMap Instruction.placed? := by
    have hfilter := congrArg (List.filterMap id) hmarks
    rwa [List.filterMap_map, List.filterMap_map, Function.id_comp] at hfilter
  constructor
  case entry => exact ⟨⟨0⟩, List.head?_eq_getElem? ▸ (labeled_of_normalize h).entry⟩
  case apart =>
    -- whether labels stand apart can be read off the marks
    have hchain := Relabeling.isChain_ofCode b.code
    show n.code.IsChain fun i j => ¬(i.placed?.isSome = true ∧ j.placed?.isSome = true)
    rw [← List.isChain_map (R := fun x y : Option Label => ¬(x.isSome = true ∧ y.isSome = true)),
      hmarks, List.isChain_map]
    exact hchain
  case numbered =>
    obtain ⟨k, hk⟩ := Relabeling.placed_ofCode b.code
    have hk' : n.labelCount = k + 1 := by
      rw [hcount, Relabeling.countP_isLabel, hk, List.length_map, List.length_range']
    rw [hplaced, hk, hk', List.range_eq_range']
  case resolved =>
    obtain ⟨hreferences, hcounted⟩ := resolved_of_normalize h
    exact fun l hl => hcounted l (hreferences l hl)
  case limited =>
    rw [hcount]
    exact hlimit

/-- A body in normal form is its own normal form. -/
theorem IsNormal.normalize (hb : b.IsNormal) : b.normalize = .ok b := by
  obtain ⟨l, hentry⟩ := hb.entry
  have hcode := Relabeling.ofCode_eq_self hentry hb.apart hb.numbered
  have hcount : b.code.countP Instruction.isLabel = b.labelCount := by
    rw [Relabeling.countP_isLabel, ← placed, hb.numbered, List.length_map, List.length_range]
  -- every reference goes to a label that is placed, and keeps its name
  have hrename : ∀ l ∈ b.references, (Relabeling.ofCode b.code).rename l = .ok l := by
    intro l hl
    have hl : l ∈ b.placed := by
      rw [hb.numbered]
      exact List.mem_map.2 ⟨l.id, List.mem_range.2 (hb.resolved l hl), rfl⟩
    exact Relabeling.rename_eq_self (congrArg Relabeling.renamed hcode) hl
  simp only [mem_references] at hrename
  have hnodup : b.placed.Nodup := by
    rw [hb.numbered]
    exact List.Nodup.map (fun _ _ heq => by injection heq) List.nodup_range
  refine normalize_eq_ok.2 ⟨?_, ?_, ?_, ?_, ?_, ?_⟩
  · rw [hcode, hcount]
    exact hb.limited
  · exact firstRepeated?_eq_none_iff.2 ⟨hnodup, by simp⟩
  · rw [congrArg Relabeling.code hcode]
    exact mapM_eq_self fun i hi => Instruction.retarget_eq_self fun l hl =>
      hrename l (.inl ⟨i, hi, hl⟩)
  · exact mapM_eq_self fun r hr => TryRange.retarget_eq_self fun l hl =>
      hrename l (.inr (.inl ⟨r, hr, hl⟩))
  · exact mapM_eq_self fun a ha => LineAnchor.retarget_eq_self
      (hrename a.label (.inr (.inr ⟨a, ha, rfl⟩)))
  · rw [hcode, hcount]

/-- A normalization ends in normal form and, done again, changes nothing; it leaves every body alone
    that is in normal form. -/
theorem normalize_canonical :
    (∀ b n : Body, b.normalize = .ok n → n.IsNormal ∧ n.normalize = .ok n) ∧
      ∀ c : Body, c.IsNormal → c.normalize = .ok c := by
  constructor
  · intro b n h
    have hn := isNormal_of_normalize h
    exact ⟨hn, hn.normalize⟩
  · intro c hc
    exact hc.normalize

end Body

/-- The entry label of `untangled` is not doubled. -/
theorem untangled_canonical : tangled.normalize = .ok untangled ∧ untangled.IsNormal ∧
    untangled.normalize = .ok untangled := by
  have h : tangled.normalize = .ok untangled := by decide +kernel
  obtain ⟨hmade, hkept⟩ := Body.normalize_canonical
  exact ⟨h, (hmade _ _ h).1, hkept _ (hmade _ _ h).1⟩

end BytecodeVerifier
