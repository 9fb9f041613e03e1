import BytecodeVerifier.Proofs.NormalForm
import BytecodeVerifier.Proofs.TaskModel

/-!
# The layout of a normal form

The layout of a body is what a verifier asks about positions. For a body in normal form it can be
read off the body: where a label stands in the code (`Body.positionOf`), the ranges between whose
labels a position lies, and the labels that branches and handlers refer to (`Body.Aimed`).
`Layout.Exact` says that every answer of a layout is the one that is read off, in the order of the
ranges and their handlers, and `Body.layout_exact` that a normal form has such a layout. Ranges may
overlap, be empty or run backwards, and a handler may serve several ranges or lie in its own.
-/

namespace BytecodeVerifier

/-- The labels of the handlers in order, that of the handler for everything last. -/
def TryRange.handlerLabels (r : TryRange) : List Label :=
  r.handlers.map CatchHandler.label ++ r.catchAll.toList

namespace Body

/-- Where the code places the label first, or the end of the code if it does not. -/
def positionOf (b : Body) (l : Label) : Nat := b.code.idxOf (.label l)

/-- The range begins at or before position `i` and ends behind it. -/
def encloses (b : Body) (i : Nat) (r : TryRange) : Bool :=
  b.positionOf r.start ≤ i && i < b.positionOf r.stop

/-- What the range catches at position `i`: the exceptions of the handlers there in order, and
    everything if the handler for everything is there. -/
def catchesAt (b : Body) (i : Nat) (r : TryRange) : List (Option Descriptor) :=
  (r.handlers.filter fun h => b.positionOf h.label = i).map (fun h => some h.exception) ++
    (r.catchAll.filter fun l => b.positionOf l = i).toList.map fun _ => none

/-- A branch, a case of a table or a handler refers to the label. -/
inductive Aimed (b : Body) : Label → Prop
  | branch {op : Opcode} {rs : List Register} {l : Label} : .withTarget op rs l ∈ b.code → Aimed b l
  | tableCase {op : Opcode} {rs : List Register} {ks : List Int32} {ls : List Label} {l : Label} :
      .withTable op rs ks ls ∈ b.code → l ∈ ls → Aimed b l
  | handler {r : TryRange} {h : CatchHandler} : r ∈ b.tries → h ∈ r.handlers → Aimed b h.label
  | catchAll {r : TryRange} {l : Label} : r ∈ b.tries → r.catchAll = some l → Aimed b l

end Body

/-- What is known of position `i` is what the body says of it. -/
structure Site.Exact (s : Site) (b : Body) (i : Nat) : Prop where
  inTry : s.inTry = true ↔ ∃ r ∈ b.tries, b.positionOf r.start ≤ i ∧ i < b.positionOf r.stop
  isTarget : s.isTarget = true ↔ i = 0 ∨ ∃ l, b.Marks i l ∧ b.Aimed l
  marked : s.isTarget = true → ∃ l, b.Marks i l
  catches : s.catches = b.tries.flatMap (b.catchesAt i)

/-- The layout answers as the body does. -/
structure Layout.Exact (lay : Layout) (b : Body) : Prop where
  size : lay.size = b.code.length
  position {l : Label} : l.id < b.labelCount →
    lay.labels.position l = .ok (b.positionOf l) ∧ ∀ i, b.Marks i l ↔ i = b.positionOf l
  site {i : Nat} : i < b.code.length → ∃ s, lay.site i = .ok s ∧ s.Exact b i
  handlers (i : Nat) : lay.handlersCovering i =
    (b.tries.filter (b.encloses i)).flatMap fun r => r.handlerLabels.map b.positionOf

/-! ## Positions -/

namespace Body

variable {b : Body} {i : Nat} {l : Label}

theorem marks_positionOf (h : .label l ∈ b.code) : b.Marks (b.positionOf l) l :=
  List.getElem?_idxOf h

theorem Labeled.marks_iff (hb : b.Labeled) (h : .label l ∈ b.code) :
    b.Marks i l ↔ i = b.positionOf l := by
  constructor
  · exact fun hi => hb.unique hi (marks_positionOf h)
  · rintro rfl
    exact marks_positionOf h

theorem aimed_iff : b.Aimed l ↔
    l ∈ b.code.flatMap Instruction.targets ∨ ∃ r ∈ b.tries, l ∈ r.catches.map Prod.fst := by
  simp only [List.mem_flatMap, TryRange.catches, List.map_append, List.map_map, List.mem_append,
    List.mem_map]
  constructor
  · intro h
    cases h with
    | branch h => exact .inl ⟨_, h, List.mem_singleton.2 rfl⟩
    | tableCase h hl => exact .inl ⟨_, h, hl⟩
    | handler hr hh => exact .inr ⟨_, hr, .inl ⟨_, hh, rfl⟩⟩
    | catchAll hr hl => exact .inr ⟨_, hr, .inr ⟨_, Option.mem_toList.2 hl, rfl⟩⟩
  · rintro (⟨ins, hins, hl⟩ | ⟨r, hr, ⟨h, hh, rfl⟩ | ⟨l, hl, rfl⟩⟩)
    · cases ins with
      | withTarget op rs t => exact .branch (List.mem_singleton.1 hl ▸ hins)
      | withTable op rs ks ls => exact .tableCase hins hl
      | _ => cases hl
    · exact .handler hr hh
    · exact .catchAll hr (Option.mem_toList.1 hl)

theorem isTarget_iff : b.IsTarget i ↔ i = 0 ∨ ∃ l, b.Marks i l ∧ b.Aimed l := by
  simp only [IsTarget, aimed_iff]

/-- The range with its labels replaced by their positions. -/
def spanOf (b : Body) (r : TryRange) : Span :=
  { start := b.positionOf r.start
    stop := b.positionOf r.stop
    handlers := r.catches.map fun c => (b.positionOf c.1, c.2) }

theorem covers_spanOf (r : TryRange) : (b.spanOf r).covers i = b.encloses i r := rfl

theorem targets_spanOf (r : TryRange) :
    (b.spanOf r).targets = r.handlerLabels.map b.positionOf := by
  simp [Span.targets, spanOf, TryRange.catches, TryRange.handlerLabels, Function.comp_def]

/-- What the handlers of a span catch at a position is what the range catches there. -/
theorem filterMap_handlers_spanOf (r : TryRange) :
    (b.spanOf r).handlers.filterMap (fun h => if h.1 = i then some h.2 else none) =
      b.catchesAt i r := by
  have hhandlers : ∀ hs : List CatchHandler,
      hs.filterMap (fun h => if b.positionOf h.label = i then some (some h.exception) else none) =
        (hs.filter fun h => b.positionOf h.label = i).map fun h => some h.exception := by
    intro hs
    induction hs with
    | nil => rfl
    | cons h hs ih => by_cases hi : b.positionOf h.label = i <;> simp [hi, ih]
  simp only [spanOf, TryRange.catches, List.map_append, List.map_map, List.filterMap_append,
    List.filterMap_map, Function.comp_def, hhandlers, catchesAt]
  cases r.catchAll with
  | none => rfl
  | some l => by_cases hi : b.positionOf l = i <;> simp [hi, Option.filter]

end Body

namespace LabelMap

/-- If the labels of a range have positions, so has the range. -/
theorem span_eq_spanOf {m : LabelMap} {b : Body} {r : TryRange}
    (h : ∀ l ∈ r.references, m.position l = .ok (b.positionOf l)) :
    m.span r = .ok (b.spanOf r) := by
  have hhandlers : r.catches.mapM (fun c => do return (← m.position c.1, c.2)) =
      .ok (r.catches.map fun c => (b.positionOf c.1, c.2)) := by
    apply mapM_eq_map
    intro c hc
    have hmem : c.1 ∈ r.references :=
      List.mem_cons_of_mem _ (List.mem_cons_of_mem _ (List.mem_map_of_mem hc))
    rw [h c.1 hmem]
    rfl
  have hstart := h r.start List.mem_cons_self
  have hstop := h r.stop (List.mem_cons_of_mem _ List.mem_cons_self)
  rw [span, hstart, hstop, hhandlers]
  rfl

end LabelMap

/-! ## The layout -/

namespace Layout

variable {b : Body} {lay : Layout} {i : Nat}

/-- If all labels of the ranges are placed, the spans are the ranges by position. -/
theorem spans_eq_map (h : ofBody b = .ok lay)
    (hposition : ∀ l ∈ b.references, lay.labels.position l = .ok (b.positionOf l)) :
    lay.spans = b.tries.map b.spanOf := by
  obtain ⟨-, hspans, -⟩ := parts_of_ofBody h
  have hmap : b.tries.mapM lay.labels.span = .ok (b.tries.map b.spanOf) := by
    apply mapM_eq_map
    intro r hr
    apply LabelMap.span_eq_spanOf
    intro l hl
    exact hposition l (Body.mem_references.2 (.inr (.inl ⟨r, hr, hl⟩)))
  rw [hmap] at hspans
  exact (Except.ok.inj hspans).symm

theorem catchesAt_map_spanOf (tries : List TryRange) :
    catchesAt (tries.map b.spanOf) i = tries.flatMap (b.catchesAt i) := by
  rw [catchesAt, List.flatMap_map, List.filterMap_flatMap]
  simp only [Body.filterMap_handlers_spanOf]

theorem handlersCovering_eq (h : lay.spans = b.tries.map b.spanOf) (i : Nat) :
    lay.handlersCovering i =
      (b.tries.filter (b.encloses i)).flatMap fun r => r.handlerLabels.map b.positionOf := by
  rw [handlersCovering, h, List.filter_map, List.flatMap_map]
  simp only [Body.targets_spanOf]
  rfl

end Layout

/-- A normal form can be laid out, and its layout answers every question as the body does. -/
theorem Body.layout_exact {b n : Body} (h : b.normalize = .ok n) :
    ∃ lay, Layout.ofBody n = .ok lay ∧ lay.Exact n := by
  have hnormal := isNormal_of_normalize h
  have hlabeled := labeled_of_normalize h
  obtain ⟨lay, hlay⟩ := Layout.exists_ofBody (resolved_of_normalize h)
  have hdescribes := Layout.describes_of_ofBody hlabeled hlay
  have hplaced : ∀ l : Label, l.id < n.labelCount → .label l ∈ n.code := by
    intro l hl
    rw [← mem_placed, hnormal.numbered]
    exact List.mem_map.2 ⟨l.id, List.mem_range.2 hl, rfl⟩
  have hposition : ∀ l : Label, l.id < n.labelCount →
      lay.labels.position l = .ok (n.positionOf l) :=
    fun l hl => hdescribes.position.2 (marks_positionOf (hplaced l hl))
  have hspans := Layout.spans_eq_map hlay fun l hl => hposition l (hnormal.resolved l hl)
  refine ⟨lay, hlay, ?_⟩
  constructor
  case size => exact hdescribes.size
  case position => exact fun {l} hl => ⟨hposition l hl, fun i => hlabeled.marks_iff (hplaced l hl)⟩
  case handlers => exact Layout.handlersCovering_eq hspans
  case site =>
    intro i hi
    obtain ⟨-, -, branches, -, hsites⟩ := Layout.parts_of_ofBody hlay
    have hsite := (Layout.site_eq_ok_iff hsites).2 ⟨hi, rfl⟩
    have htarget := (hdescribes.site hsite).2.1
    refine ⟨_, hsite, ?_, htarget.trans isTarget_iff, fun ht => (htarget.1 ht).marks hlabeled, ?_⟩
    · simp [Layout.siteAt, hspans, covers_spanOf, encloses]
    · rw [Layout.siteAt, hspans]
      exact Layout.catchesAt_map_spanOf n.tries

/-- Of three ranges the first two overlap, with a handler in common that lies in one of them, and the
    third runs backwards. -/
def overlapping : Body where
  code :=
    [.label ⟨0⟩, .plain .nop [], .label ⟨1⟩, .plain .nop [], .label ⟨2⟩, .plain .nop [], .label ⟨3⟩,
      .plain .moveException [0], .label ⟨4⟩, .plain .returnVoid []]
  tries :=
    [{ start := ⟨0⟩, stop := ⟨2⟩, handlers := [⟨.throwable, ⟨3⟩⟩], catchAll := some ⟨4⟩ },
      { start := ⟨1⟩, stop := ⟨4⟩, handlers := [], catchAll := some ⟨3⟩ },
      { start := ⟨2⟩, stop := ⟨1⟩, handlers := [⟨.string, ⟨4⟩⟩], catchAll := none }]
  labelCount := 5

/-- Where the ranges overlap, the handlers of both follow each other. -/
theorem overlapping_layout_exact : overlapping.normalize = .ok overlapping ∧
    ∃ lay, Layout.ofBody overlapping = .ok lay ∧ lay.Exact overlapping ∧
      lay.handlersCovering 3 = [6, 8, 6] ∧
      ∃ s, lay.site 8 = .ok s ∧ s.inTry = false ∧ s.catches = [none, some .string] := by
  have h : overlapping.normalize = .ok overlapping := by decide +kernel
  obtain ⟨lay, hlay, hexact⟩ := Body.layout_exact h
  obtain ⟨s, hs, hsite⟩ := hexact.site (i := 8) (by decide)
  refine ⟨h, lay, hlay, hexact, ?_, s, hs, ?_, ?_⟩
  · rw [hexact.handlers]
    decide +kernel
  · rw [Bool.eq_false_iff, Ne, hsite.inTry]
    decide +kernel
  · rw [hsite.catches]
    decide +kernel

end BytecodeVerifier
