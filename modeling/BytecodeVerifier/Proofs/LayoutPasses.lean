import BytecodeVerifier.Code.Layout
import BytecodeVerifier.Proofs.Yields

/-!
# The passes of a layout

A layout is made in passes that change a table of sites again and again. `Layout.table` is the table
in closed form: it says of each position which spans cover it, what is caught there, and whether it
is among the targets. Every step of a pass takes one such table to another (`protect_table`,
`enterHandler_table`, `enterRange_table`, `enterBranch_table`), since labels are placed within the
code (`LabelMap.lt_of_position`), and so the passes as a whole give the spans of the ranges and the
table for all branches and handlers (`Layout.ofBody_eq`).
-/

namespace BytecodeVerifier

/-- A fold whose state says what each element gave maps the elements. -/
theorem foldlM_eq_mapM {ε α β σ : Type} {f : σ → α → Except ε σ} {g : α → Except ε β}
    {s : List β → σ} (h : ∀ bs a, f (s bs) a = (fun b => s (bs ++ [b])) <$> g a)
    (bs : List β) (as : List α) :
    as.foldlM f (s bs) = (fun bs' => s (bs ++ bs')) <$> as.mapM g := by
  -- on the elements that are left; `bs` is what those before have given
  induction as generalizing bs with
  | nil => simp
  | cons a as ih =>
    rw [List.foldlM_cons, List.mapM_cons, h]
    cases g a with
    | error e => rfl
    | ok b =>
      have hrest := ih (bs ++ [b])
      simp only [List.append_assoc, List.singleton_append] at hrest
      exact hrest.trans (by cases as.mapM g <;> rfl)

/-! ## Label positions -/

namespace LabelMap

variable {m m' : LabelMap} {l l' : Label} {i : Nat}

theorem position_eq_ok : m.position l = .ok i ↔ m.positions[l.id]? = some (some i) := by
  unfold position
  split
  · rename_i h
    simp [h]
  · rename_i h
    simp only [reduceCtorEq, false_iff]
    exact h i

/-- A label that is entered has its new position, and any other label the old one. -/
theorem position_setIfInBounds (hl : l.id < m.positions.size) {j : Nat} :
    position ⟨m.positions.setIfInBounds l.id (some i)⟩ l' = .ok j ↔
      if l' = l then j = i else m.position l' = .ok j := by
  simp only [position_eq_ok, Array.getElem?_setIfInBounds]
  by_cases h : l' = l
  · subst h
    simp [hl, eq_comm]
  · have hid : l.id ≠ l'.id := fun hid => h (by cases l; cases l'; simp_all)
    simp [h, hid]

/-- The position that a label has in the end is one where the code places it. -/
theorem enter_sound (start : Nat) (code : List Instruction)
    (h : m.enter start code = .ok m') (hpos : m'.position l = .ok i) :
    m.position l = .ok i ∨ ∃ n, code[n]? = some (.label l) ∧ i = start + n := by
  fun_induction enter m start code with
  | case1 => cases h; exact .inl hpos
  | case2 m start l' rest hlt ih =>
    -- a label keeps the position entered here unless a later mark enters it again
    rcases ih h with hold | ⟨n, hn, rfl⟩
    · rw [position_setIfInBounds hlt] at hold
      split at hold
      · rename_i heq
        exact .inr ⟨0, by simp [heq], by simpa using hold⟩
      · exact .inl hold
    · exact .inr ⟨n + 1, by simpa using hn, by omega⟩
  | case3 => exact nomatch h
  | case4 m start ins rest hnot ih =>
    rcases ih h with hold | ⟨n, hn, rfl⟩
    · exact .inl hold
    · exact .inr ⟨n + 1, by simpa using hn, by omega⟩

/-- A label that has a position or is placed by the code has a position in the end. -/
theorem enter_complete (start : Nat) (code : List Instruction)
    (h : m.enter start code = .ok m') (hl : (∃ i, m.position l = .ok i) ∨ .label l ∈ code) :
    ∃ i, m'.position l = .ok i := by
  fun_induction enter m start code with
  | case1 => cases h; exact hl.resolve_right (by simp)
  | case2 m start l' rest hlt ih =>
    refine ih h ?_
    simp only [position_setIfInBounds hlt, List.mem_cons, Instruction.label.injEq] at hl ⊢
    by_cases heq : l = l'
    · exact .inl ⟨start, by simp [heq]⟩
    · simpa [heq] using hl
  | case3 => exact nomatch h
  | case4 m start ins rest hnot ih =>
    refine ih h (hl.imp_right fun hmem => ?_)
    exact (List.mem_cons.1 hmem).resolve_left fun heq => hnot l heq.symm

/-- The code places a label where it has its position. -/
theorem getElem?_of_position {b : Body} (h : ofBody b = .ok m) (hpos : m.position l = .ok i) :
    b.code[i]? = some (.label l) := by
  rcases enter_sound 0 b.code h hpos with hnone | ⟨n, hn, rfl⟩
  · rw [position_eq_ok] at hnone
    simp only [Array.getElem?_replicate] at hnone
    split at hnone <;> simp at hnone
  · simpa using hn

theorem lt_of_position {b : Body} (h : ofBody b = .ok m) (hpos : m.position l = .ok i) :
    i < b.code.length :=
  (List.getElem?_eq_some_iff.1 (getElem?_of_position h hpos)).1

/-- A protected range by positions. -/
def span (m : LabelMap) (r : TryRange) : Except Fault Span := do
  let start ← m.position r.start
  let stop ← m.position r.stop
  let handlers ← r.catches.mapM fun c => return (← m.position c.1, c.2)
  return { start, stop, handlers }

end LabelMap

namespace Layout

/-! ## The table of sites -/

/-- What the handlers at position `i` catch, in order. -/
def catchesAt (spans : List Span) (i : Nat) : List (Option Descriptor) :=
  (spans.flatMap Span.handlers).filterMap fun h => if h.1 = i then some h.2 else none

/-- The site at position `i`, given the positions at which execution may arrive. -/
def siteAt (spans : List Span) (targets : List Nat) (i : Nat) : Site where
  inTry := spans.any (·.covers i)
  isTarget := targets.contains i
  catches := catchesAt spans i

/-- The sites of the first `n` positions. -/
def table (n : Nat) (spans : List Span) (targets : List Nat) : Array Site :=
  (Array.range n).map (siteAt spans targets)

variable {n : Nat} {spans spans' : List Span} {targets targets' : List Nat} {i : Nat}

@[simp] theorem size_table : (table n spans targets).size = n := by
  simp [table]

theorem getElem?_table {j : Nat} :
    (table n spans targets)[j]? = if j < n then some (siteAt spans targets j) else none := by
  by_cases hj : j < n <;> simp [table, hj]

theorem eq_table {sites : Array Site} (hsize : sites.size = n)
    (h : ∀ j, j < n → sites[j]? = some (siteAt spans targets j)) :
    sites = table n spans targets := by
  apply Array.ext_getElem?
  intro j
  rw [getElem?_table]
  split
  · rename_i hj
    exact h j hj
  · rename_i hj
    exact Array.getElem?_eq_none (by omega)

theorem table_nil : table n [] [] = Array.replicate n {} := by
  symm
  apply eq_table Array.size_replicate
  intro j hj
  simp [hj, siteAt, catchesAt]

/-- One site changes if the others stay what they are. -/
theorem modify_table {change : Site → Site}
    (h : ∀ j, (if i = j then change (siteAt spans targets j) else siteAt spans targets j) =
      siteAt spans' targets' j) :
    (table n spans targets).modify i change = table n spans' targets' := by
  apply eq_table (by simp)
  intro j hj
  rw [Array.getElem?_modify, getElem?_table, if_pos hj, ← h j]
  split <;> rfl

theorem updateSite_table {change : Site → Site} (hi : i < n)
    (h : ∀ j, (if i = j then change (siteAt spans targets j) else siteAt spans targets j) =
      siteAt spans' targets' j) :
    updateSite (table n spans targets) i change = .ok (table n spans' targets') := by
  rw [updateSite, size_table, if_pos hi, modify_table h]

/-! ## The steps of the passes -/

/-- The sites of a range of positions change. -/
theorem getElem?_foldl_modify (change : Site → Site) (sites : Array Site) (start len j : Nat) :
    ((List.range' start len).foldl (fun sites i => sites.modify i change) sites)[j]? =
      if start ≤ j ∧ j < start + len then sites[j]?.map change else sites[j]? := by
  induction len generalizing start sites with
  | zero =>
    rw [if_neg (by omega)]
    rfl
  | succ len ih =>
    rw [List.range'_succ, List.foldl_cons, ih, Array.getElem?_modify]
    by_cases hj : start = j
    · subst hj
      rw [if_neg (by omega), if_pos rfl, if_pos (by omega)]
    · have hrange : start + 1 ≤ j ∧ j < start + 1 + len ↔ start ≤ j ∧ j < start + (len + 1) := by
        omega
      simp only [hj, if_false, hrange]

theorem size_foldl_modify (change : Site → Site) (sites : Array Site) (is : List Nat) :
    (is.foldl (fun sites i => sites.modify i change) sites).size = sites.size := by
  induction is generalizing sites with
  | nil => rfl
  | cons i is ih => rw [List.foldl_cons, ih, Array.size_modify]

theorem protect_table {start stop : Nat} (hstop : stop ≤ n) :
    protect (table n spans targets) start stop =
      table n (spans ++ [{ start, stop, handlers := [] }]) targets := by
  unfold protect
  rw [size_table, if_pos hstop]
  apply eq_table (by rw [size_foldl_modify, size_table])
  intro j hj
  rw [getElem?_foldl_modify, getElem?_table, if_pos hj]
  -- the positions that the pass goes through are those that the new span covers
  by_cases hcovers : start ≤ j ∧ j < stop
  · rw [if_pos (by omega)]
    simp [siteAt, catchesAt, Span.covers, hcovers]
  · rw [if_neg (by omega)]
    have hcovers : Span.covers { start, stop, handlers := [] } j = false := by
      simpa [Span.covers] using hcovers
    simp [siteAt, catchesAt, hcovers]

variable {labels : LabelMap}

theorem enterHandler_table (hlabels : ∀ {l i}, labels.position l = .ok i → i < n)
    (span : Span) (handler : Label × Option Descriptor) :
    enterHandler labels (table n (spans ++ [span]) targets) span handler = (do
      let i ← labels.position handler.1
      let span := { span with handlers := span.handlers ++ [(i, handler.2)] }
      return (table n (spans ++ [span]) targets, span)) := by
  unfold enterHandler
  apply bind_congr_of_ok
  intro i hi
  have hupdate : updateSite (table n (spans ++ [span]) targets) i
      (fun site => { site with catches := site.catches ++ [handler.2] }) =
        .ok (table n (spans ++ [{ span with handlers := span.handlers ++ [(i, handler.2)] }])
          targets) := by
    apply updateSite_table (hlabels hi)
    intro j
    -- the handler is the last one of the last span, so that what it catches comes at the end
    by_cases hj : i = j <;> simp [siteAt, catchesAt, Span.covers, hj]
  rw [hupdate]
  rfl

theorem enterRange_table (hlabels : ∀ {l i}, labels.position l = .ok i → i < n)
    (spans : List Span) (r : TryRange) :
    enterRange labels (table n spans targets) spans r =
      (fun span => (table n (spans ++ [span]) targets, spans ++ [span])) <$> labels.span r := by
  unfold enterRange LabelMap.span
  rw [map_bind]
  apply bind_congr_of_ok
  intro start hstart
  rw [map_bind]
  apply bind_congr_of_ok
  intro stop hstop
  rw [protect_table (Nat.le_of_lt (hlabels hstop))]
  -- the handlers that have been entered are those of the span so far
  have hfold := foldlM_eq_mapM
    (f := fun (s : Array Site × Span) => enterHandler labels s.1 s.2)
    (g := fun c => return (← labels.position c.1, c.2))
    (s := fun handlers =>
      (table n (spans ++ [⟨start, stop, handlers⟩]) targets, ⟨start, stop, handlers⟩))
    (fun handlers c => by rw [enterHandler_table hlabels]; simp) [] r.catches
  simp only [List.nil_append] at hfold
  rw [hfold]
  simp

theorem enterBranch_table (hlabels : ∀ {l i}, labels.position l = .ok i → i < n)
    (branches : List Nat) (l : Label) :
    enterBranch labels (table n spans (0 :: branches)) l =
      (fun i => table n spans (0 :: (branches ++ [i]))) <$> labels.position l := by
  unfold enterBranch
  rw [map_eq_pure_bind]
  apply bind_congr_of_ok
  intro i hi
  apply updateSite_table (hlabels hi)
  intro j
  by_cases hj : i = j <;> simp [siteAt, hj, eq_comm]

theorem isHandler_siteAt :
    (siteAt spans targets i).isHandler = true ↔ i ∈ spans.flatMap Span.targets := by
  simp only [Site.isHandler, siteAt, Bool.not_eq_true', List.isEmpty_eq_false_iff_exists_mem,
    catchesAt, List.mem_filterMap, List.mem_flatMap, Span.targets, List.mem_map,
    Option.ite_none_right_eq_some]
  constructor
  · rintro ⟨_, h, ⟨s, hs, hh⟩, rfl, -⟩
    exact ⟨s, hs, h, hh, rfl⟩
  · rintro ⟨s, hs, h, hh, rfl⟩
    exact ⟨h.2, h, ⟨s, hs, hh⟩, rfl, rfl⟩

/-- Where a handler begins, execution may arrive. -/
theorem map_table : (table n spans targets).map (fun site =>
      if site.isHandler then { site with isTarget := true } else site) =
    table n spans (targets ++ spans.flatMap Span.targets) := by
  apply eq_table (by simp)
  intro j hj
  rw [Array.getElem?_map, getElem?_table, if_pos hj, Option.map_some]
  split
  · rename_i hhandler
    have hmem := isHandler_siteAt.1 hhandler
    simp [siteAt, hmem]
  · rename_i hnot
    have hmem := mt isHandler_siteAt.2 hnot
    simp [siteAt, hmem]

/-! ## The passes together -/

theorem foldlM_enterRange (hlabels : ∀ {l i}, labels.position l = .ok i → i < n)
    (tries : List TryRange) :
    tries.foldlM (fun s => enterRange labels s.1 s.2) (table n [] [], []) =
      (fun spans => (table n spans [], spans)) <$> tries.mapM labels.span :=
  foldlM_eq_mapM (s := fun spans => (table n spans [], spans)) (enterRange_table hlabels) [] tries

/-- The branches are entered instruction by instruction. -/
theorem foldlM_enterBranch (hlabels : ∀ {l i}, labels.position l = .ok i → i < n)
    (code : List Instruction) :
    code.foldlM (fun sites i => i.targets.foldlM (enterBranch labels) sites) (table n spans [0]) =
      (fun branches => table n spans (0 :: branches)) <$>
        (code.flatMap Instruction.targets).mapM labels.position := by
  have hflat : ∀ sites : Array Site,
      code.foldlM (fun sites i => i.targets.foldlM (enterBranch labels) sites) sites =
        (code.flatMap Instruction.targets).foldlM (enterBranch labels) sites := by
    induction code with
    | nil => exact fun _ => rfl
    | cons ins code ih =>
      intro sites
      simp only [List.foldlM_cons, List.flatMap_cons, List.foldlM_append, ih]
  rw [hflat]
  exact foldlM_eq_mapM (s := fun branches => table n spans (0 :: branches))
    (enterBranch_table hlabels) [] _

/-- The passes give the spans of the ranges and the table on which execution may arrive at the first
    position, where branches go and where handlers begin. -/
theorem ofBody_eq (b : Body) : ofBody b = (do
    let labels ← LabelMap.ofBody b
    let spans ← b.tries.mapM labels.span
    let branches ← (b.code.flatMap Instruction.targets).mapM labels.position
    let sites := table b.code.length spans (0 :: branches ++ spans.flatMap Span.targets)
    return { labels, spans, sites }) := by
  unfold ofBody
  apply bind_congr_of_ok
  intro labels hofBody
  have hlabels : ∀ {l i}, labels.position l = .ok i → i < b.code.length :=
    LabelMap.lt_of_position hofBody
  have hentry (spans : List Span) : (table b.code.length spans []).modify 0
      (fun site => { site with isTarget := true }) = table b.code.length spans [0] :=
    modify_table fun j => by cases j <;> simp [siteAt]
  simp only [← table_nil, foldlM_enterRange hlabels, bind_map_left, hentry,
    foldlM_enterBranch hlabels, map_table, List.cons_append]

/-- What the parts of a layout are. -/
theorem parts_of_ofBody {b : Body} {lay : Layout} (h : ofBody b = .ok lay) :
    LabelMap.ofBody b = .ok lay.labels ∧ b.tries.mapM lay.labels.span = .ok lay.spans ∧
      ∃ branches, (b.code.flatMap Instruction.targets).mapM lay.labels.position = .ok branches ∧
        lay.sites =
          table b.code.length lay.spans (0 :: branches ++ lay.spans.flatMap Span.targets) := by
  rw [ofBody_eq] at h
  obtain ⟨labels, hlabels, h⟩ := bind_eq_ok.1 h
  obtain ⟨spans, hspans, h⟩ := bind_eq_ok.1 h
  obtain ⟨branches, hbranches, h⟩ := bind_eq_ok.1 h
  cases h
  exact ⟨hlabels, hspans, branches, hbranches, rfl⟩

theorem isProtected_iff {lay : Layout} (h : lay.sites = table n spans targets) (hi : i < n) :
    lay.isProtected i = true ↔ ∃ s ∈ spans, s.covers i = true := by
  unfold isProtected
  rw [h, getElem?_table, if_pos hi, Option.any_some]
  exact List.any_eq_true

theorem site_eq_ok_iff {lay : Layout} {s : Site} (h : lay.sites = table n spans targets) :
    lay.site i = .ok s ↔ i < n ∧ siteAt spans targets i = s := by
  unfold site
  rw [h, getElem?_table]
  by_cases hi : i < n <;> simp [hi]

end Layout

end BytecodeVerifier
