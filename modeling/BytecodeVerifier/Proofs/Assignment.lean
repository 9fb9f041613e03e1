import BytecodeVerifier.Proofs.Evolution
import BytecodeVerifier.Proofs.Operands
import BytecodeVerifier.Proofs.Yields

/-!
# Assignments

Nearly every operation does to a frame what an assignment does: it writes a few registers, and
leaves all others alone. `Frame.Assigns` says which registers are written and what they hold
afterwards. The value left behind is not a register; an assignment may replace it.
-/

namespace BytecodeVerifier

namespace RegType

/-- The register has been written on every path, with values that go together. -/
def isAssigned (t : RegType) : Bool := !t.isUndefined && !t.isConflict

variable {p : ClassPool} {a b : RegType}

/-- A register that is not assigned on one of two paths is not assigned where they meet. -/
theorem isAssigned_merge (h : a.isAssigned = false ∨ b.isAssigned = false) :
    (a.merge p b).isAssigned = false := by
  unfold merge
  split
  · rename_i heq
    subst heq
    exact h.elim id id
  · rw [if_pos]
    · rfl
    · simp only [isAssigned, Bool.and_eq_false_iff, Bool.not_eq_false'] at h
      grind

end RegType

namespace Frame

/-- The frame `f'` is `f` with types that satisfy `P` in the registers `ws`. -/
structure Assigns (f : Frame) (ws : List Nat) (P : RegType → Prop) (f' : Frame) : Prop where
  shape : f'.shape = f.shape
  this : f'.thisInitialized = f.thisInitialized
  kept {reg : Nat} : reg ∉ ws → f'.get? reg = f.get? reg
  written {reg : Nat} {t : RegType} : reg ∈ ws → f'.get? reg = some t → P t
  result : f'.result = f.result ∨ f'.result.1.IsComputed ∧ f'.result.2.IsComputed

/-- What an operation may put into a register: a type that it computes, or the value that a call has
    left behind. -/
structure Delivers (p : ClassPool) (f : Frame) (t : RegType) : Prop where
  supplied : f.Supplies p t
  initialized : t.isUninitialized = true → t = f.result.1

variable {p : ClassPool} {f f' : Frame} {ws : List Nat} {P : RegType → Prop} {t hi : RegType}
  {reg : Nat}

theorem delivers_of_isComputed (h : t.IsComputed) : f.Delivers p t :=
  ⟨supplies_of_isFresh h.toIsFresh, fun huninit => absurd (h.initialized ▸ huninit) nofun⟩

theorem delivers_result (p : ClassPool) (f : Frame) : f.Delivers p f.result.1 :=
  ⟨(all_iff.1 (supplies_self p f)).2.2.1, fun _ => rfl⟩

theorem Delivers.merge {u : RegType} (ht : f.Delivers p t) (hu : u.IsComputed) :
    f.Delivers p (t.merge p u) := by
  refine ⟨ht.supplied.merge (supplies_of_isFresh hu.toIsFresh), fun huninit => ?_⟩
  obtain rfl := RegType.eq_of_isUninitialized_merge huninit
  simpa [RegType.merge] using ht.initialized (by simpa [RegType.merge] using huninit)

namespace Assigns

theorem refl (f : Frame) : f.Assigns [] P f :=
  ⟨rfl, rfl, fun _ => rfl, fun h => absurd h List.not_mem_nil, .inl rfl⟩

/-- In an assignment the frame evolves. -/
theorem evolves (h : f.Assigns ws P f') (hP : ∀ t, P t → f.Supplies p t) : f.Evolves p f' := by
  have hresult : f.Supplies p f'.result.1 ∧ f.Supplies p f'.result.2 := by
    rcases h.result with hsame | ⟨hlow, hhigh⟩
    · rw [hsame]
      exact (all_iff.1 (supplies_self p f)).2.2
    · exact ⟨supplies_of_isFresh hlow.toIsFresh, supplies_of_isFresh hhigh.toIsFresh⟩
  refine ⟨h.shape, all_of_get? (fun reg t ht => ?_) hresult.1 hresult.2, h.this⟩
  by_cases hreg : reg ∈ ws
  · exact hP t (h.written hreg ht)
  · rw [h.kept hreg] at ht
    exact supplies_of_mem (mem_types_of_get? ht)

theorem put (reg : Nat) (ht : P t) : f.Assigns [reg] P (f.put reg t) := by
  have hsame : (f.put reg t).thisInitialized = f.thisInitialized ∧
      (f.put reg t).result = f.result := by
    unfold Frame.put
    split <;> exact ⟨rfl, rfl⟩
  refine ⟨shape_put f reg t, hsame.1, fun {r} hr => ?_, fun {r u} hr hu => ?_, .inl hsame.2⟩
  · rw [get?_put, if_neg (by simpa using hr)]
  · rw [get?_put, if_pos (by simpa using hr)] at hu
    obtain ⟨_, -, rfl⟩ := Option.map_eq_some_iff.1 hu
    exact ht

/-- Of two assignments to different registers the second does not undo the first. -/
theorem append {f'' : Frame} {ws' : List Nat} (h : f.Assigns ws P f')
    (h' : f'.Assigns ws' P f'') : f.Assigns (ws ++ ws') P f'' := by
  refine ⟨h'.shape.trans h.shape, h'.this.trans h.this, fun {r} hr => ?_, fun {r u} hr hu => ?_, ?_⟩
  · rw [List.mem_append, not_or] at hr
    rw [h'.kept hr.2, h.kept hr.1]
  · by_cases hlast : r ∈ ws'
    · exact h'.written hlast hu
    · rw [h'.kept hlast] at hu
      exact h.written ((List.mem_append.1 hr).resolve_right hlast) hu
  · rcases h'.result with hsame | hnew
    · rw [hsame]
      exact h.result
    · exact .inr hnew

theorem setResult (ht : t.IsComputed) : f.Assigns [] P (f.setResult t) := by
  have hhigh : (t.highHalf?.getD .undefined).IsComputed := by
    cases hhi : t.highHalf? with
    | none => exact RegType.isComputed_undefined
    | some hi => exact RegType.isComputed_of_highHalf? hhi
  exact ⟨rfl, rfl, fun _ => rfl, fun h => absurd h List.not_mem_nil, .inr ⟨ht, hhigh⟩⟩

theorem clearResult (f : Frame) : f.Assigns [] P f.clearResult :=
  ⟨rfl, rfl, fun _ => rfl, fun h => absurd h List.not_mem_nil,
    .inr ⟨RegType.isComputed_undefined, RegType.isComputed_undefined⟩⟩

theorem withMonitors (f : Frame) (monitors : Option Nat) :
    f.Assigns [] P { f with monitors } :=
  ⟨rfl, rfl, fun _ => rfl, fun h => absurd h List.not_mem_nil, .inl rfl⟩

end Assigns

/-! ## Writing values -/

theorem writeSingle_eq_ok (h : f.writeSingle reg t = .ok f') : f' = f.put reg t := by
  unfold writeSingle at h
  split at h
  · exact nomatch h
  · obtain ⟨_, -, h⟩ := bind_eq_ok.1 h
    cases h
    rfl

theorem next_eq_ok {next : Nat} (h : f.next reg = .ok next) : next = reg + 1 := by
  unfold Frame.next at h
  split at h
  · cases h
    rfl
  · exact nomatch h

/-- A wide value is written half by half. -/
theorem writePair_eq_ok (h : f.writePair reg t hi = .ok f') :
    t.highHalf? = some hi ∧ f' = (f.put reg t).put (reg + 1) hi := by
  unfold writePair at h
  split at h
  · exact nomatch h
  · rename_i hpair
    obtain ⟨next, hnext, h⟩ := bind_eq_ok.1 h
    obtain ⟨_, -, h⟩ := bind_eq_ok.1 h
    cases h
    exact ⟨by simpa [RegType.pairsWith] using hpair, by rw [next_eq_ok hnext]⟩

theorem assigns_writeSingle (ht : P t) (h : f.writeSingle reg t = .ok f') :
    f.Assigns [reg] P f' :=
  writeSingle_eq_ok h ▸ .put reg ht

theorem assigns_writePair (hP : ∀ u, u.IsComputed → P u) (ht : P t)
    (h : f.writePair reg t hi = .ok f') : f.Assigns [reg, reg + 1] P f' := by
  obtain ⟨hhigh, rfl⟩ := writePair_eq_ok h
  exact (Assigns.put reg ht).append (.put (reg + 1) (hP hi (RegType.isComputed_of_highHalf? hhigh)))

/-- A write takes one register or two, as the value is wide or not. -/
theorem assigns_write (hP : ∀ u, u.IsComputed → P u) (ht : P t) (h : f.write reg t = .ok f') :
    f.Assigns (extent t.isLowHalf reg) P f' := by
  unfold write at h
  cases t with
  | low k => exact assigns_writePair hP ht h
  | _ => exact assigns_writeSingle ht h

theorem assigns_consumeResult {form : ValueForm} {r : RegType × Frame}
    (h : f.consumeResult reg form = .ok r) :
    f.Assigns (extent form.isWide reg) (f.Delivers p) r.2 := by
  unfold consumeResult at h
  split at h
  · exact nomatch h
  obtain ⟨g, hwrite, h⟩ := bind_eq_ok.1 h
  cases h
  have hassigns : f.Assigns (extent form.isWide reg) (f.Delivers p) g := by
    unfold writeResult at hwrite
    cases form with
    | single | object =>
      dsimp only at hwrite
      split at hwrite
      · exact assigns_writeSingle (delivers_result p f) hwrite
      · exact nomatch hwrite
    | wide =>
      dsimp only at hwrite
      split at hwrite
      · exact assigns_writePair (fun _ => delivers_of_isComputed) (delivers_result p f) hwrite
      · exact nomatch hwrite
  simpa using hassigns.append (.clearResult g)

end Frame

end BytecodeVerifier
