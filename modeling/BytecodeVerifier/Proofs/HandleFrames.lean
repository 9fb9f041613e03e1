import BytecodeVerifier.Proofs.HandleLattice
import BytecodeVerifier.TypeTable.HandleFrame

/-!
# Frames by their handles

A frame of handles shows a frame of types if each of its handles stands for the type in the same
place (`HandleFrame.Shows`). The operations on the one do what those on the other do.
-/

namespace BytecodeVerifier

open TypeTable (Extends Reachable Denotes)
open Related (Reads)
open List (Forall₂)

namespace HandleFrame

/-- The table reads the handles of the frame `F` as the types of the frame `f`. -/
structure Shows (t : TypeTable) (F : HandleFrame) (f : Frame) : Prop where
  locals : Forall₂ t.Denotes F.locals f.locals
  params : Forall₂ t.Denotes F.params f.params
  lo : t.Denotes F.result.1 f.result.1
  hi : t.Denotes F.result.2 f.result.2
  thisInitialized : F.thisInitialized = f.thisInitialized
  monitors : F.monitors = f.monitors

variable {t t' : TypeTable} {F G : HandleFrame} {f g : Frame} {h h' : Handle} {x y : RegType}
  {reg : Nat} {p : ClassPool}

theorem Shows.mono (hF : Shows t F f) (ht : t.Extends t') : Shows t' F f :=
  { hF with
    locals := hF.locals.imp fun _ _ hx => hx.mono ht
    params := hF.params.imp fun _ _ hx => hx.mono ht
    lo := hF.lo.mono ht
    hi := hF.hi.mono ht }

instance : Related HandleFrame Frame where
  Reads := Shows
  mono ht hF := hF.mono ht

theorem Shows.size_eq (hF : Shows t F f) : F.size = f.size := by
  rw [size, Frame.size, hF.locals.length_eq, hF.params.length_eq]

/-- The table shows the frame. -/
theorem Shows.view_eq (hF : Shows t F f) : F.view t = f := by
  have hmap : ∀ {hs : List Handle} {xs : List RegType}, Forall₂ t.Denotes hs xs →
      hs.map (fun h => t.type h.index) = xs := by
    intro hs xs hxs
    induction hxs with
    | nil => rfl
    | cons hx _ ih => rw [List.map_cons, hx.type_eq, ih]
  simp only [view, hmap hF.locals, hmap hF.params, hF.lo.type_eq, hF.hi.type_eq,
    hF.thisInitialized, hF.monitors]

/-! ## Registers -/

theorem Shows.get? (hF : Shows t F f) (reg : Nat) :
    Option.Rel t.Denotes (F.get? reg) (f.get? reg) := by
  unfold HandleFrame.get? Frame.get?
  rw [hF.locals.length_eq]
  split
  · exact hF.locals.getElem? reg
  · exact hF.params.getElem? _

theorem Shows.put (hF : Shows t F f) (reg : Nat) (hx : t.Denotes h x) :
    Shows t (F.put reg h) (f.put reg x) := by
  unfold HandleFrame.put Frame.put
  rw [hF.locals.length_eq]
  split
  · exact { hF with locals := hF.locals.set reg hx }
  · exact { hF with params := hF.params.set _ hx }

/-- Both frames have the register, or both refuse it. -/
theorem Shows.read_cases (hF : Shows t F f) (reg : Nat) :
    (∃ h x, F.read reg = pure h ∧ f.read reg = .ok x ∧ t.Denotes h x) ∨
      ∃ e, F.read reg = throw e ∧ f.read reg = .error e := by
  have hget := hF.get? reg
  unfold HandleFrame.read Frame.read
  cases hH : F.get? reg with
  | none =>
    cases hx : f.get? reg with
    | none => exact .inr ⟨_, rfl, by rw [hF.size_eq]⟩
    | some x =>
      rw [hH, hx] at hget
      cases hget
  | some a =>
    cases hx : f.get? reg with
    | none =>
      rw [hH, hx] at hget
      cases hget
    | some x =>
      rw [hH, hx] at hget
      cases hget with
      | some hax => exact .inl ⟨a, x, rfl, rfl, hax⟩

theorem Shows.next_cases (hF : Shows t F f) (reg : Nat) :
    (∃ n, F.next reg = pure n ∧ f.next reg = .ok n) ∨
      ∃ e, F.next reg = throw e ∧ f.next reg = .error e := by
  unfold HandleFrame.next Frame.next
  rw [hF.size_eq]
  split
  · exact .inl ⟨_, rfl, rfl⟩
  · exact .inr ⟨_, rfl, rfl⟩

/-! ## Writes -/

open Lookup

theorem gives_writeSingle (hF : Shows t F f) (hx : t.Denotes h x) (reg : Nat) :
    Gives t (F.writeSingle reg h).run (f.writeSingle reg x) := by
  unfold HandleFrame.writeSingle Frame.writeSingle
  rw [run_liftM_bind]
  apply gives_type_bind hx
  split
  · exact gives_pure fun _ => .error _
  · rcases hF.read_cases reg with ⟨a, y, hread, hread', -⟩ | ⟨e, hread, hread'⟩
    · rw [hread, hread']
      exact gives_pure fun _ => .ok (hF.put reg hx)
    · rw [hread, hread']
      exact gives_pure fun _ => .error e

theorem gives_writePair (hF : Shows t F f) (hx : t.Denotes h x) (hy : t.Denotes h' y) (reg : Nat) :
    Gives t (F.writePair reg h h').run (f.writePair reg x y) := by
  unfold HandleFrame.writePair Frame.writePair
  rw [run_liftM_bind]
  apply gives_type_bind hx
  rw [run_liftM_bind]
  apply gives_type_bind hy
  split
  · exact gives_pure fun _ => .error _
  rcases hF.next_cases reg with ⟨n, hnext, hnext'⟩ | ⟨e, hnext, hnext'⟩
  · rw [hnext, hnext']
    rcases hF.read_cases n with ⟨a, z, hread, hread', -⟩ | ⟨e, hread, hread'⟩
    · rw [pure_bind, hread]
      show Gives t _ (f.read n >>= _)
      rw [hread']
      exact gives_pure fun _ => .ok ((hF.put reg hx).put n hy)
    · rw [pure_bind, hread]
      show Gives t _ (f.read n >>= _)
      rw [hread']
      exact gives_pure fun _ => .error e
  · rw [hnext, hnext']
    exact gives_pure fun _ => .error e

theorem gives_write (hF : Shows t F f) (hx : t.Denotes h x) (reg : Nat) :
    Gives t (F.write reg h).run (f.write reg x) := by
  unfold HandleFrame.write Frame.write
  rw [run_liftM_bind]
  apply Gives.bind (gives_highHalf? hx)
  intro t' hi hext hhi
  have hF' := hF.mono hext
  have hx' := hx.mono hext
  revert hhi
  generalize x.highHalf? = y
  intro hhi
  cases hhi with
  | some hy => exact gives_writePair hF' hx' hy reg
  | none => exact gives_writeSingle hF' hx' reg

/-- Whether a register holds a pair is told without changing the table. -/
theorem holdsPair_run (hF : Shows t F f) (hx : t.Denotes h x) (reg : Nat) :
    (F.holdsPair p reg h).run t = (f.holdsPair p reg x, t) := by
  unfold HandleFrame.holdsPair Frame.holdsPair
  rcases hF.read_cases reg with ⟨a, y, hread, hread', hy⟩ | ⟨e, hread, hread'⟩
  · rw [hread, hread']
    rcases hF.next_cases reg with ⟨n, hnext, hnext'⟩ | ⟨e, hnext, hnext'⟩
    · rw [pure_bind, hnext, pure_bind]
      show _ = ((f.next reg >>= _), t)
      rw [hnext']
      show _ = ((f.read n >>= _), t)
      rcases hF.read_cases n with ⟨b, z, hread, hread', hz⟩ | ⟨e, hread, hread'⟩
      · rw [hread, hread', pure_bind, run_liftM_bind, bind_run (isAssignable_run p _ _ t),
          hx.type_eq, hy.type_eq, run_liftM_bind, bind_run (type_run hy), run_liftM_bind,
          bind_run (type_run hz)]
        rfl
      · rw [hread, hread']
        rfl
    · rw [pure_bind, hnext]
      show _ = ((f.next reg >>= _), t)
      rw [hnext']
      rfl
  · rw [hread, hread']
    rfl

/-! ## The value left behind -/

private theorem denotes_undefined (ht : t.Reachable) :
    t.Denotes (.fixed .undefined) .undefined :=
  TypeTable.denotes_fixed ht (by simp [TypeTable.fixedTypes])

theorem Shows.clearResult (hF : Shows t F f) (ht : t.Reachable) :
    Shows t F.clearResult f.clearResult := by
  exact { hF with lo := denotes_undefined ht, hi := denotes_undefined ht }

theorem gives_setResult (hF : Shows t F f) (hx : t.Denotes h x) :
    Gives t (F.setResult h) (f.setResult x) := by
  unfold HandleFrame.setResult
  apply Gives.bind (gives_highHalf? hx)
  intro t' hi hext hhi
  have hF' := hF.mono hext
  have hx' := hx.mono hext
  apply gives_pure
  intro ht
  unfold Frame.setResult
  revert hhi
  generalize x.highHalf? = y
  intro hhi
  cases hhi with
  | some hy => exact { hF' with lo := hx', hi := hy }
  | none => exact { hF' with lo := hx', hi := denotes_undefined ht }

private theorem gives_writeResult (hF : Shows t F f) (dst : Nat) (form : ValueForm) :
    Gives t (F.writeResult dst form).run (f.writeResult dst form) := by
  have herror : Gives t (throw (.resultMismatch form) : Access HandleFrame).run
      (.error (.resultMismatch form) : Except FrameError Frame) :=
    gives_pure fun _ => .error _
  unfold HandleFrame.writeResult Frame.writeResult
  cases form with
  | single | object =>
    show Gives t ((liftM (type F.result.1) : Access RegType) >>= _).run _
    rw [run_liftM_bind]
    apply gives_type_bind hF.lo
    dsimp only
    split
    · exact gives_writeSingle hF hF.lo dst
    · exact herror
  | wide =>
    show Gives t ((liftM (type F.result.1) : Access RegType) >>= _).run _
    rw [run_liftM_bind]
    apply gives_type_bind hF.lo
    rw [run_liftM_bind]
    apply gives_type_bind hF.hi
    dsimp only
    split
    · exact gives_writePair hF hF.lo hF.hi dst
    · exact herror

theorem gives_consumeResult (hF : Shows t F f) (dst : Nat) (form : ValueForm) :
    Gives t (F.consumeResult dst form).run (Prod.snd <$> f.consumeResult dst form) := by
  have hconsume : Prod.snd <$> f.consumeResult dst form =
      if f.result.1.isUndefined then .error .noResult
      else f.writeResult dst form >>= fun f' => .ok f'.clearResult := by
    unfold Frame.consumeResult
    split
    · rfl
    · cases f.writeResult dst form <;> rfl
  rw [hconsume]
  unfold HandleFrame.consumeResult
  rw [run_liftM_bind]
  apply gives_type_bind hF.lo
  split
  · exact gives_pure fun _ => .error _
  · apply gives_run_bind (gives_writeResult hF dst form)
    intro t' G g _ hG
    exact gives_pure fun ht => .ok (hG.clearResult ht)

/-! ## Merging -/

private theorem gives_mergeRow (p : ClassPool) {hs ks : List Handle} {xs ys : List RegType}
    (hxs : Forall₂ t.Denotes hs xs) (hys : Forall₂ t.Denotes ks ys) :
    Gives t (mergeRow p hs ks) (Frame.mergeRow p xs ys) := by
  -- each merge may issue a handle, so that the rest of the rows is read by a later table
  induction hs generalizing t xs ks ys with
  | nil =>
    cases hxs with
    | nil => exact gives_pure fun _ => .nil
  | cons a hs ih =>
    cases hxs with
    | @cons _ x _ xs hx hxs =>
      cases hys with
      | nil => exact gives_pure fun _ => .cons hx hxs
      | @cons b y ks ys hy hys =>
        show Gives t (Lookup.merge p a b >>= fun m => mergeRow p hs ks >>= fun ms => pure (m :: ms))
          (x.merge p y :: Frame.mergeRow p xs ys)
        apply Gives.bind (gives_merge p hx hy)
        intro t₁ m hext₁ hm
        apply Gives.bind (ih (hxs.imp fun _ _ hx => hx.mono hext₁)
          (hys.imp fun _ _ hy => hy.mono hext₁))
        intro t₂ ms hext₂ hms
        exact gives_pure fun _ => .cons (hm.mono hext₂) hms

/-- Two frames of handles are merged as the frames that they show. -/
theorem gives_mergeFrames (p : ClassPool) (hF : Shows t F f) (hG : Shows t G g) :
    Gives t (F.merge p G) (f.merge p g) := by
  unfold HandleFrame.merge
  apply Gives.bind (gives_mergeRow p hF.locals hG.locals)
  intro t₁ locals hext₁ hlocals
  have hF₁ := hF.mono hext₁
  have hG₁ := hG.mono hext₁
  apply Gives.bind (gives_mergeRow p hF₁.params hG₁.params)
  intro t₂ params hext₂ hparams
  have hF₂ := hF₁.mono hext₂
  have hG₂ := hG₁.mono hext₂
  apply Gives.bind (gives_merge p hF₂.lo hG₂.lo)
  intro t₃ lo hext₃ hlo
  have hF₃ := hF₂.mono hext₃
  have hG₃ := hG₂.mono hext₃
  apply Gives.bind (gives_merge p hF₃.hi hG₃.hi)
  intro t₄ hi hext₄ hhi
  apply gives_pure
  intro _
  have hF₄ := hF₃.mono hext₄
  have hG₄ := hG₃.mono hext₄
  constructor
  case locals => exact hlocals.imp fun _ _ hx => ((hx.mono hext₂).mono hext₃).mono hext₄
  case params => exact hparams.imp fun _ _ hx => (hx.mono hext₃).mono hext₄
  case lo => exact hlo.mono hext₄
  case hi => exact hhi
  case thisInitialized => simp only [Frame.merge, hF₄.thisInitialized, hG₄.thisInitialized]
  case monitors => simp only [Frame.merge, hF₄.monitors, hG₄.monitors]

/-- A row has changed if the merged row is another one. -/
private theorem absorbRow_eq (p : ClassPool) (hs ks : List Handle) :
    absorbRow p hs ks = mergeRow p hs ks >>= fun ms => pure (ms, ms != hs) := by
  fun_induction absorbRow p hs ks with
  | case1 => rfl
  | case2 row hne =>
    cases row with
    | nil => exact absurd rfl hne
    | cons a as => simp [mergeRow]
  | case3 a as b bs ih =>
    rw [mergeRow]
    simp only [ih, bind_assoc, pure_bind]
    simp only [bne, List.cons_beq_cons, Bool.not_and]

/-- Frames differ if they do so in one of their parts. -/
private theorem bne_eq (F G : HandleFrame) : (F != G) = (F.locals != G.locals ||
    F.params != G.params || F.result.1 != G.result.1 || F.result.2 != G.result.2 ||
    F.thisInitialized != G.thisInitialized || F.monitors != G.monitors) := by
  obtain ⟨locals, params, ⟨lo, hi⟩, this, monitors⟩ := F
  obtain ⟨locals', params', ⟨lo', hi'⟩, this', monitors'⟩ := G
  rw [Bool.eq_iff_iff]
  simp only [bne_iff_ne, Bool.or_eq_true, ne_eq, mk.injEq, Prod.mk.injEq, not_and_or, or_assoc]

/-- A frame has changed if the merged frame is another one. -/
theorem absorb_eq (p : ClassPool) (F G : HandleFrame) :
    F.absorb p G = F.merge p G >>= fun M => pure (M, M != F) := by
  have hthis : (if (F.thisInitialized && !G.thisInitialized) = true then false
        else F.thisInitialized) = (F.thisInitialized && G.thisInitialized) ∧
      (F.thisInitialized && !G.thisInitialized) =
        ((F.thisInitialized && G.thisInitialized) != F.thisInitialized) := by
    cases F.thisInitialized <;> cases G.thisInitialized <;> decide
  have hmonitors : (if (F.monitors.isSome && F.monitors != G.monitors) = true then none
        else F.monitors) = (if F.monitors = G.monitors then F.monitors else none) ∧
      (F.monitors.isSome && F.monitors != G.monitors) =
        ((if F.monitors = G.monitors then F.monitors else none) != F.monitors) := by
    by_cases heq : F.monitors = G.monitors
    · simp [heq]
    · cases hF : F.monitors with
      | none => simp
      | some n =>
        rw [hF] at heq
        have hne : (some n != G.monitors) = true := bne_iff_ne.2 heq
        rw [if_neg heq, hne]
        exact ⟨rfl, rfl⟩
  unfold absorb merge
  simp only [absorbRow_eq, bind_assoc, pure_bind, bne_eq, hthis.1, hmonitors.1, ← hthis.2,
    ← hmonitors.2]

private theorem forall₂_eq_iff (ht : t.Reachable) {hs ks : List Handle} {xs ys : List RegType}
    (hxs : Forall₂ t.Denotes hs xs) (hys : Forall₂ t.Denotes ks ys) : hs = ks ↔ xs = ys := by
  induction hxs generalizing ks ys with
  | nil =>
    cases hys with
    | nil => simp
    | cons => simp
  | cons hx _ ih =>
    cases hys with
    | nil => simp
    | cons hy hys => rw [List.cons.injEq, List.cons.injEq, hx.eq_iff ht hy, ih hys]

/-- Two frames of handles are the same if and only if the frames that they show are. -/
theorem Shows.eq_iff (ht : t.Reachable) (hF : Shows t F f) (hG : Shows t G g) :
    F = G ↔ f = g := by
  have hlocals := forall₂_eq_iff ht hF.locals hG.locals
  have hparams := forall₂_eq_iff ht hF.params hG.params
  have hlo := hF.lo.eq_iff ht hG.lo
  have hhi := hF.hi.eq_iff ht hG.hi
  have hthis : F.thisInitialized = G.thisInitialized ↔ f.thisInitialized = g.thisInitialized := by
    rw [hF.thisInitialized, hG.thisInitialized]
  have hmonitors : F.monitors = G.monitors ↔ f.monitors = g.monitors := by
    rw [hF.monitors, hG.monitors]
  cases F
  cases G
  cases f
  cases g
  simp only [HandleFrame.mk.injEq, Frame.mk.injEq, Prod.ext_iff]
  rw [hlocals, hparams, hlo, hhi, hthis, hmonitors]

/-! ## Objects -/

private theorem forall₂_map {hs : List Handle} {xs : List RegType} {k : Handle → Handle}
    {l : RegType → RegType} (hxs : Forall₂ t.Denotes hs xs)
    (hk : ∀ h x, t.Denotes h x → t'.Denotes (k h) (l x)) :
    Forall₂ t'.Denotes (hs.map k) (xs.map l) := by
  rw [List.forall₂_map_left_iff, List.forall₂_map_right_iff]
  exact hxs.imp hk

/-- Replacing one handle by another replaces one type by another. -/
private theorem Shows.replace (ht : t.Reachable) (hF : Shows t F f) (hx : t.Denotes h x)
    (hy : t.Denotes h' y) :
    Shows t (F.mapRegisters fun a => if a = h then h' else a)
      (f.mapRegisters fun z => if z = x then y else z) := by
  have hreplace : ∀ a z, t.Denotes a z →
      t.Denotes (if a = h then h' else a) (if z = x then y else z) := by
    intro a z hz
    have heq := hz.eq_iff ht hx
    by_cases ha : a = h
    · rw [if_pos ha, if_pos (heq.1 ha)]
      exact hy
    · rw [if_neg ha, if_neg fun h => ha (heq.2 h)]
      exact hz
  exact { hF with
    locals := forall₂_map hF.locals hreplace
    params := forall₂_map hF.params hreplace }

theorem gives_markInitialized (p : ClassPool) (hF : Shows t F f) (hx : t.Denotes h x) :
    Gives t (F.markInitialized p h) (f.markInitialized p x) := by
  unfold HandleFrame.markInitialized
  apply Gives.bind (gives_initialized p hx)
  intro t' init hext hinit
  have hx' := hx.mono hext
  apply gives_type_bind hx'
  apply gives_pure
  intro ht
  have hreplaced := (hF.mono hext).replace ht hx' hinit
  exact { hreplaced with
    thisInitialized := by
      show (F.thisInitialized || _) = (f.thisInitialized || _)
      rw [hF.thisInitialized] }

theorem Shows.invalidate (ht : t.Reachable) (hF : Shows t F f) (hx : t.Denotes h x) :
    Shows t (F.invalidate h) (f.invalidate x) :=
  hF.replace ht hx (TypeTable.denotes_fixed ht (by simp [TypeTable.fixedTypes]))

/-! ## Monitors -/

theorem Shows.enterMonitor (hF : Shows t F f) : Shows t F.enterMonitor f.enterMonitor :=
  { hF with monitors := by simp only [HandleFrame.enterMonitor, Frame.enterMonitor, hF.monitors] }

theorem Shows.exitMonitor? (hF : Shows t F f) :
    Option.Rel (Shows t) F.exitMonitor? f.exitMonitor? := by
  unfold HandleFrame.exitMonitor? Frame.exitMonitor?
  rw [hF.monitors]
  cases f.monitors with
  | none => exact .some hF
  | some n =>
    cases n with
    | zero => exact .none
    | succ n => exact .some { hF with monitors := rfl }

theorem shows_blank (ht : t.Reachable) (locals params : Nat) :
    Shows t (HandleFrame.blank locals params) (Frame.blank locals params) := by
  have hundefined := denotes_undefined ht
  exact ⟨List.forall₂_replicate locals hundefined, List.forall₂_replicate params hundefined,
    hundefined, hundefined, rfl, rfl⟩

end HandleFrame

end BytecodeVerifier
