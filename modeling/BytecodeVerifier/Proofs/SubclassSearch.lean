import BytecodeVerifier.Proofs.Ancestry

/-!
# The search for a superclass

To find out whether a class is below another one, a stack of descriptors is worked off one by one
(`ClassPool.Search`). Each known class that is met puts its superclass and its interfaces on the
stack, whether or not they have been there before, and a descriptor is passed over if it has been
met already or if `ClassPool.walkLimit` others have. Nothing in this says that the stack gets empty,
or that nothing is passed over that matters: classes may name each other in a circle, and there may
be more of them than the limit.

The search does end, with the answer of `ClassPool.isSubclass` (`ClassPool.search_iff`). The answer
is right if no more descriptors can be reached than the limit allows, the class itself counted
(`ClassPool.isSubclass_decides`), and beyond that a walk does leave something out
(`ClassPool.withinLimit_iff`).
-/

namespace BytecodeVerifier

namespace ClassPool

open Relation (TransGen ReflTransGen)

/-- The search for `sup` ends with the answer `found`. It has met `seen`, and `pending` are still on
    the stack, the top first. -/
inductive Search (p : ClassPool) (sup : Descriptor) :
    (pending seen : List Descriptor) → (found : Bool) → Prop
  | exhausted {seen : List Descriptor} : Search p sup [] seen false
  | passed {d : Descriptor} {rest seen : List Descriptor} {found : Bool} :
      d ∈ seen ∨ walkLimit ≤ seen.length → Search p sup rest seen found →
      Search p sup (d :: rest) seen found
  | unknown {d : Descriptor} {rest seen : List Descriptor} {found : Bool} :
      d ∉ seen → seen.length < walkLimit → p.find? d = none →
      Search p sup rest (d :: seen) found → Search p sup (d :: rest) seen found
  | found {d : Descriptor} {rest seen : List Descriptor} {c : ClassDef} :
      d ∉ seen → seen.length < walkLimit → p.find? d = some c → sup ∈ c.parents →
      Search p sup (d :: rest) seen true
  | expanded {d : Descriptor} {rest seen : List Descriptor} {c : ClassDef} {found : Bool} :
      d ∉ seen → seen.length < walkLimit → p.find? d = some c → sup ∉ c.parents →
      Search p sup (c.parents.reverse ++ rest) (d :: seen) found →
      Search p sup (d :: rest) seen found

/-- At most `walkLimit` distinct descriptors can be reached from `a` along `links`, `a` itself
    counted. -/
def WithinLimit (p : ClassPool) (links : ClassDef → List Descriptor) (a : Descriptor) : Prop :=
  ∀ ds : List Descriptor, ds.Nodup → (∀ d ∈ ds, ReflTransGen (p.Link links) a d) →
    ds.length ≤ walkLimit

variable {p : ClassPool} {links : ClassDef → List Descriptor} {a b d sub sup : Descriptor}
  {pending seen rest : List Descriptor} {n : Nat}

/-! ## The search ends -/

/-- A walk passes over what it has seen. -/
private theorem walk_cons_of_mem (hd : d ∈ seen) :
    p.walk links n seen (d :: rest) = p.walk links n seen rest := by
  cases n with
  | zero => rfl
  | succ n => simp [walk, hd]

private theorem walk_cons_of_notMem (hd : d ∉ seen) :
    p.walk links (n + 1) seen (d :: rest) =
      d :: p.walk links n (d :: seen) (((p.find? d).elim [] links).reverse ++ rest) := by
  simp [walk, hd]

/-- When the limit is reached, all that is left on the stack is passed over. -/
private theorem search_of_full (hseen : walkLimit ≤ seen.length) :
    p.Search sup pending seen false := by
  induction pending with
  | nil => exact .exhausted
  | cons d rest ih => exact .passed (.inr hseen) ih

/-- The search ends, and finds what is named by something that the walk meets. -/
theorem search_walk (hn : n + seen.length = walkLimit) :
    p.Search sup pending seen ((p.walk ClassDef.parents n seen pending).any fun d =>
      (p.find? d).any fun c => c.parents.contains sup) := by
  -- a descriptor that is met takes one from `n`, and one that is passed over makes the stack shorter
  induction n generalizing seen pending with
  | zero => exact search_of_full (by omega)
  | succ n ih =>
    induction pending with
    | nil => exact .exhausted
    | cons d rest ihRest =>
      by_cases hd : d ∈ seen
      · rw [walk_cons_of_mem hd]
        exact .passed (.inl hd) ihRest
      have hlt : seen.length < walkLimit := by omega
      have hlength : n + (d :: seen).length = walkLimit := by
        rw [List.length_cons]
        omega
      rw [walk_cons_of_notMem hd, List.any_cons]
      cases hfind : p.find? d with
      | none =>
        rw [Option.any_none, Bool.false_or]
        exact .unknown hd hlt hfind (ih hlength)
      | some c =>
        rw [Option.any_some]
        by_cases hsup : sup ∈ c.parents
        · rw [List.contains_iff_mem.2 hsup, Bool.true_or]
          exact .found hd hlt hfind hsup
        · rw [Bool.eq_false_iff.2 (mt List.contains_iff_mem.1 hsup), Bool.false_or]
          exact .expanded hd hlt hfind hsup (ih hlength)

/-- What is new, and comes before the limit is reached, is not passed over. -/
private theorem not_passed (hnew : d ∉ seen) (hlt : seen.length < walkLimit) :
    ¬(d ∈ seen ∨ walkLimit ≤ seen.length) :=
  not_or.2 ⟨hnew, Nat.not_le.2 hlt⟩

/-- At no point does the search have a choice. -/
theorem Search.unique {found found' : Bool} (h : p.Search sup pending seen found)
    (h' : p.Search sup pending seen found') : found = found' := by
  induction h with
  | exhausted =>
    cases h' with
    | exhausted => rfl
  | passed hpass _ ih =>
    cases h' with
    | passed _ h' => exact ih h'
    | _ => exact absurd hpass (not_passed ‹_› ‹_›)
  | unknown hnew hlt hfind _ ih =>
    cases h' with
    | passed hpass => exact absurd hpass (not_passed hnew hlt)
    | unknown _ _ _ h' => exact ih h'
    | _ => simp_all
  | found hnew hlt hfind hsup =>
    cases h' with
    | passed hpass => exact absurd hpass (not_passed hnew hlt)
    | found => rfl
    | _ => simp_all
  | expanded hnew hlt hfind hsup _ ih =>
    cases h' with
    | passed hpass => exact absurd hpass (not_passed hnew hlt)
    | expanded _ _ hfind' _ h' =>
      rw [hfind] at hfind'
      cases hfind'
      exact ih h'
    | _ => simp_all

/-- The search for another class ends in every pool, and it has one answer. -/
theorem search_iff (hne : sub ≠ sup) {found : Bool} :
    p.Search sup [sub] [] found ↔ found = p.isSubclass sub sup := by
  have hends : p.Search sup [sub] [] (p.isSubclass sub sup) := by
    rw [isSubclass, beq_false_of_ne hne, Bool.false_or]
    exact search_walk (by simp)
  constructor
  · exact fun h => h.unique hends
  · rintro rfl
    exact hends

/-! ## What is reached -/

/-- With room for everything that can be reached, the walk meets just that. -/
theorem WithinLimit.mem_reach_iff (h : p.WithinLimit links a) :
    b ∈ p.reach links a ↔ ReflTransGen (p.Link links) a b := by
  have hsound : ∀ b ∈ p.reach links a, ReflTransGen (p.Link links) a b := by
    intro b hb
    obtain ⟨d, hd, hreach⟩ := walk_reachable p links walkLimit [] [a] b hb
    exact List.mem_singleton.1 hd ▸ hreach
  refine ⟨hsound b, fun hreach => ?_⟩
  rcases walk_closed_or_full p links walkLimit [] [a] with
    ⟨hstart, hclosed⟩ | ⟨hlength, u, -, hu, hfrom⟩
  · rw [← reach] at hstart hclosed
    induction hreach with
    | refl => simpa using hstart a
    | tail _ hlink ih => simpa using hclosed _ ih _ hlink
  -- a full walk leaves over something that can be reached as well, which makes one too many
  · rw [← reach] at hlength hu hfrom
    have hreachU : ReflTransGen (p.Link links) a u := by
      rcases hfrom with hmem | ⟨d, hd, hlink⟩
      · exact List.mem_singleton.1 hmem ▸ .refl
      · exact (hsound d hd).tail hlink
    have hnodup : (u :: p.reach links a).Nodup :=
      List.nodup_cons.2 ⟨hu, (walk_nodup p links walkLimit [] [a]).1⟩
    have hcount := h _ hnodup (List.forall_mem_cons.2 ⟨hreachU, hsound⟩)
    rw [List.length_cons] at hcount
    omega

/-- A walk meets no more than it may. -/
private theorem length_walk_le : (p.walk links n seen pending).length ≤ n := by
  induction n generalizing seen pending with
  | zero => simp [walk]
  | succ n ih =>
    cases hdrop : pending.dropWhile seen.contains with
    | nil => simp [walk, hdrop]
    | cons d rest =>
      simp only [walk, hdrop, List.length_cons]
      exact Nat.succ_le_succ ih

/-- The limit is exact, and the start takes one place of it: if one descriptor more can be reached,
    the walk leaves something out. -/
theorem withinLimit_iff : p.WithinLimit links a ↔
    ∀ b, ReflTransGen (p.Link links) a b → b ∈ p.reach links a := by
  constructor
  · exact fun h b => h.mem_reach_iff.2
  · intro h ds hnodup hds
    have hsub : ds ⊆ p.reach links a := fun d hd => h d (hds d hd)
    exact Nat.le_trans (List.subperm_of_subset hnodup hsub).length_le length_walk_le

/-- There is room enough in a pool with few links, whatever they link. -/
theorem withinLimit_of_links (h : (p.classes.flatMap links).length < walkLimit) :
    p.WithinLimit links a := by
  intro ds hnodup hds
  -- all that is reached, but for the start, stands at the end of some link
  have hsub : ds ⊆ a :: p.classes.flatMap links := by
    intro d hd
    rcases (hds d hd).cases_tail with rfl | ⟨e, -, c, hc, hmem⟩
    · exact List.mem_cons_self
    · exact List.mem_cons_of_mem _ (List.mem_flatMap.2 ⟨c, (find?_spec hc).1, hmem⟩)
  exact Nat.le_trans (List.subperm_of_subset hnodup hsub).length_le h

instance (p : ClassPool) (links : ClassDef → List Descriptor) (a b : Descriptor) :
    Decidable (p.Link links a b) :=
  decidable_of_iff (∃ c ∈ p.find? a, b ∈ links c) Iff.rfl

/-- The start is not counted by `Bounded`. -/
theorem bounded_of_withinLimit (h : ∀ c ∈ p.classes, p.WithinLimit ClassDef.parents c.desc) :
    p.Bounded :=
  fun c hc ds hnodup hds => h c hc ds hnodup fun d hd => (hds d hd).to_reflTransGen

/-- The question whether a class is below another one is always answered, yes only if a way leads
    up to it, and always yes then if no more than `walkLimit` descriptors can be reached. In a pool
    where this is so for every class, "is below" is a preorder. -/
theorem isSubclass_decides (p : ClassPool) :
    (∀ sub sup : Descriptor,
      (sub ≠ sup → ∀ found, p.Search sup [sub] [] found ↔ found = p.isSubclass sub sup) ∧
      (p.isSubclass sub sup = true → ReflTransGen (p.Link ClassDef.parents) sub sup) ∧
      (p.WithinLimit ClassDef.parents sub → ReflTransGen (p.Link ClassDef.parents) sub sup →
        p.isSubclass sub sup = true)) ∧
    ((∀ c ∈ p.classes, p.WithinLimit ClassDef.parents c.desc) →
      (∀ a, p.isSubclass a a = true) ∧
      ∀ a b c, p.isSubclass a b = true → p.isSubclass b c = true → p.isSubclass a c = true) := by
  constructor
  · intro sub sup
    refine ⟨fun hne found => search_iff hne, ?_, ?_⟩
    · intro h
      rcases eq_or_ancestor_of_isSubclass h with rfl | h
      · exact .refl
      · exact h.to_reflTransGen
    · intro hlimit hreach
      rcases Relation.reflTransGen_iff_eq_or_transGen.1 hreach with rfl | hancestor
      · exact isSubclass_refl p _
      · refine isSubclass_of_length_le hancestor fun ds hnodup hds => ?_
        exact hlimit ds hnodup fun d hd => (hds d hd).to_reflTransGen
  · intro hlimit
    have hbounded := bounded_of_withinLimit hlimit
    exact ⟨isSubclass_refl p, fun a b c hab hbc => isSubclass_trans hbounded hab hbc⟩

end ClassPool

/-- `A` and `B` are below each other, and `B` implements `I`, which extends the unknown `J`. -/
def circularPool : ClassPool :=
  [ { desc := ⟨"LA;"⟩, superclass := some ⟨"LB;"⟩ },
    { desc := ⟨"LB;"⟩, superclass := some ⟨"LA;"⟩, interfaces := [⟨"LI;"⟩, ⟨"LA;"⟩] },
    { ClassDef.ofInterface ⟨"LI;"⟩ with interfaces := [⟨"LJ;"⟩] } ].foldl .insert .core

/-- The search from `A` goes round the circle and finds `J` at the end of three links. -/
theorem circular_isSubclass :
    (∀ c ∈ circularPool.classes, circularPool.WithinLimit ClassDef.parents c.desc) ∧
    circularPool.isSubclass ⟨"LA;"⟩ ⟨"LJ;"⟩ = true ∧
    circularPool.Search ⟨"LJ;"⟩ [⟨"LA;"⟩] [] true ∧
    circularPool.isSubclass ⟨"LA;"⟩ ⟨"LA;"⟩ = true := by
  obtain ⟨hanswer, hpreorder⟩ := ClassPool.isSubclass_decides circularPool
  have hlimit : ∀ a, circularPool.WithinLimit ClassDef.parents a :=
    fun a => ClassPool.withinLimit_of_links (by decide +kernel)
  obtain ⟨hends, -, hcomplete⟩ := hanswer ⟨"LA;"⟩ ⟨"LJ;"⟩
  have hAB : circularPool.Link ClassDef.parents ⟨"LA;"⟩ ⟨"LB;"⟩ := by decide +kernel
  have hBI : circularPool.Link ClassDef.parents ⟨"LB;"⟩ ⟨"LI;"⟩ := by decide +kernel
  have hIJ : circularPool.Link ClassDef.parents ⟨"LI;"⟩ ⟨"LJ;"⟩ := by decide +kernel
  have hsub := hcomplete (hlimit _) (.head hAB (.head hBI (.single hIJ)))
  have hsearch := (hends (by decide) true).2 hsub.symm
  exact ⟨fun c _ => hlimit c.desc, hsub, hsearch, (hpreorder fun c _ => hlimit c.desc).1 _⟩

end BytecodeVerifier
