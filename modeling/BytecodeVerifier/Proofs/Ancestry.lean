import Mathlib.Data.List.Perm.Subperm
import Mathlib.Data.List.TakeWhile
import Mathlib.Logic.Relation
import BytecodeVerifier.Hierarchy.ClassPool

/-!
# Ancestors of a class

`ClassPool.isSubclass` walks along the links between classes and stops at
`ClassPool.walkLimit` classes. This module compares it with the relation that has no
such limit, the transitive closure of "names as its superclass or as an interface".
The two agree in a pool in which no class has more ancestors than the limit.
-/

namespace BytecodeVerifier

namespace ClassPool

open Relation (TransGen ReflTransGen)

/-- The class `a` is known and names `b` among its `links`. -/
def Link (p : ClassPool) (links : ClassDef → List Descriptor) (a b : Descriptor) : Prop :=
  ∃ c, p.find? a = some c ∧ b ∈ links c

/-- `b` can be reached from `a` through one or more superclass and interface links. -/
def Ancestor (p : ClassPool) (a b : Descriptor) : Prop := TransGen (p.Link ClassDef.parents) a b

/-- From each class at most `walkLimit` distinct descriptors can be reached. -/
def Bounded (p : ClassPool) : Prop :=
  ∀ c ∈ p.classes, ∀ ds : List Descriptor, ds.Nodup → (∀ d ∈ ds, p.Ancestor c.desc d) →
    ds.length ≤ walkLimit

/-- The root class has no superclass and no interfaces. -/
def Rooted (p : ClassPool) : Prop :=
  ∀ c, p.find? .object = some c → c.superclass = none ∧ c.interfaces = []

instance (p : ClassPool) : Decidable p.Rooted :=
  decidable_of_iff (∀ c ∈ p.find? .object, c.superclass = none ∧ c.interfaces = []) Iff.rfl

/-- What the pool knows under a descriptor carries that descriptor. -/
theorem find?_spec {p : ClassPool} {d : Descriptor} {c : ClassDef} (h : p.find? d = some c) :
    c ∈ p.classes ∧ c.desc = d := by
  have hd := List.find?_some h
  exact ⟨List.mem_of_find?_eq_some h, by simpa using hd⟩

/-! ## The walk -/

section Walk

variable (p : ClassPool) (links : ClassDef → List Descriptor)

/-- Where the walk goes on: behind what it has seen, with the first descriptor that is new. -/
private theorem pending_of_dropWhile_cons {seen pending rest : List Descriptor} {d : Descriptor}
    (h : pending.dropWhile seen.contains = d :: rest) :
    d ∉ seen ∧ ∀ b, b ∈ pending → b ∈ seen ∨ b = d ∨ b ∈ rest := by
  constructor
  · have hd := List.head_dropWhile_not seen.contains (l := pending) (by simp [h])
    simpa [h] using hd
  · intro b hb
    rw [← List.takeWhile_append_dropWhile (p := seen.contains) (l := pending), h] at hb
    rcases List.mem_append.1 hb with hb | hb
    · exact .inl (by simpa using List.mem_takeWhile_imp hb)
    · exact .inr (by simpa using hb)

/-- The links of a descriptor, known or not. -/
private theorem mem_elim_links {d b : Descriptor} :
    b ∈ (p.find? d).elim [] links ↔ p.Link links d b := by
  unfold Link
  cases p.find? d with
  | none => simp
  | some c => simp

/-- A bounded walk either ends of itself, and then what it has met is closed under links, or
    it uses up its bound and leaves something pending that it has not met. -/
theorem walk_closed_or_full (n : Nat) (seen pending : List Descriptor) :
    ((∀ b ∈ pending, b ∈ seen ∨ b ∈ p.walk links n seen pending) ∧
      ∀ d ∈ p.walk links n seen pending, ∀ b, p.Link links d b →
        b ∈ seen ∨ b ∈ p.walk links n seen pending) ∨
    ((p.walk links n seen pending).length = n ∧
      ∃ u, u ∉ seen ∧ u ∉ p.walk links n seen pending ∧
        (u ∈ pending ∨ ∃ d ∈ p.walk links n seen pending, p.Link links d u)) := by
  induction n generalizing seen pending with
  | zero =>
    by_cases hall : ∀ b ∈ pending, b ∈ seen
    · exact .inl ⟨fun b hb => .inl (hall b hb), by simp [walk]⟩
    · obtain ⟨u, hu⟩ := not_forall.1 hall
      obtain ⟨hu, hnew⟩ := Classical.not_imp.1 hu
      exact .inr ⟨by simp [walk], u, hnew, by simp [walk], .inl hu⟩
  | succ n ih =>
    cases hdrop : pending.dropWhile seen.contains with
    | nil =>
      have hall : ∀ b ∈ pending, b ∈ seen := by simpa using hdrop
      exact .inl ⟨fun b hb => .inl (hall b hb), by simp [walk, hdrop]⟩
    | cons d rest =>
      obtain ⟨hd, hsplit⟩ := pending_of_dropWhile_cons hdrop
      have hwalk : p.walk links (n + 1) seen pending =
          d :: p.walk links n (d :: seen) (((p.find? d).elim [] links).reverse ++ rest) := by
        simp [walk, hdrop]
      rw [hwalk]
      -- the links of `d` are pending from now on, and `d` itself counts as seen
      rcases ih (d :: seen) (((p.find? d).elim [] links).reverse ++ rest) with
        ⟨hpending, hclosed⟩ | ⟨hlen, u, hseen, hmet, hfrom⟩
      · refine .inl ⟨?_, ?_⟩
        · intro b hb
          rcases hsplit b hb with h | rfl | h
          · exact .inl h
          · exact .inr (by simp)
          · have := hpending b (by simp [h])
            grind
        · intro e he b hlink
          rcases List.mem_cons.1 he with rfl | he
          · have := hpending b (by simp [mem_elim_links p links, hlink])
            grind
          · have := hclosed e he b hlink
            grind
      -- what the rest of the walk leaves over was pending before, or `d` links to it
      · refine .inr ⟨by simp [hlen], u, by grind, by grind, ?_⟩
        rcases hfrom with h | ⟨e, he, hlink⟩
        · rcases List.mem_append.1 h with h | h
          · exact .inr ⟨d, by simp, (mem_elim_links p links).1 (by simpa using h)⟩
          · refine .inl ?_
            have : u ∈ pending.dropWhile seen.contains := by simp [hdrop, h]
            exact (List.dropWhile_suffix _).subset this
        · exact .inr ⟨e, by simp [he], hlink⟩

/-- A walk meets nothing twice, and nothing that it has seen before. -/
theorem walk_nodup (n : Nat) (seen pending : List Descriptor) :
    (p.walk links n seen pending).Nodup ∧ ∀ d ∈ p.walk links n seen pending, d ∉ seen := by
  induction n generalizing seen pending with
  | zero => simp [walk]
  | succ n ih =>
    cases hdrop : pending.dropWhile seen.contains with
    | nil => simp [walk, hdrop]
    | cons d rest =>
      have hd := (pending_of_dropWhile_cons hdrop).1
      have := ih (d :: seen) (((p.find? d).elim [] links).reverse ++ rest)
      simp only [walk, hdrop]
      grind

/-- A walk meets only what was pending and what is linked to something it has met. -/
theorem walk_origin (n : Nat) (seen pending : List Descriptor) :
    ∀ b ∈ p.walk links n seen pending,
      b ∈ pending ∨ ∃ d ∈ p.walk links n seen pending, p.Link links d b := by
  induction n generalizing seen pending with
  | zero => simp [walk]
  | succ n ih =>
    cases hdrop : pending.dropWhile seen.contains with
    | nil => simp [walk, hdrop]
    | cons d rest =>
      have hsub : ∀ b ∈ d :: rest, b ∈ pending := fun b hb =>
        (List.dropWhile_suffix _).subset (hdrop ▸ hb)
      simp only [walk, hdrop]
      intro b hb
      rcases List.mem_cons.1 hb with rfl | hb
      · exact .inl (hsub b (by simp))
      · rcases ih _ _ b hb with h | ⟨e, he, hlink⟩
        · rcases List.mem_append.1 h with h | h
          · exact .inr ⟨d, by simp, (mem_elim_links p links).1 (by simpa using h)⟩
          · exact .inl (hsub b (by simp [h]))
        · exact .inr ⟨e, by simp [he], hlink⟩

/-- A walk meets only what can be reached from what was pending. -/
theorem walk_reachable (n : Nat) (seen pending : List Descriptor) :
    ∀ b ∈ p.walk links n seen pending,
      ∃ d ∈ pending, ReflTransGen (p.Link links) d b := by
  induction n generalizing seen pending with
  | zero => simp [walk]
  | succ n ih =>
    cases hdrop : pending.dropWhile seen.contains with
    | nil => simp [walk, hdrop]
    | cons d rest =>
      have hsub : ∀ b ∈ d :: rest, b ∈ pending := fun b hb =>
        (List.dropWhile_suffix _).subset (hdrop ▸ hb)
      simp only [walk, hdrop]
      intro b hb
      rcases List.mem_cons.1 hb with rfl | hb
      · exact ⟨b, hsub b (by simp), .refl⟩
      · obtain ⟨e, he, hreach⟩ := ih _ _ b hb
        rcases List.mem_append.1 he with he | he
        · exact ⟨d, hsub d (by simp), .head ((mem_elim_links p links).1 (by simpa using he)) hreach⟩
        · exact ⟨e, hsub e (by simp [he]), hreach⟩

/-- The walk from `d` begins with `d`. -/
theorem reach_eq_cons (d : Descriptor) :
    ∃ rest, p.reach links d = d :: rest ∧ ∀ b ∈ rest, TransGen (p.Link links) d b := by
  have hwalk : ∀ n, p.walk links (n + 1) [] [d] =
      d :: p.walk links n [d] (((p.find? d).elim [] links).reverse ++ []) := by
    intro n
    simp [walk]
  refine ⟨_, hwalk 255, ?_⟩
  intro b hb
  obtain ⟨e, he, hreach⟩ := walk_reachable p links _ _ _ b hb
  have hlink : p.Link links d e := (mem_elim_links p links).1 (by simpa using he)
  exact .head' hlink hreach

/-- Everything that can be reached from `a` is linked to something that the walk from `a` meets,
    if there is not more of it than the walk may meet. -/
theorem exists_link_of_transGen {a b : Descriptor} (h : TransGen (p.Link links) a b)
    (hbound : ∀ ds : List Descriptor, ds.Nodup → (∀ d ∈ ds, TransGen (p.Link links) a d) →
      ds.length ≤ walkLimit) :
    ∃ d ∈ p.reach links a, p.Link links d b := by
  by_contra hno
  have hno' : ∀ d ∈ p.reach links a, ¬p.Link links d b := by
    intro d hd hlink
    exact hno ⟨d, hd, hlink⟩
  obtain ⟨rest, hreach, hrest⟩ := reach_eq_cons p links a
  have hnodup : (a :: rest).Nodup := hreach ▸ (walk_nodup p links walkLimit [] [a]).1
  have horigin := walk_origin p links walkLimit [] [a]
  rw [← reach, hreach] at horigin
  -- `b` itself is not behind the head of the walk: all that is there has a link from the walk
  have hb : b ∉ rest := by
    intro hmem
    rcases horigin b (by simp [hmem]) with hba | ⟨d, hd, hlink⟩
    · have : b = a := by simpa using hba
      exact (List.nodup_cons.1 hnodup).1 (this ▸ hmem)
    · exact hno' d (hreach ▸ hd) hlink
  rcases walk_closed_or_full p links walkLimit [] [a] with
    ⟨-, hclosed⟩ | ⟨hlen, u, -, hu, hfrom⟩
  · rw [← reach] at hclosed
    -- the walk is closed, so that it meets the last but one on the way to `b`
    have hmem : ∀ d, ReflTransGen (p.Link links) a d → d ∈ p.reach links a := by
      intro d hd
      induction hd with
      | refl => simp [hreach]
      | tail _ hlink ih => simpa using hclosed _ ih _ hlink
    obtain ⟨d, hd, hlink⟩ := TransGen.tail'_iff.1 h
    exact hno' d (hmem d hd) hlink
  · rw [← reach] at hlen hu hfrom
    -- the walk is full, and `u` and `b` are two more that can be reached
    have hlinked : ∃ d ∈ p.reach links a, p.Link links d u := by
      rcases hfrom with hua | hlinked
      · have : u = a := by simpa using hua
        exact absurd (by simp [hreach, this]) hu
      · exact hlinked
    obtain ⟨d, hd, hlink⟩ := hlinked
    have hub : u ≠ b := fun heq => hno' d hd (heq ▸ hlink)
    have hreachU : TransGen (p.Link links) a u := by
      rcases List.mem_cons.1 (hreach ▸ hd) with rfl | hd
      · exact .single hlink
      · exact (hrest d hd).tail hlink
    have hcount := hbound (u :: b :: rest) (by grind) (by grind)
    rw [hreach] at hlen
    simp only [List.length_cons] at hlen hcount
    omega

end Walk

/-! ## Subclasses -/

variable {p : ClassPool} {a b c : Descriptor}

/-- A subclass is the class itself or has it as an ancestor. -/
theorem eq_or_ancestor_of_isSubclass (h : p.isSubclass a b = true) : a = b ∨ p.Ancestor a b := by
  simp only [isSubclass, Bool.or_eq_true, beq_iff_eq, List.any_eq_true, Option.any_eq_true_iff_get,
    List.contains_iff_mem] at h
  rcases h with h | ⟨d, hd, hsome, hmem⟩
  · exact .inl h
  · have hlink : p.Link ClassDef.parents d b := ⟨_, (Option.some_get hsome).symm, hmem⟩
    obtain ⟨rest, hreach, hrest⟩ := reach_eq_cons p ClassDef.parents a
    rcases List.mem_cons.1 (hreach ▸ hd) with rfl | hd
    · exact .inr (.single hlink)
    · exact .inr ((hrest d hd).tail hlink)

/-- Every ancestor of a class is found, if it does not have too many. -/
theorem isSubclass_of_length_le (h : p.Ancestor a b)
    (hbound : ∀ ds : List Descriptor, ds.Nodup → (∀ d ∈ ds, p.Ancestor a d) →
      ds.length ≤ walkLimit) : p.isSubclass a b = true := by
  obtain ⟨e, he, f, hf, hb⟩ := exists_link_of_transGen p _ h hbound
  simp only [isSubclass, Bool.or_eq_true, List.any_eq_true]
  exact .inr ⟨e, he, by simpa [hf] using hb⟩

/-- In a bounded pool every ancestor is found. -/
theorem isSubclass_of_ancestor (hp : p.Bounded) (h : p.Ancestor a b) :
    p.isSubclass a b = true := by
  -- a class that has an ancestor is known, and so its walk is long enough
  obtain ⟨d, hlink, -⟩ := TransGen.head'_iff.1 h
  obtain ⟨c, hc, -⟩ := hlink
  obtain ⟨hmem, rfl⟩ := find?_spec hc
  exact isSubclass_of_length_le h (hp c hmem)

/-- A pool with few links is bounded, whatever they link. -/
theorem bounded_of_links (h : (p.classes.flatMap ClassDef.parents).length ≤ walkLimit) :
    p.Bounded := by
  intro c _ ds hnodup hds
  -- every ancestor stands at the end of some link
  have hsub : ds ⊆ p.classes.flatMap ClassDef.parents := by
    intro d hd
    obtain ⟨e, -, f, hf, hmem⟩ := TransGen.tail'_iff.1 (hds d hd)
    exact List.mem_flatMap.2 ⟨f, (find?_spec hf).1, hmem⟩
  exact Nat.le_trans (List.subperm_of_subset hnodup hsub).length_le h

theorem isSubclass_refl (p : ClassPool) (a : Descriptor) : p.isSubclass a a = true := by
  simp [isSubclass]

theorem isSubclass_trans (hp : p.Bounded) (hab : p.isSubclass a b = true)
    (hbc : p.isSubclass b c = true) : p.isSubclass a c = true := by
  rcases eq_or_ancestor_of_isSubclass hab with rfl | hab
  · exact hbc
  · rcases eq_or_ancestor_of_isSubclass hbc with rfl | hbc
    · exact isSubclass_of_ancestor hp hab
    · exact isSubclass_of_ancestor hp (hab.trans hbc)

/-- The root class has no ancestors. -/
theorem eq_object_of_isSubclass (hp : p.Rooted) (h : p.isSubclass .object b = true) :
    b = .object := by
  rcases eq_or_ancestor_of_isSubclass h with h | h
  · exact h.symm
  · obtain ⟨d, ⟨c, hc, hmem⟩, -⟩ := TransGen.head'_iff.1 h
    obtain ⟨hsuper, hinterfaces⟩ := hp c hc
    simp [ClassDef.parents, hsuper, hinterfaces] at hmem

/-- Whatever stands on the superclass chain of a class is a known class, and the class itself or
    an ancestor of it. -/
theorem mem_chain {n : Nat} {d : ClassDef} (h : d ∈ p.chain n a) :
    p.find? d.desc = some d ∧ (a = d.desc ∨ p.Ancestor a d.desc) := by
  induction n generalizing a with
  | zero => simp [chain] at h
  | succ n ih =>
    cases hfind : p.find? a with
    | none => simp [chain, hfind] at h
    | some c =>
      have hc := (find?_spec hfind).2
      have hself : p.find? c.desc = some c := by rw [hc]; exact hfind
      cases hsuper : c.superclass with
      | none =>
        have : d = c := by simpa [chain, hfind, hsuper] using h
        exact this ▸ ⟨hself, .inl hc.symm⟩
      | some s =>
        have hd : d = c ∨ d ∈ p.chain n s := by simpa [chain, hfind, hsuper] using h
        rcases hd with rfl | hd
        · exact ⟨hself, .inl hc.symm⟩
        · have hlink : p.Ancestor a s := .single ⟨c, hfind, by simp [ClassDef.parents, hsuper]⟩
          obtain ⟨hfound, hs⟩ := ih hd
          refine ⟨hfound, .inr ?_⟩
          rcases hs with rfl | hs
          · exact hlink
          · exact hlink.trans hs

theorem isSubclass_of_mem_chain (hp : p.Bounded) {n : Nat} {d : ClassDef}
    (h : d ∈ p.chain n a) : p.find? d.desc = some d ∧ p.isSubclass a d.desc = true := by
  obtain ⟨hfound, hd⟩ := mem_chain h
  refine ⟨hfound, ?_⟩
  rcases hd with rfl | hd
  · exact isSubclass_refl p _
  · exact isSubclass_of_ancestor hp hd

end ClassPool

end BytecodeVerifier
