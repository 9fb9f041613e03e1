import BytecodeVerifier.Hierarchy.Resolution
import BytecodeVerifier.Proofs.CommonSuperclass
import BytecodeVerifier.Proofs.SubclassSearch

/-!
# Where methods are found

A method is looked for in a class and its superclasses, and then in the interfaces of each of them
with all that these extend; through an interface it is looked for in that, in what it extends, and
in the root class. `ClassPool.InScope` says so without an order and without a limit.

If the hierarchy is no larger than the searches allow (`ClassPool.Shallow`), a method is found
exactly if some class in scope declares it, and what the superclass chain declares is found at the
nearest class of the chain (`ClassPool.resolveMethod_complete`). The interfaces of a chain are
searched one after the other, each with a limit of its own, so that what several of them extend does
not use the limit up. The class at which a search begins counts towards its limit.
-/

namespace BytecodeVerifier

/-- The method has this name and prototype. -/
def MethodDef.Matches (m : MethodDef) (name : String) (proto : Prototype) : Prop :=
  m.name = name ∧ m.proto = proto

namespace ClassPool

open Relation (ReflTransGen)

/-- The known class `d` declares a method with this name and prototype. -/
def Declares (p : ClassPool) (d : Descriptor) (name : String) (proto : Prototype) : Prop :=
  ∃ c, p.find? d = some c ∧ ∃ m ∈ c.methods, m.Matches name proto

/-- The method is the first that the known class `d` declares with this name and prototype. -/
def DeclaresFirst (p : ClassPool) (d : Descriptor) (name : String) (proto : Prototype)
    (m : MethodDef) : Prop :=
  ∃ c before after, p.find? d = some c ∧ c.methods = before ++ m :: after ∧
    m.Matches name proto ∧ ∀ m' ∈ before, ¬m'.Matches name proto

/-- A method of `owner` may be found in the class `d`. -/
inductive InScope (p : ClassPool) (owner : Descriptor) : MethodSearch → Descriptor → Prop
  | inherited {kind : MethodSearch} {d : Descriptor} : kind ≠ .interface → p.Inherits owner d →
      InScope p owner kind d
  | implemented {kind : MethodSearch} {d e i : Descriptor} {c : ClassDef} : kind ≠ .interface →
      p.Inherits owner d → p.find? d = some c → i ∈ c.interfaces →
      ReflTransGen (p.Link ClassDef.interfaces) i e → InScope p owner kind e
  | extended {d : Descriptor} : ReflTransGen (p.Link ClassDef.interfaces) owner d →
      InScope p owner .interface d
  | root : InScope p owner .interface .object

/-- A hierarchy that is searched in full. -/
structure Shallow (p : ClassPool) : Prop where
  /-- Superclass chains do not run in a circle, and have at most `walkLimit` classes. -/
  chains {n : Nat} {a d : Descriptor} : p.Climbs n a d → n < walkLimit
  /-- At most `walkLimit` descriptors can be reached from a class, the class itself counted. -/
  limited {c : ClassDef} : c ∈ p.classes → p.WithinLimit ClassDef.parents c.desc

variable {p : ClassPool} {a d i owner : Descriptor} {c : ClassDef} {name : String}
  {proto : Prototype} {m : MethodDef} {n : Nat} {kind : MethodSearch}

/-! ## Declarations -/

private theorem matches_iff :
    (m.name == name && m.proto == proto) = true ↔ m.Matches name proto := by
  simp [MethodDef.Matches]

private theorem not_matches_iff :
    (!(m.name == name && m.proto == proto)) = true ↔ ¬m.Matches name proto := by
  rw [Bool.not_eq_true', ← Bool.not_eq_true, matches_iff]

theorem declaresFirst_iff : p.DeclaresFirst d name proto m ↔
    (p.find? d).bind (·.method? name proto) = some m := by
  simp only [DeclaresFirst, Option.bind_eq_some_iff, ClassDef.method?,
    List.find?_eq_some_iff_append, matches_iff, not_matches_iff]
  constructor
  · rintro ⟨c, before, after, hc, hsplit, hm, hbefore⟩
    exact ⟨c, hc, hm, before, after, hsplit, hbefore⟩
  · rintro ⟨c, hc, hm, before, after, hsplit, hbefore⟩
    exact ⟨c, before, after, hc, hsplit, hm, hbefore⟩

/-- What is declared has a first declaration. -/
theorem declares_iff : p.Declares d name proto ↔ ∃ m, p.DeclaresFirst d name proto m := by
  simp only [declaresFirst_iff, Declares]
  cases p.find? d with
  | none => simp
  | some c => simp [← Option.isSome_iff_exists, ClassDef.method?, ← matches_iff]

/-! ## Interfaces -/

theorem WithinLimit.interfaces (h : p.WithinLimit ClassDef.parents a) :
    p.WithinLimit ClassDef.interfaces a := by
  intro ds hnodup hds
  refine h ds hnodup fun d hd => ReflTransGen.mono ?_ _ _ (hds d hd)
  rintro x y ⟨c, hc, hy⟩
  exact ⟨c, hc, List.mem_append_right _ hy⟩

/-- There is room enough for the search of any interface, known or not. -/
theorem Shallow.withinLimit_interfaces (hp : p.Shallow) (i : Descriptor) :
    p.WithinLimit ClassDef.interfaces i := by
  cases hfind : p.find? i with
  | some c =>
    obtain ⟨hc, rfl⟩ := find?_spec hfind
    exact (hp.limited hc).interfaces
  | none =>
    -- from an unknown class nothing else is reached
    rw [withinLimit_iff]
    intro d hreach
    obtain ⟨rest, hwalk, -⟩ := reach_eq_cons p ClassDef.interfaces i
    rcases hreach.cases_head with rfl | ⟨e, ⟨c, hc, -⟩, -⟩
    · rw [hwalk]
      exact List.mem_cons_self
    · rw [hfind] at hc
      cases hc

theorem declaresFirst_of_resolveInterfaceMethod
    (h : p.resolveInterfaceMethod i name proto = some m) :
    ∃ d, ReflTransGen (p.Link ClassDef.interfaces) i d ∧ p.DeclaresFirst d name proto m := by
  obtain ⟨d, hd, hm⟩ := List.exists_of_findSome?_eq_some h
  obtain ⟨e, he, hreach⟩ := walk_reachable p ClassDef.interfaces walkLimit [] [i] d hd
  exact ⟨d, List.mem_singleton.1 he ▸ hreach, declaresFirst_iff.2 hm⟩

/-- The search of an interface misses nothing that it extends. -/
theorem Shallow.exists_resolveInterfaceMethod (hp : p.Shallow)
    (hreach : ReflTransGen (p.Link ClassDef.interfaces) i d) (hd : p.Declares d name proto) :
    ∃ m, p.resolveInterfaceMethod i name proto = some m := by
  obtain ⟨m, hm⟩ := declares_iff.1 hd
  rw [← Option.isSome_iff_exists, resolveInterfaceMethod, List.findSome?_isSome_iff]
  refine ⟨d, (hp.withinLimit_interfaces i).mem_reach_iff.2 hreach, ?_⟩
  rw [declaresFirst_iff.1 hm, Option.isSome_some]

/-! ## Superclass chains -/

/-- Whoever gets up `n` links gets up fewer. -/
theorem Climbs.exists_of_le {k : Nat} (h : p.Climbs n a d) (hle : k ≤ n) :
    ∃ e, p.Climbs k a e := by
  induction h generalizing k with
  | here ha =>
    obtain rfl := Nat.le_zero.1 hle
    exact ⟨_, .here ha⟩
  | up ha hs _ ih =>
    cases k with
    | zero => exact ⟨_, .here ha⟩
    | succ k =>
      obtain ⟨e, he⟩ := ih (Nat.le_of_succ_le_succ hle)
      exact ⟨e, .up ha hs he⟩

/-- The class that is `n` links up is the one at position `n` of the chain. -/
theorem Shallow.getElem?_superclasses (hp : p.Shallow) (h : p.Climbs n a d)
    (hd : p.find? d = some c) : (p.superclasses a)[n]? = some c := by
  have hdesc := getElem?_chain_iff.2 ⟨hp.chains h, h⟩
  rw [List.getElem?_map, Option.map_eq_some_iff] at hdesc
  obtain ⟨c', hc', rfl⟩ := hdesc
  rw [(mem_chain (List.mem_of_getElem? hc')).1] at hd
  cases hd
  exact hc'

theorem climbs_of_getElem?_superclasses (h : (p.superclasses a)[n]? = some c) :
    p.Climbs n a c.desc ∧ p.find? c.desc = some c := by
  have hdesc : ((p.chain walkLimit a).map ClassDef.desc)[n]? = some c.desc := by
    rw [List.getElem?_map, ← superclasses, h, Option.map_some]
  exact ⟨(getElem?_chain_iff.1 hdesc).2, (mem_chain (List.mem_of_getElem? h)).1⟩

/-- A method is found at the nearest class of the chain that declares it. -/
theorem Shallow.findSome?_superclasses (hp : p.Shallow) (h : p.Climbs n owner d)
    (hm : p.DeclaresFirst d name proto m)
    (hnearest : ∀ k < n, ∀ e, p.Climbs k owner e → ¬p.Declares e name proto) :
    (p.superclasses owner).findSome? (·.method? name proto) = some m := by
  obtain ⟨c, hd, hmethod⟩ := Option.bind_eq_some_iff.1 (declaresFirst_iff.1 hm)
  obtain ⟨hlt, hc⟩ := List.getElem?_eq_some_iff.1 (hp.getElem?_superclasses h hd)
  rw [List.findSome?_eq_some_iff]
  refine ⟨(p.superclasses owner).take n, c, (p.superclasses owner).drop (n + 1), ?_, hmethod, ?_⟩
  · rw [← hc, ← List.drop_eq_getElem_cons hlt, List.take_append_drop]
  · intro e he
    obtain ⟨k, hk, hke⟩ := List.mem_take_iff_getElem.1 he
    obtain ⟨hclimbs, hfind⟩ := climbs_of_getElem?_superclasses
      (List.getElem?_eq_some_iff.2 ⟨by omega, hke⟩)
    rw [Option.eq_none_iff_forall_ne_some]
    intro m' hm'
    refine hnearest k (by omega) _ hclimbs (declares_iff.2 ⟨m', declaresFirst_iff.2 ?_⟩)
    rw [hfind, Option.bind_some, hm']

/-- A class on the chain that declares the method hides nothing: at the latest it is found there. -/
theorem Shallow.exists_findSome?_superclasses (hp : p.Shallow) (h : p.Inherits owner d)
    (hd : p.Declares d name proto) :
    ∃ m, (p.superclasses owner).findSome? (·.method? name proto) = some m := by
  obtain ⟨m, hm⟩ := declares_iff.1 hd
  obtain ⟨c, hc, hmethod⟩ := Option.bind_eq_some_iff.1 (declaresFirst_iff.1 hm)
  obtain ⟨n, hn⟩ := h
  rw [← Option.isSome_iff_exists, List.findSome?_isSome_iff]
  exact ⟨c, List.mem_of_getElem? (hp.getElem?_superclasses hn hc), by rw [hmethod]; rfl⟩

/-! ## Scopes -/

theorem resolveMethod_eq_resolveClassMethod (hkind : kind ≠ .interface) :
    p.resolveMethod owner name proto kind = p.resolveClassMethod owner name proto := by
  cases kind with
  | direct => rfl
  | virtual => rfl
  | interface => exact absurd rfl hkind

/-- Whatever is found in a class, its superclasses or their interfaces is declared in scope. -/
theorem declaresFirst_of_resolveClassMethod (hkind : kind ≠ .interface)
    (h : p.resolveClassMethod owner name proto = some m) :
    ∃ d, p.InScope owner kind d ∧ p.DeclaresFirst d name proto m := by
  rcases Option.or_eq_some_iff.1 h with h | ⟨-, h⟩
  · obtain ⟨c, hc, hm⟩ := List.exists_of_findSome?_eq_some h
    obtain ⟨n, hn⟩ := List.mem_iff_getElem?.1 hc
    obtain ⟨hclimbs, hfind⟩ := climbs_of_getElem?_superclasses hn
    refine ⟨c.desc, .inherited hkind ⟨n, hclimbs⟩, declaresFirst_iff.2 ?_⟩
    rw [hfind, Option.bind_some, hm]
  · obtain ⟨i, hi, h⟩ := List.exists_of_findSome?_eq_some h
    obtain ⟨c, hc, hi⟩ := List.mem_flatMap.1 hi
    obtain ⟨n, hn⟩ := List.mem_iff_getElem?.1 hc
    obtain ⟨hclimbs, hfind⟩ := climbs_of_getElem?_superclasses hn
    obtain ⟨d, hreach, hm⟩ := declaresFirst_of_resolveInterfaceMethod h
    exact ⟨d, .implemented hkind ⟨n, hclimbs⟩ hfind hi hreach, hm⟩

theorem declaresFirst_of_resolveMethod (h : p.resolveMethod owner name proto kind = some m) :
    ∃ d, p.InScope owner kind d ∧ p.DeclaresFirst d name proto m := by
  by_cases hkind : kind = .interface
  · subst hkind
    rcases Option.or_eq_some_iff.1 h with h | ⟨-, h⟩
    · obtain ⟨d, hreach, hm⟩ := declaresFirst_of_resolveInterfaceMethod h
      exact ⟨d, .extended hreach, hm⟩
    · exact ⟨.object, .root, declaresFirst_iff.2 h⟩
  · rw [resolveMethod_eq_resolveClassMethod hkind] at h
    exact declaresFirst_of_resolveClassMethod hkind h

/-- Of two searches one after the other it is enough that one succeeds. -/
private theorem exists_or_eq_some {α : Type} {x y : Option α}
    (h : (∃ a, x = some a) ∨ ∃ a, y = some a) : ∃ a, x.or y = some a := by
  simp only [← Option.isSome_iff_exists] at h ⊢
  rwa [Option.isSome_or, Bool.or_eq_true]

/-- Whatever is declared in scope is found, if not in this class then in another one. -/
theorem Shallow.exists_resolveMethod (hp : p.Shallow) (hscope : p.InScope owner kind d)
    (hd : p.Declares d name proto) : ∃ m, p.resolveMethod owner name proto kind = some m := by
  cases hscope with
  | inherited hkind hinherits =>
    rw [resolveMethod_eq_resolveClassMethod hkind]
    exact exists_or_eq_some (.inl (hp.exists_findSome?_superclasses hinherits hd))
  | @implemented _ b _ i c hkind hinherits hb hi hreach =>
    rw [resolveMethod_eq_resolveClassMethod hkind]
    refine exists_or_eq_some (.inr ?_)
    obtain ⟨n, hn⟩ := hinherits
    have hc : c ∈ p.superclasses owner := List.mem_of_getElem? (hp.getElem?_superclasses hn hb)
    obtain ⟨m, hm⟩ := hp.exists_resolveInterfaceMethod hreach hd
    rw [← Option.isSome_iff_exists, List.findSome?_isSome_iff]
    exact ⟨i, List.mem_flatMap.2 ⟨c, hc, hi⟩, by rw [hm, Option.isSome_some]⟩
  | extended hreach =>
    exact exists_or_eq_some (.inl (hp.exists_resolveInterfaceMethod hreach hd))
  | root =>
    obtain ⟨m, hm⟩ := declares_iff.1 hd
    exact exists_or_eq_some (.inr ⟨m, declaresFirst_iff.1 hm⟩)

/-- In a hierarchy that is searched in full, a method is found exactly if a class in scope declares
    it. What is found is the first such declaration of a class in scope, and of the nearest class if
    one on the superclass chain declares it. -/
theorem resolveMethod_complete (hp : p.Shallow) (owner : Descriptor) (name : String)
    (proto : Prototype) (kind : MethodSearch) :
    ((∃ m, p.resolveMethod owner name proto kind = some m) ↔
      ∃ d, p.InScope owner kind d ∧ p.Declares d name proto) ∧
    (∀ m, p.resolveMethod owner name proto kind = some m →
      ∃ d, p.InScope owner kind d ∧ p.DeclaresFirst d name proto m) ∧
    (kind ≠ .interface → ∀ n d m, p.Climbs n owner d → p.DeclaresFirst d name proto m →
      (∀ k < n, ∀ e, p.Climbs k owner e → ¬p.Declares e name proto) →
      p.resolveMethod owner name proto kind = some m) := by
  refine ⟨⟨?_, ?_⟩, fun m => declaresFirst_of_resolveMethod, ?_⟩
  · rintro ⟨m, h⟩
    obtain ⟨d, hscope, hm⟩ := declaresFirst_of_resolveMethod h
    exact ⟨d, hscope, declares_iff.2 ⟨m, hm⟩⟩
  · rintro ⟨d, hscope, hd⟩
    exact hp.exists_resolveMethod hscope hd
  · intro hkind n d m h hm hnearest
    have hfound := hp.findSome?_superclasses h hm hnearest
    rw [resolveMethod_eq_resolveClassMethod hkind]
    exact Option.or_eq_some_iff.2 (.inl hfound)

/-- A hierarchy is searched in full if it has few links and no chain goes beyond the limit. -/
theorem shallow_of_links (hlinks : (p.classes.flatMap ClassDef.parents).length < walkLimit)
    (hchain : ∀ c ∈ p.classes, (p.chain (walkLimit + 1) c.desc).length ≤ walkLimit) :
    p.Shallow where
  chains {n a d} h := by
    by_contra hn
    obtain ⟨e, he⟩ := h.exists_of_le (Nat.not_lt.1 hn)
    obtain ⟨c, hc⟩ := h.exists_find?
    obtain ⟨hmem, rfl⟩ := find?_spec hc
    -- the class that is `walkLimit` links up stands on the longer chain
    have hlast := getElem?_chain_iff.2 ⟨Nat.lt_add_one walkLimit, he⟩
    obtain ⟨hlt, -⟩ := List.getElem?_eq_some_iff.1 hlast
    rw [List.length_map] at hlt
    have hle := hchain c hmem
    omega
  limited _ := withinLimit_of_links hlinks

end ClassPool

/-- Prototype of the methods that are looked for in `meshPool`. -/
def meshProto : Prototype := { params := [⟨"I"⟩], ret := ⟨"V"⟩ }

/-- `A` extends `B`, and `B` declares one method twice. Their interfaces `I` and `K` both extend `J`,
    which extends `I` again and declares another method. -/
def meshPool : ClassPool :=
  [ { desc := ⟨"LA;"⟩, superclass := some ⟨"LB;"⟩, interfaces := [⟨"LI;"⟩, ⟨"LK;"⟩] },
    ({ desc := ⟨"LB;"⟩, superclass := some .object, interfaces := [⟨"LK;"⟩] } : ClassDef)
      |>.declareMethod "run" meshProto (.ofModifiers [.publicAccess])
      |>.declareMethod "run" meshProto (.ofModifiers [.privateAccess]),
    { ClassDef.ofInterface ⟨"LI;"⟩ with interfaces := [⟨"LJ;"⟩] },
    { ClassDef.ofInterface ⟨"LK;"⟩ with interfaces := [⟨"LX;"⟩, ⟨"LJ;"⟩] },
    { ClassDef.ofInterface ⟨"LJ;"⟩ with interfaces := [⟨"LI;"⟩] }
      |>.declareMethod "step" meshProto (.ofModifiers [.publicAccess]) ].foldl .insert .core

/-- From `A` the method of `J` is found behind the circle of interfaces, and of the two methods of
    `B` the first. -/
theorem mesh_resolveMethod : meshPool.Shallow ∧
    (∃ m, meshPool.resolveMethod ⟨"LA;"⟩ "step" meshProto .virtual = some m) ∧
    meshPool.resolveMethod ⟨"LA;"⟩ "run" meshProto .direct = some
      { owner := ⟨"LB;"⟩, name := "run", proto := meshProto
        flags := .ofModifiers [.publicAccess] } := by
  have hp : meshPool.Shallow :=
    ClassPool.shallow_of_links (by decide +kernel) (by decide +kernel)
  obtain ⟨hstep, -, -⟩ := ClassPool.resolveMethod_complete hp ⟨"LA;"⟩ "step" meshProto .virtual
  obtain ⟨-, -, hrun⟩ := ClassPool.resolveMethod_complete hp ⟨"LA;"⟩ "run" meshProto .direct
  obtain ⟨A, hA, hAK⟩ : meshPool.Link ClassDef.interfaces ⟨"LA;"⟩ ⟨"LK;"⟩ := by decide +kernel
  have hKJ : meshPool.Link ClassDef.interfaces ⟨"LK;"⟩ ⟨"LJ;"⟩ := by decide +kernel
  have hJ : meshPool.DeclaresFirst ⟨"LJ;"⟩ "step" meshProto
      { owner := ⟨"LJ;"⟩, name := "step", proto := meshProto
        flags := .ofModifiers [.publicAccess] } :=
    ClassPool.declaresFirst_iff.2 (by decide +kernel)
  have hnone : (meshPool.find? ⟨"LA;"⟩).bind (·.method? "run" meshProto) = none := by
    decide +kernel
  have hB : meshPool.Climbs 1 ⟨"LA;"⟩ ⟨"LB;"⟩ :=
    (ClassPool.getElem?_chain_iff (n := 2)).1 (by decide +kernel) |>.2
  refine ⟨hp, hstep.2 ⟨⟨"LJ;"⟩, ?_, ClassPool.declares_iff.2 ⟨_, hJ⟩⟩, ?_⟩
  · exact .implemented (by decide) ⟨0, .here hA⟩ hA hAK (.single hKJ)
  · refine hrun (by decide) 1 ⟨"LB;"⟩ _ hB (ClassPool.declaresFirst_iff.2 (by decide +kernel)) ?_
    intro k hk e he hdeclares
    -- below `B` there is only `A`, which declares nothing
    obtain rfl := Nat.lt_one_iff.1 hk
    cases he with
    | here =>
      obtain ⟨m, hm⟩ := ClassPool.declares_iff.1 hdeclares
      rw [ClassPool.declaresFirst_iff, hnone] at hm
      cases hm

end BytecodeVerifier
