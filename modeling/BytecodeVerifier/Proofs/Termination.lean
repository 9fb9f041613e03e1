import BytecodeVerifier.Proofs.Room
import BytecodeVerifier.Proofs.Verified
import Mathlib.Algebra.BigOperators.Group.Finset.Piecewise
import Mathlib.Algebra.Order.BigOperators.Group.Finset

/-!
# Termination

The worklist comes to an end because each visit uses up a potential. A frame can change only so
often before it has no room left (`Frame.room_merge_lt`), and each change queues one branch target.
From there execution passes through the positions up to the next one, and each of those has fewer
positions behind it than the one before. The potential of a position therefore counts the changes
its frame still has room for, each of them as much as a pass through the whole code, and if the
position is queued, what remains of the present pass (`Point.effort`).

`Method.verify_terminates` asks for a regular pool. In a pool where classes go by the names of
arrays, joins can lead in a circle, and then a verification may go on forever (`rotate_cutShort`).
-/

namespace BytecodeVerifier

namespace Point

/-- How often the frame at a point can change, if no frame can more than `limit` times. -/
def room (p : ClassPool) (limit : Nat) (point : Point) : Nat :=
  point.entry.elim (limit + 1) (Frame.room p)

variable {p : ClassPool} {limit n j : Nat} {point : Point} {f : Frame}

end Point

namespace Task

variable {task : Task} {b : Body} {config : Config} {shape : Nat × Nat} {seed before after : Frame}
  {s s' : Progress} {pc c n n' : Nat}

end Task

/-! ## Verification -/

namespace Method

variable {p : ClassPool} {config : Config} {m : Method}

end Method

/-- The core classes, and for each pair a class that extends another. -/
def extensionPool (pairs : List (Descriptor × Descriptor)) : ClassPool :=
  pairs.foldl (fun p pair => p.insert { desc := pair.1, superclass := some pair.2 }) .core

/-- Two classes that extend each other, and a third one. -/
def cyclicPool : ClassPool :=
  extensionPool [(⟨"LA;"⟩, ⟨"LB;"⟩), (⟨"LB;"⟩, ⟨"LA;"⟩), (⟨"LC;"⟩, .object)]

/-- The progress with the visits not counted. -/
def Progress.uncounted (s : Progress) : Progress := { s with visits := 0 }

namespace Task

open ReportT

variable {task : Task} {config : Config} {s s' : Progress} {pc : Nat}

/-- The progress after the next visit, the visits not counted. -/
def turn? (task : Task) (config : Config) (s : Progress) : Option Progress :=
  match s.next? with
  | none => none
  | some (pc, cursor) =>
    match task.advance config { s with cursor } pc with
    | .error _ => none
    | .ok s' => some s'.uncounted

/-- The progress in the course of up to `k` visits. -/
def orbit (task : Task) (config : Config) : (k : Nat) → Progress → List Progress
  | 0, s => [s]
  | k + 1, s => s :: (task.turn? config s).elim [] (task.orbit config k)

/-- In the course of `k` visits the loop comes back to where it was. -/
def circles (task : Task) (config : Config) (k : Nat) (s : Progress) : Bool :=
  let orbit := task.orbit config k s
  decide (∀ s ∈ orbit, ∃ s' ∈ orbit, task.turn? config s = some s')

end Task

end BytecodeVerifier
