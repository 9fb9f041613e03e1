import BytecodeVerifier.Transfer

/-!
# Frames along the flow

The types of all registers can be kept in frames of more than one kind. To follow a method along its
paths, it is enough that an operation can be applied to a frame, and that a frame can take in
another one.
-/

namespace BytecodeVerifier

/-- Frames of a kind that a method can be followed with. What this works with is up to `m`. -/
class Flow (m : outParam (Type → Type)) (F : Type) where
  /-- The frame after the operation at a position, given the frame before it. -/
  transfer : Environment → Nat → Operation → F → ReportT m F
  /-- The frame where a path is joined by another one, and whether that changes anything in it. -/
  absorb : ClassPool → F → F → m (F × Bool)
  /-- The frame with no value left behind. -/
  clearResult : F → F
  /-- The number of monitors held, if all paths agree on it. -/
  monitors : F → Option Nat

instance : Flow Id Frame where
  transfer := Environment.transfer
  absorb p f g :=
    let merged := f.merge p g
    (merged, merged != f)
  clearResult := Frame.clearResult
  monitors := Frame.monitors

namespace Frame

@[simp] theorem flow_transfer (env : Environment) (pc : Nat) (o : Operation) (f : Frame) :
    Flow.transfer env pc o f = env.transfer pc o f := rfl

@[simp] theorem flow_clearResult (f : Frame) : Flow.clearResult f = f.clearResult := rfl

@[simp] theorem flow_monitors (f : Frame) : Flow.monitors f = f.monitors := rfl

end Frame

end BytecodeVerifier
