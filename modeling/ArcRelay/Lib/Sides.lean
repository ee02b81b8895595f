import ArcRelay.Lib.Run

/-!
# Two like components that act on each other

A state of two components of one kind, either of which can move. A move changes the
component that makes it and, where they share something, the opposite one. What holds
of the components in both directions and is kept by every move holds along every run.
-/

namespace Sides

/-- The two components. -/
inductive Side where
  | left
  | right
deriving DecidableEq, Repr

/-- The opposite component. -/
def Side.other : Side → Side
  | .left => .right
  | .right => .left

/-- A state of both components. -/
@[ext] structure Both (State : Type) where
  left : State
  right : State
deriving DecidableEq, Repr

variable {State Input : Type}

/-- The state of one component. -/
def Both.at (both : Both State) : Side → State
  | .left => both.left
  | .right => both.right

/-- A move of one component: what becomes of it and of the opposite one. -/
abbrev Move (State Input : Type) := State → State → Input → State × State

/-- One component moves. -/
def step (move : Move State Input) (both : Both State) : Side × Input → Both State
  | (.left, input) =>
    let moved := move both.left both.right input
    ⟨moved.1, moved.2⟩
  | (.right, input) =>
    let moved := move both.right both.left input
    ⟨moved.2, moved.1⟩

variable {move : Move State Input} {both : Both State}

/-- What becomes of the component that moves. -/
@[simp] theorem at_step_self (side : Side) (input : Input) :
    (step move both (side, input)).at side =
      (move (both.at side) (both.at side.other) input).1 := by
  cases side <;> rfl

/-- What becomes of the opposite component. -/
@[simp] theorem at_step_other (side : Side) (input : Input) :
    (step move both (side, input)).at side.other =
      (move (both.at side) (both.at side.other) input).2 := by
  cases side <;> rfl

/-- The opposite of the opposite. -/
@[simp] theorem other_other (side : Side) : side.other.other = side := by
  cases side <;> rfl

/-- A side is the one or the opposite one. -/
theorem eq_or_eq_other (side mover : Side) : mover = side ∨ mover = side.other := by
  cases side <;> cases mover <;> simp [Side.other]

end Sides
