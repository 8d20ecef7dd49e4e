import TensorEngine.Fault
import TensorEngine.Tensor.Broadcast

/-!
Contract: the order in which a combination of two inputs reads them.

Owns:
- `BroadcastPlan`, rows along the innermost dimension of the output, with the strides of both
  inputs;
- the offset of a row in an input.

Does not own: what is computed from the elements.
-/

namespace TensorEngine

/-- How one input is read: the strides of the outer dimensions, the distance of neighbours in a
row, and the number of elements. -/
structure InputWalk where
  outerStrides : List Nat := []
  columnStride : Nat := 0
  count : Nat := 0
deriving DecidableEq, Repr, Inhabited

/-- How two inputs are read for the rows of an output. When both have the shape of the output, it
is flat, and rows do not matter. -/
structure BroadcastPlan where
  outer : Shape := []
  rows : Nat := 0
  columns : Nat := 0
  left : InputWalk := {}
  right : InputWalk := {}
  isFlat : Bool := false
deriving DecidableEq, Repr, Inhabited

namespace InputWalk

/-- The walk over an input of this shape for an output of a rank. -/
def make (shape : Shape) (rank : Nat) : InputWalk where
  outerStrides := (shape.stridesWithin rank).take (rank - 1)
  columnStride := ((shape.stridesWithin rank).getLast?).getD 0
  count := shape.elementCount

/-- The offset of a row, given extents and strides innermost first. -/
def offsetInner : List (Nat × Nat) → Nat → Checked Nat
  | [], _ => .ok 0
  | (extent, stride) :: outer, row =>
      if extent = 0 then .error .divisionByZero
      else do
        let rest ← offsetInner outer (row / extent)
        return row % extent * stride + rest

/-- The offset of a row in the input, where the outer dimensions of the output have these
extents. -/
def rowOffset (walk : InputWalk) (outer : Shape) (row : Nat) : Checked Nat :=
  offsetInner (outer.zip walk.outerStrides).reverse row

end InputWalk

namespace BroadcastPlan

def count (plan : BroadcastPlan) : Nat := plan.rows * plan.columns

/-- The plan for two inputs, whose common shape must be that of the output. -/
def make (left right output : Shape) : Outcome BroadcastPlan :=
  match Shape.broadcast? left right with
  | none => Outcome.invalidParameter (.shapeRule (.incompatible left right))
  | some expected =>
      if expected ≠ output then
        Outcome.invalidParameter (.broadcastOutput left right expected output)
      else
        .ok {
          outer := output.take (output.length - 1)
          rows := output.batch
          columns := output.channels
          left := .make left output.length
          right := .make right output.length
          isFlat := left == output && right == output }

end BroadcastPlan

end TensorEngine
