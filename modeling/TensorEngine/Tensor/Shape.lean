import TensorEngine.Arithmetic

/-!
Contract: tensor shapes in row-major order.

Owns: element counts, strides, the split into channels and batch, and the text of a shape.

Does not own: broadcasting.
-/

namespace TensorEngine

/-- Extents of a tensor, outermost first. -/
abbrev Shape := List Nat

namespace Shape

def maxRank : Nat := 6

def maxStride : Nat := 2 ^ 64 - 1

def elementCount : Shape → Nat
  | [] => 1
  | extent :: inner => extent * elementCount inner

/-- Number of elements, saturating from the innermost dimension outwards. -/
def saturatedCount : Shape → Nat
  | [] => 1
  | extent :: inner => min (extent * saturatedCount inner) maxStride

/-- Distance of neighbours along each dimension. -/
def strides : Shape → List Nat
  | [] => []
  | _ :: inner => saturatedCount inner :: strides inner

/-- The innermost extent; a scalar has one channel. -/
def channels (shape : Shape) : Nat :=
  shape.getLast?.getD 1

/-- Number of elements of the dimensions outside the channels. -/
def batch (shape : Shape) : Nat :=
  elementCount shape.dropLast

def text (shape : Shape) : String :=
  "[" ++ ", ".intercalate (shape.map toString) ++ "]"

theorem strides_length (shape : Shape) : shape.strides.length = shape.length := by
  induction shape with
  | nil => rfl
  | cons extent inner inductionHypothesis => simp [strides, inductionHypothesis]

end Shape

end TensorEngine
