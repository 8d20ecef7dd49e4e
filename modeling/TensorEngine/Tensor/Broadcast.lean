import TensorEngine.Tensor.Shape

/-!
Contract: broadcasting of shapes, aligned at the innermost dimension.

Owns:
- `Shape.broadcast?`, the common shape of two operands;
- `Shape.stridesWithin`, the strides of an operand read as the common shape.

Does not own: loops over elements.
-/

namespace TensorEngine.Shape

/-- The common extent of two dimensions; an extent of one stretches to the other. -/
def joinExtent? (left right : Nat) : Option Nat :=
  if left = right then some left
  else if left = 1 then some right
  else if right = 1 then some left
  else none

/-- The common shape of two shapes written innermost first. A missing dimension counts as one. -/
def joinInner? : Shape → Shape → Option Shape
  | [], right => some right
  | left, [] => some left
  | leftExtent :: left, rightExtent :: right =>
      match joinExtent? leftExtent rightExtent, joinInner? left right with
      | some extent, some inner => some (extent :: inner)
      | _, _ => none

/-- The shape that both operands stretch to, if there is one. -/
def broadcast? (left right : Shape) : Option Shape :=
  (joinInner? left.reverse right.reverse).map List.reverse

/-- Strides of an operand read with `rank` dimensions: zero along every stretched dimension. -/
def stridesWithin (shape : Shape) (rank : Nat) : List Nat :=
  List.replicate (rank - shape.length) 0 ++
    List.zipWith (fun extent stride => if extent = 1 then 0 else stride) shape shape.strides

end TensorEngine.Shape
