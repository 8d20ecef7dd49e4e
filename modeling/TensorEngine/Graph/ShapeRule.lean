import TensorEngine.Graph.OpKind
import TensorEngine.Graph.Node
import TensorEngine.Tensor.Broadcast

/-!
Contract: the output shape of an operator, as a function of its input shapes.

Owns:
- `OpKind.outputShape`, shared by the definition of nodes and by reshaping;
- the channel counts of a fully connected filter;
- `ShapeFault`, why operands have no common shape.

Does not own: the comparison with a declared shape.
-/

namespace TensorEngine

inductive ShapeFault where
  | missingOperand
  | incompatible (left right : Shape)
  | notImageBatch (shape : Shape)
  | filterRank (shape : Shape)
  | scalarInput
  | channelMismatch (found expected : Nat)
  | biasShape (shape : Shape) (channels : Nat)
deriving DecidableEq, Repr

def ShapeFault.message : ShapeFault → String
  | missingOperand => "an input shape is missing"
  | incompatible left right => s!"shapes {left.text} and {right.text} do not broadcast"
  | notImageBatch shape => s!"expected rank-4 NHWC input, got {shape.text}"
  | filterRank shape => s!"filter must be rank 2, got {shape.text}"
  | scalarInput => "fully connected input must have rank >= 1"
  | channelMismatch found expected =>
      s!"input channels {found} do not match filter input channels {expected}"
  | biasShape shape channels => s!"bias shape {shape.text} must be [{channels}]"

def filterChannels (filter : Shape) (flags : UInt32) : Except ShapeFault (Nat × Nat) :=
  match filter with
  | [outer, inner] => if transposedFilter flags then .ok (outer, inner) else .ok (inner, outer)
  | _ => .error (.filterRank filter)

namespace OpKind

/-- Output shape of a pooling over the two middle dimensions, which become one or vanish. -/
def pooledShape (input : Shape) (outputRank : Nat) : Except ShapeFault Shape :=
  match input with
  | [images, _, _, channels] =>
      if outputRank = 2 then .ok [images, channels] else .ok [images, 1, 1, channels]
  | _ => .error (.notImageBatch input)

/-- Output shape of a matrix product over the innermost dimension; the outer dimensions are kept,
or flattened into one when the output has rank two. -/
def productShape (input filter : Shape) (bias : Option Shape) (flags : UInt32)
    (outputRank : Nat) : Except ShapeFault Shape := do
  let (inner, outputs) ← filterChannels filter flags
  match input.getLast? with
  | none => .error .scalarInput
  | some found =>
      if found ≠ inner then .error (.channelMismatch found inner)
      else
        match bias with
        | some shape => if shape ≠ [outputs] then throw (.biasShape shape outputs)
        | none => pure ()
        let outer : Shape := input.dropLast
        if outputRank = 2 ∧ outer.length ≠ 1 then .ok [outer.elementCount, outputs]
        else .ok (outer ++ [outputs])

def combinedShape (left right : Shape) : Except ShapeFault Shape :=
  match Shape.broadcast? left right with
  | some shape => .ok shape
  | none => .error (.incompatible left right)

/-- Output shape of an operator. The rank declared for the output selects between the flattened
and the unflattened form of pooling and fully connected. -/
def outputShape (kind : OpKind) (flags : UInt32) (inputs : List Shape) (outputRank : Nat) :
    Except ShapeFault Shape :=
  if kind.isUnary then
    match inputs with
    | input :: _ => .ok input
    | [] => .error .missingOperand
  else if kind.isBinary then
    match inputs with
    | left :: right :: _ => combinedShape left right
    | _ => .error .missingOperand
  else if kind = .globalAveragePooling2d then
    match inputs with
    | input :: _ => pooledShape input outputRank
    | [] => .error .missingOperand
  else
    match inputs with
    | input :: filter :: rest => productShape input filter rest.head? flags outputRank
    | _ => .error .missingOperand

end OpKind

end TensorEngine
