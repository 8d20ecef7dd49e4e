import TensorEngine.Execution.Executable
import TensorEngine.Graph.ShapeRule

/-!
Contract: new shapes for the inputs of a compiled graph.

Owns:
- `propagate`, the output shapes of nodes in order, for new shapes of the values before them;
- `Executable.reshape`, which gives one external input another shape of its rank.

Does not own: the shape rules. A refused reshape changes nothing.
-/

namespace TensorEngine

def reshapeFault (id : ValueId) (node : Node) (cause : ShapeFault) : Fault :=
  match cause with
  | .missingOperand => .breached .outOfRange
  | cause => .refused (.invalidParameter (.reshapeBreaks id node cause))

/-- The shapes after the output of a node has got the shape that follows from its inputs. The rank
of the output stays. -/
def propagateNode (id : ValueId) (shapes : List Shape) (node : Node) : Outcome (List Shape) := do
  let inputs ← node.inputs.mapM fun input => operand shapes input
  let output ← operand node.outputs 0
  let declared ← operand shapes output
  let inferred ← (node.kind.outputShape node.flags inputs declared.length).mapError
    (reshapeFault id node)
  return shapes.set output inferred

def propagate (id : ValueId) (nodes : List Node) (shapes : List Shape) : Outcome (List Shape) :=
  nodes.foldlM (propagateNode id) shapes

namespace Executable

/-- The shapes of all values after an external input has got another shape of its rank. -/
def reshaped (executable : Executable Op) (id : ValueId) (shape : Shape) :
    Outcome (List Shape) :=
  match executable.values[id]? with
  | none => Outcome.invalidParameter (.valueOutOfRange id)
  | some value =>
      if !value.flags.contains .externalInput || value.isStatic then
        Outcome.invalidParameter (.notExternalInput id)
      else if shape.length ≠ value.shape.length ∨ Shape.maxRank < shape.length then
        Outcome.invalidParameter (.rankChanged id value.shape.length shape)
      else
        propagate id (executable.steps.map (·.node)) (executable.shapes.set id shape)

/-- Gives an external input another shape. The executable must be set up again. -/
def reshape (executable : Executable Op) (id : ValueId) (shape : Shape) :
    Journaled (Executable Op × Outcome Unit) :=
  match executable.reshaped id shape with
  | .error fault => { notices := [], result := (executable, .error fault) }
  | .ok shapes =>
      let values := List.zipWith (fun (value : Value) (shape : Shape) =>
        { value with shape := shape }) executable.values shapes
      { notices := [.reshaped id shape]
        result := ({ executable with values := values, state := .compiled }, .ok ()) }

end Executable

end TensorEngine
