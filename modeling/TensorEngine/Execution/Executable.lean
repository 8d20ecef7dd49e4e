import TensorEngine.Execution.Trace
import TensorEngine.Kernel.Operator

/-!
Contract: a compiled graph.

Owns:
- `Executable`, the values of a graph with one operator for each node, and its state;
- what can be asked of it.

Does not own: the changes of state.
-/

namespace TensorEngine

inductive Lifecycle where
  | compiled
  | bound
  | running
  | failed
deriving DecidableEq, Repr

def Lifecycle.name : Lifecycle → String
  | compiled => "Compiled"
  | bound => "Bound"
  | running => "Running"
  | failed => "Failed"

structure Step (Op : Type) where
  node : Node
  operator : Op
deriving Repr

/-- A compiled graph. Its steps run in their order. -/
structure Executable (Op : Type) where
  values : List Value
  steps : List (Step Op)
  state : Lifecycle
  settings : Settings
  sharesPacked : Bool
  sharesTables : Bool
  trace : List TraceEvent
deriving Repr

namespace Executable

def shapes (executable : Executable Op) : List Shape := executable.values.map (·.shape)

def shape? (executable : Executable Op) (id : ValueId) : Option Shape :=
  (executable.values[id]?).map (·.shape)

def packed? [Operator Op] (executable : Executable Op) (node : NodeId) : Option PackedArtifact :=
  (executable.steps[node]?).bind fun step => Operator.packed? step.operator

def withoutTrace (executable : Executable Op) : Executable Op := { executable with trace := [] }

end Executable

end TensorEngine
