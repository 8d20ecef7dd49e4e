import TensorEngine.Graph.GraphFault
import TensorEngine.Graph.Node

/-!
Contract: the tables of a graph under construction.

Owns: `Graph`, its empty forms and the look-up of values and nodes.

Does not own: which definitions are accepted.
-/

namespace TensorEngine

/-- A tensor graph: a table of values and the nodes in their order of definition. The first
`externalCount` values are reserved for tensors that are used from outside. -/
structure Graph where
  values : List Value
  nodes : List Node
  externalCount : Nat
  isSealed : Bool
deriving Repr, Inhabited

namespace Graph

def withExternalValues (count : Nat) : Graph where
  values := (List.range count).map Value.placeholder
  nodes := []
  externalCount := count
  isSealed := false

def empty : Graph := withExternalValues 0

def value? (graph : Graph) (id : ValueId) : Option Value := graph.values[id]?

def node? (graph : Graph) (id : NodeId) : Option Node := graph.nodes[id]?

/-- The graph closed against further definitions. -/
def closed (graph : Graph) : Graph := { graph with isSealed := true }

/-- The value with this identity, which must be described. -/
def dense (graph : Graph) (id : ValueId) : Except GraphFault Value :=
  match graph.value? id with
  | none => .error (.valueOutOfRange id graph.values.length)
  | some value => if value.isDense then .ok value else .error (.notDense id)

end Graph

end TensorEngine
