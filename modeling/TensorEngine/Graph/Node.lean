import TensorEngine.Graph.OpKind
import TensorEngine.Numeric.Binary32
import TensorEngine.Numeric.Decimal
import TensorEngine.Tensor.Buffer
import TensorEngine.Tensor.Quantization
import TensorEngine.Tensor.Shape

/-!
Contract: the entries of a graph: values and the nodes that compute them.

Owns:
- `OpParams`, the scalar parameters of a node;
- `Value`, a tensor or the place reserved for one, with its producer and its readers;
- `Node`, an operator between values, and its one-line description.

Does not own: the rules by which values and nodes are defined.
-/

namespace TensorEngine

open TensorEngine.Numeric

/-- Identity of a value: its position in the table of values. -/
abbrev ValueId := Nat

/-- Identity of a node: its position in the order of definition. -/
abbrev NodeId := Nat

inductive OpParams where
  | none
  | outputRange (low high : Float32)
  | negativeSlope (slope : Float32)
deriving BEq, Repr, Inhabited

namespace OpParams

/-- The output range, unbounded for parameters without one. -/
def range : OpParams → Float32 × Float32
  | outputRange low high => (low, high)
  | _ => (Binary32.negativeInfinity, Binary32.infinity)

def text : OpParams → String
  | none => "None"
  | outputRange low high =>
      "MinMax \x7b output_min: " ++ structuralText low ++ ", output_max: " ++
        structuralText high ++ " \x7d"
  | negativeSlope slope =>
      "LeakyRelu \x7b negative_slope: " ++ structuralText slope ++ " \x7d"

end OpParams

/-- Bit 0 of a node's flags: the filter is laid out by input channel first. -/
def transposedFilter (flags : UInt32) : Bool :=
  flags &&& 1 ≠ 0

/-- How a value is used from outside the graph, as a set of bits. -/
structure ValueFlags where
  bits : UInt32
deriving DecidableEq, Repr, Inhabited

namespace ValueFlags

def none : ValueFlags := ⟨0⟩

/-- The caller feeds the value. -/
def externalInput : ValueFlags := ⟨1⟩

/-- The caller reads the value after a run. -/
def externalOutput : ValueFlags := ⟨2⟩

def union (left right : ValueFlags) : ValueFlags := ⟨left.bits ||| right.bits⟩

def contains (flags other : ValueFlags) : Bool := flags.bits &&& other.bits == other.bits

def isExternal (flags : ValueFlags) : Bool := flags.bits &&& 3 ≠ 0

end ValueFlags

/-- A tensor of a graph, or a reserved place that is not yet described. -/
structure Value where
  id : ValueId
  isDense : Bool
  element : ElementType
  shape : Shape
  quantization : Option Quantization
  flags : ValueFlags
  contents : Option Bytes
  producer : Option NodeId
  consumers : List NodeId
deriving Repr, Inhabited

namespace Value

/-- A reserved place. -/
def placeholder (id : ValueId) : Value where
  id := id
  isDense := false
  element := .float32
  shape := []
  quantization := none
  flags := .none
  contents := none
  producer := none
  consumers := []

/-- Whether the contents are part of the graph. -/
def isStatic (value : Value) : Bool := value.contents.isSome

def byteCount (value : Value) : Nat := value.shape.elementCount * value.element.width

end Value

structure Node where
  id : NodeId
  kind : OpKind
  compute : ComputeType
  inputs : List ValueId
  outputs : List ValueId
  params : OpParams
  flags : UInt32
deriving Repr, Inhabited

namespace Node

def key (node : Node) : OpKey := ⟨node.kind, node.compute⟩

def description (node : Node) : String :=
  let ids (values : List ValueId) : String := ",".intercalate (values.map toString)
  s!"op {node.kind.name}({ids node.inputs}) >> {ids node.outputs} [{node.compute.name}]"

end Node

end TensorEngine
