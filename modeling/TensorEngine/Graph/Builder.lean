import TensorEngine.Graph.Admission
import TensorEngine.Journal

/-!
Contract: the definitions that build a graph.

Owns:
- `Graph.defineTensor` and `Graph.defineQuantizedTensor`;
- `Graph.defineNode`, and `Graph.defineKind`, which passes on only the parameters of the kind.

Does not own: compilation. A refused definition leaves the graph as it was, since definitions give
the changed graph back.
-/

namespace TensorEngine

structure TensorSpec where
  element : ElementType
  shape : Shape
  contents : Option Bytes
  externalId : Option ValueId
  flags : ValueFlags
deriving Repr

namespace Graph

def tableLimit : Nat := 2 ^ 32

/-- Static contents must fill the shape and cannot be external. -/
def checkContents (spec : TensorSpec) : Except TensorFault Unit :=
  match spec.contents with
  | none => .ok ()
  | some bytes =>
      let expected := spec.shape.elementCount * spec.element.width
      if bytes.size ≠ expected then
        .error (.contentsSize bytes.size spec.shape spec.element expected)
      else if spec.flags.isExternal then .error .staticExternal
      else .ok ()

/-- The identity that a new tensor gets: the reserved one, which must be free, or the next. -/
def placeFor (graph : Graph) (externalId : Option ValueId) : Except GraphFault ValueId :=
  match externalId with
  | some id =>
      if graph.externalCount ≤ id then .error (.valueOutOfRange id graph.externalCount)
      else
        match graph.value? id with
        | some value =>
            if value.isDense then .error (.invalidTensor (.alreadyDefined id)) else .ok id
        | none => .ok id
  | none =>
      if graph.values.length < tableLimit then .ok graph.values.length
      else .error (.invalidTensor .tableFull)

/-- Adds a tensor whose quantization has been checked. -/
def defineValue (graph : Graph) (spec : TensorSpec) (quantization : Option Quantization) :
    Except GraphFault (ValueId × Graph) := do
  if graph.isSealed then throw .graphSealed
  if Shape.maxRank < spec.shape.length then
    throw (.invalidTensor (.rankTooLarge spec.shape.length))
  (checkContents spec).mapError .invalidTensor
  if spec.flags.isExternal && spec.externalId.isNone then
    throw (.invalidTensor .externalWithoutId)
  let id ← graph.placeFor spec.externalId
  let value : Value :=
    { id := id, isDense := true, element := spec.element, shape := spec.shape,
      quantization := quantization, flags := spec.flags, contents := spec.contents,
      producer := none, consumers := [] }
  let values :=
    if spec.externalId.isSome then graph.values.set id value else graph.values ++ [value]
  return (id, { graph with values := values })

def defineTensor (graph : Graph) (spec : TensorSpec) : Except GraphFault (ValueId × Graph) :=
  if spec.element.isQuantized then
    .error (.invalidTensor (.needsQuantization spec.element))
  else graph.defineValue spec none

def defineQuantizedTensor (graph : Graph) (spec : TensorSpec) (quantization : Quantization) :
    Except GraphFault (ValueId × Graph) :=
  if !spec.element.isQuantized then
    .error (.invalidTensor (.takesNoQuantization spec.element))
  else
    match quantization.validate spec.element with
    | .error cause => .error (.invalidTensor (.quantization cause))
    | .ok () => graph.defineValue spec (some quantization)

/-- Notes that a node reads a value; a node is noted once. -/
def addConsumer (values : List Value) (node : NodeId) (id : ValueId) : List Value :=
  values.modify id fun value =>
    if node ∈ value.consumers then value
    else { value with consumers := value.consumers ++ [node] }

/-- Notes that a node computes a value. -/
def setProducer (values : List Value) (node : NodeId) (id : ValueId) : List Value :=
  values.modify id fun value => { value with producer := some node }

/-- Appends a node to the tables, without any check. -/
def appendNode (graph : Graph) (node : Node) : Graph :=
  let read := node.inputs.foldl (addConsumer · node.id) graph.values
  { graph with
    values := node.outputs.foldl (setProducer · node.id) read
    nodes := graph.nodes ++ [node] }

/-- Defines a node. Nodes run in the order of definition. -/
def defineNode (graph : Graph) (kind : OpKind) (inputs outputs : List ValueId)
    (params : OpParams) (flags : UInt32) : Except GraphFault (Node × Graph) := do
  let compute ← graph.computeOf kind inputs outputs params flags
  if tableLimit ≤ graph.nodes.length then throw (.invalidParams kind .tableFull)
  let node : Node :=
    { id := graph.nodes.length, kind := kind, compute := compute, inputs := inputs,
      outputs := outputs, params := params, flags := flags }
  return (node, graph.appendNode node)

/-- Defines a node from the parameters of its kind: a range for kinds that confine their results,
unbounded when none is given, and a slope for the leaky rectifier. Other parameters are dropped. -/
def defineKind (graph : Graph) (kind : OpKind) (inputs : List ValueId) (output : ValueId)
    (given : OpParams) (flags : UInt32) : Except GraphFault (Node × Graph) :=
  let params : OpParams :=
    if kind.takesRange then .outputRange given.range.1 given.range.2
    else if kind = .leakyRelu then given
    else .none
  graph.defineNode kind inputs [output] params flags

def definitionNotices (definition : Except GraphFault (Node × Graph)) : List Notice :=
  match definition with
  | .ok (node, _) => [.nodeDefined node]
  | .error _ => []

end Graph

end TensorEngine
