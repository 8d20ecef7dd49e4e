import TensorEngine.Graph.ShapeRule
import TensorEngine.Graph.Table
import TensorEngine.Graph.Typing

/-!
Contract: the check of a node before it is added to a graph.

Owns:
- the single checks, each of which names one fault;
- `Graph.computeOf`, which runs them in a fixed order and gives the node's compute type.

Does not own: the change of the tables.
-/

namespace TensorEngine

open TensorEngine.Numeric

def Value.expectElement (value : Value) (kind : OpKind) (expected : ElementType) :
    Except GraphFault Unit :=
  if value.element = expected then .ok ()
  else .error (.elementMismatch kind value.id expected value.element)

namespace OpKind

def checkArity (kind : OpKind) (inputs outputs : Nat) : Except GraphFault Unit :=
  if !kind.inputArity.allows inputs then
    .error (.arity kind .inputs kind.inputArity inputs)
  else if outputs ≠ kind.outputCount then
    .error (.arity kind .outputs (.exactly kind.outputCount) outputs)
  else .ok ()

def takesRange : OpKind → Bool
  | clamp | add | subtract | multiply | globalAveragePooling2d | fullyConnected => true
  | _ => false

def checkParams (kind : OpKind) (params : OpParams) : Except GraphFault Unit :=
  match params with
  | .outputRange low high =>
      if !kind.takesRange then .error (.invalidParams kind (.unexpected params))
      else if low.isNaN || high.isNaN then .error (.invalidParams kind .rangeNotANumber)
      else if high ≤ low then .error (.invalidParams kind (.emptyRange low high))
      else .ok ()
  | .negativeSlope slope =>
      if kind ≠ leakyRelu then .error (.invalidParams kind (.unexpected params))
      else if !slope.isFinite then .error (.invalidParams kind (.infiniteSlope slope))
      else .ok ()
  | .none =>
      if kind.takesRange || kind == leakyRelu then
        .error (.invalidParams kind (.unexpected params))
      else .ok ()

/-- A conversion needs a pair of storage types between which one exists. -/
def checkConversion (source target : ElementType) : Except GraphFault ComputeType :=
  match ComputeType.conversion? source target with
  | some compute => .ok compute
  | none =>
      if ComputeType.convertsFrom source then .error (.unsupportedElement convert target)
      else .error (.unsupportedElement convert source)

/-- The storage type of a bias: products of codes are summed in 32 bits. -/
def biasElement (output : ElementType) : ElementType :=
  if output = .qint8 then .qint32 else output

def inputElements (kind : OpKind) (count : Nat) (output : ElementType) : List ElementType :=
  if kind = fullyConnected then [output, output, biasElement output]
  else List.replicate count output

/-- The storage types of the operands, which give the compute type. -/
def checkElements (kind : OpKind) (inputs : List Value) (output : Value) :
    Except GraphFault ComputeType := do
  match kind, inputs with
  | convert, input :: _ => checkConversion input.element output.element
  | _, _ =>
      if output.element ∉ kind.elements then
        throw (.unsupportedElement kind output.element)
      for (input, expected) in
          inputs.zip (kind.inputElements inputs.length output.element) do
        input.expectElement kind expected
      match ComputeType.ofElement? output.element with
      | some compute => return compute
      | none => throw (.unsupportedElement kind output.element)

/-- The quantizations of the operands. Clamping and copying keep codes as they are, and a
quantized filter is symmetric. -/
def checkQuantization (kind : OpKind) (inputs : List Value) (output : Value) :
    Except GraphFault Unit :=
  match kind, inputs with
  | clamp, input :: _ | copy, input :: _ =>
      if output.element.isQuantized && input.quantization != output.quantization then
        .error (.quantizationMismatch output.id
          (.notIdentical kind input.quantization output.quantization))
      else .ok ()
  | fullyConnected, _ :: filter :: _ =>
      match filter.quantization with
      | some quantization =>
          if output.element = .qint8 ∧ quantization.zeroPoint ≠ 0 then
            .error (.quantizationMismatch filter.id
              (.filterZeroPoint quantization.zeroPoint))
          else .ok ()
      | none => .ok ()
  | _, _ => .ok ()

/-- Filter and bias of a fully connected node are part of the graph. -/
def checkWeights (kind : OpKind) (inputs : List Value) : Except GraphFault Unit :=
  if kind = fullyConnected then
    match (inputs.drop 1).find? fun weight => !weight.isStatic with
    | some weight => .error (.dynamicWeights kind weight.id)
    | none => .ok ()
  else .ok ()

/-- The declared shape of the output must be the one that follows from the inputs. -/
def checkShape (kind : OpKind) (flags : UInt32) (inputs : List Value) (output : Value) :
    Except GraphFault Unit :=
  match kind.outputShape flags (inputs.map (·.shape)) output.shape.length with
  | .error cause =>
      .error (.shapeMismatch ((inputs.getLast?.map (·.id)).getD output.id)
        (.noOutputShape cause))
  | .ok inferred =>
      if inferred = output.shape then .ok ()
      else .error (.shapeMismatch output.id (.declaredDifferently kind inferred output.shape))

end OpKind

/-- An output must be no input, unread, not yet produced, and not static. Nodes run in the order
of definition, so that no value is read before its producer. -/
def Value.checkOutput (output : Value) (inputs : List ValueId) : Except GraphFault Unit :=
  if output.id ∈ inputs then .error (.aliasedOperand output.id)
  else
    match output.producer, output.consumers with
    | some producer, _ => .error (.alreadyProduced output.id producer)
    | none, consumer :: _ => .error (.alreadyConsumed output.id consumer)
    | none, [] => if output.isStatic then .error (.outputStatic output.id) else .ok ()

namespace Graph

/-- Checks a node against the graph and gives its compute type. -/
def computeOf (graph : Graph) (kind : OpKind) (inputs outputs : List ValueId) (params : OpParams)
    (flags : UInt32) : Except GraphFault ComputeType := do
  if graph.isSealed then throw .graphSealed
  kind.checkArity inputs.length outputs.length
  let operands ← inputs.mapM graph.dense
  let output ← graph.dense (outputs.headD 0)
  output.checkOutput inputs
  let compute ← kind.checkElements operands output
  kind.checkQuantization operands output
  kind.checkWeights operands
  kind.checkParams params
  kind.checkShape flags operands output
  return compute

end Graph

end TensorEngine
