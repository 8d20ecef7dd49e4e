import TensorEngine.Graph.Node
import TensorEngine.Graph.ShapeRule
import TensorEngine.Tensor.Quantization

/-!
Contract: why a definition is refused by a graph, and the closed set of statuses.

Owns: `Status`, `GraphFault` with the causes it refers to, their texts and their statuses.

Does not own: the checks that find a fault.
-/

namespace TensorEngine

open TensorEngine.Numeric

inductive Status where
  | success
  | invalidParameter
  | invalidState
  | unsupportedDatatype
  | unsupportedParameter
  | unsupportedHardware
  | outOfMemory
  | uninitialized
deriving DecidableEq, Repr

def Status.name : Status → String
  | success => "success"
  | invalidParameter => "invalid_parameter"
  | invalidState => "invalid_state"
  | unsupportedDatatype => "unsupported_datatype"
  | unsupportedParameter => "unsupported_parameter"
  | unsupportedHardware => "unsupported_hardware"
  | outOfMemory => "out_of_memory"
  | uninitialized => "uninitialized"

inductive OperandRole where
  | inputs
  | outputs
deriving DecidableEq, Repr

def OperandRole.name : OperandRole → String
  | inputs => "inputs"
  | outputs => "outputs"

inductive TensorFault where
  | needsQuantization (element : ElementType)
  | takesNoQuantization (element : ElementType)
  | quantization (cause : QuantizationFault)
  | rankTooLarge (rank : Nat)
  | contentsSize (found : Nat) (shape : Shape) (element : ElementType) (expected : Nat)
  | staticExternal
  | externalWithoutId
  | alreadyDefined (id : ValueId)
  | tableFull
deriving Repr

def TensorFault.message : TensorFault → String
  | needsQuantization element => s!"{element.name} requires quantization parameters"
  | takesNoQuantization element => s!"{element.name} does not take quantization parameters"
  | quantization cause => cause.message
  | rankTooLarge rank => s!"rank {rank} exceeds maximum {Shape.maxRank}"
  | contentsSize found shape element expected =>
      s!"static data holds {found} bytes, shape {shape.text} of {element.name} needs {expected}"
  | staticExternal => "static values cannot be external"
  | externalWithoutId => "external flags require an external id"
  | alreadyDefined id => s!"external value {id} is already defined"
  | tableFull => "value table is full"

inductive QuantizationMismatch where
  | notIdentical (kind : OpKind) (input output : Option Quantization)
  | filterZeroPoint (zeroPoint : Int32)
deriving Repr

def QuantizationMismatch.message : QuantizationMismatch → String
  | notIdentical kind input output =>
      s!"{kind.name} requires identical input and output quantization, got " ++
        s!"{Quantization.optionText input} and {Quantization.optionText output}"
  | filterZeroPoint zeroPoint => s!"filter zero point must be 0, got {zeroPoint.toInt}"

inductive ShapeMismatch where
  | noOutputShape (cause : ShapeFault)
  | declaredDifferently (kind : OpKind) (inferred declared : Shape)
deriving Repr

def ShapeMismatch.message : ShapeMismatch → String
  | noOutputShape cause => cause.message
  | declaredDifferently kind inferred declared =>
      s!"{kind.name} produces {inferred.text}, output is declared {declared.text}"

inductive ParamsFault where
  | rangeNotANumber
  | emptyRange (low high : Float32)
  | infiniteSlope (slope : Float32)
  | unexpected (params : OpParams)
  | tableFull
deriving Repr

def ParamsFault.message : ParamsFault → String
  | rangeNotANumber => "output range must not be NaN"
  | emptyRange low high =>
      s!"output_min {plainText low} must be below output_max {plainText high}"
  | infiniteSlope slope => s!"negative slope {plainText slope} must be finite"
  | unexpected params => s!"unexpected parameters {params.text}"
  | tableFull => "node table is full"

inductive GraphFault where
  | graphSealed
  | arity (kind : OpKind) (role : OperandRole) (expected : InputArity) (found : Nat)
  | valueOutOfRange (id : ValueId) (count : Nat)
  | notDense (id : ValueId)
  | unsupportedElement (kind : OpKind) (element : ElementType)
  | elementMismatch (kind : OpKind) (id : ValueId) (expected found : ElementType)
  | quantizationMismatch (id : ValueId) (cause : QuantizationMismatch)
  | shapeMismatch (id : ValueId) (cause : ShapeMismatch)
  | invalidParams (kind : OpKind) (cause : ParamsFault)
  | alreadyProduced (id : ValueId) (producer : NodeId)
  | alreadyConsumed (id : ValueId) (consumer : NodeId)
  | outputStatic (id : ValueId)
  | aliasedOperand (id : ValueId)
  | dynamicWeights (kind : OpKind) (id : ValueId)
  | invalidTensor (cause : TensorFault)
deriving Repr

namespace GraphFault

def message : GraphFault → String
  | graphSealed => "graph is sealed by compilation"
  | arity kind role expected found =>
      s!"{kind.name} expects {expected.text} {role.name}, got {found}"
  | valueOutOfRange id count => s!"value id {id} out of range (graph has {count} values)"
  | notDense id => s!"value id {id} is a placeholder, not a dense tensor"
  | unsupportedElement kind element => s!"{kind.name} does not support datatype {element.name}"
  | elementMismatch kind id expected found =>
      s!"{kind.name} datatype mismatch on value {id}: expected {expected.name}, " ++
        s!"found {found.name}"
  | quantizationMismatch id cause => s!"quantization mismatch on value {id}: {cause.message}"
  | shapeMismatch id cause => s!"shape mismatch on value {id}: {cause.message}"
  | invalidParams kind cause => s!"invalid {kind.name} parameters: {cause.message}"
  | alreadyProduced id producer => s!"value {id} is already produced by node {producer}"
  | alreadyConsumed id consumer =>
      s!"value {id} is already read by node {consumer}, so it cannot be produced later"
  | outputStatic id => s!"value {id} is static and cannot be written"
  | aliasedOperand id => s!"value {id} is both an input and an output of the node"
  | dynamicWeights kind id => s!"{kind.name} requires static data for value {id}"
  | invalidTensor cause => s!"invalid tensor definition: {cause.message}"

def status : GraphFault → Status
  | graphSealed => .invalidState
  | unsupportedElement _ _ => .unsupportedDatatype
  | dynamicWeights _ _ => .unsupportedParameter
  | _ => .invalidParameter

end GraphFault

end TensorEngine
