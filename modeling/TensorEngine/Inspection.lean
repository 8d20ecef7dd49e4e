import TensorEngine.Execution.Trace
import TensorEngine.Graph.Typing
import TensorEngine.Kernel.PackedWeights
import TensorEngine.Text.Hexadecimal

/-!
Contract: what a caller can look at, as documents.

Owns:
- numbers as bit patterns in hexadecimal digits, so that nothing is rounded;
- the documents of kinds, storage types, values, nodes, packed weights and recorded events;
- the names and documents of errors.

Does not own: the forms in which values are read back.
-/

namespace TensorEngine

open TensorEngine.Numeric

/-- The pattern of a single precision number; what is no number has no pattern. -/
def patternOfSingle (value : Float32) : Json :=
  .text (if value.isNaN then "nan" else Text.hexadecimal 8 value.toBits.toNat)

/-- The pattern of a half precision number; what is no number has no pattern. -/
def patternOfHalf (value : Half) : Json :=
  .text (if value.isNaN then "nan" else Text.hexadecimal 4 value.bits.toNat)

/-- A finite number rounded to a multiple of `2 ^ bits` units in the last place. -/
def coarsened (bits : Nat) (value : Float32) : Float32 :=
  if bits = 0 || !value.isFinite then value
  else
    Float32.ofBits ((value.toBits.toNat + 2 ^ (bits - 1)) / 2 ^ bits * 2 ^ bits).toUInt32

def inspectCode (code : Int32) : Json := .integer code.toInt

def OpKind.inspection (kind : OpKind) : List (String × Json) :=
  [("name", .text kind.name), ("arity", .text kind.inputArity.text),
    ("outputs", .natural kind.outputCount),
    ("allows", .list ((List.range 5).map fun count => .bool (kind.inputArity.allows count))),
    ("exact", .bool kind.inputArity.isExact), ("unary", .bool kind.isUnary),
    ("binary", .bool kind.isBinary), ("dtypes", .texts (kind.elements.map (·.name)))]

def ElementType.inspection (element : ElementType) : List (String × Json) :=
  [("name", .text element.name), ("size", .natural element.width),
    ("quantized", .bool element.isQuantized),
    ("range", Json.orNull (fun (low, high) => .list [inspectCode low, inspectCode high])
      element.codeRange?),
    ("compute", Json.orNull (fun compute : ComputeType => .text compute.name)
      (ComputeType.ofElement? element))]

def Quantization.inspection (quantization : Quantization) : Json :=
  .record [("zero_point", inspectCode quantization.zeroPoint),
    ("scale", patternOfSingle quantization.scale)]

def Value.inspection (value : Value) : Json :=
  .record [("consumers", .naturals value.consumers),
    ("data", Json.orNull (fun bytes : Bytes => .natural bytes.size) value.contents),
    ("dense", .bool value.isDense), ("dtype", .text value.element.name),
    ("flags", .list [.bool (value.flags.contains .externalInput),
      .bool (value.flags.contains .externalOutput), .bool value.flags.isExternal,
      .natural value.flags.bits.toNat]),
    ("id", .natural value.id), ("producer", Json.orNull Json.natural value.producer),
    ("quant", Json.orNull Quantization.inspection value.quantization),
    ("shape", .naturals value.shape), ("static", .bool value.isStatic)]

def Node.inspection (node : Node) : Json :=
  .record [("compute", .text node.compute.name), ("flags", .natural node.flags.toNat),
    ("id", .natural node.id), ("inputs", .naturals node.inputs),
    ("kind", .text node.kind.name), ("max", patternOfSingle node.params.range.2),
    ("min", patternOfSingle node.params.range.1), ("outputs", .naturals node.outputs),
    ("text", .text node.description)]

def PackedWeights.inspection (weights : PackedWeights) : Json :=
  let (entries, bias) := match weights.data with
    | .floats entries bias => (entries.toList.map patternOfSingle, bias.toList.map patternOfSingle)
    | .codes entries bias =>
        (entries.toList.map fun code => Json.integer code.toInt, bias.toList.map inspectCode)
  .record [("bias", .list bias), ("bytes", .natural weights.byteCount),
    ("groups", .natural weights.panels), ("k", .natural weights.inner),
    ("n", .natural weights.outputs), ("nr", .natural panelWidth), ("weights", .list entries)]

/-- A recorded event. Its text is left out when it was timed. -/
def TraceEvent.inspection (event : TraceEvent) : List (String × Json) :=
  [("compute", .text event.key.compute.name),
    ("display", if event.timed then .null else .text (event.text none)),
    ("kind", .text event.phase.documentName), ("node", .natural event.node),
    ("op", .text event.key.kind.name), ("phase", .text event.phase.name),
    ("summary", .text event.summary), ("timed", .bool event.timed)]

def GraphFault.name : GraphFault → String
  | graphSealed => "GraphSealed"
  | arity _ _ _ _ => "ArityMismatch"
  | valueOutOfRange _ _ => "ValueOutOfRange"
  | notDense _ => "ValueNotDense"
  | unsupportedElement _ _ => "UnsupportedDatatype"
  | elementMismatch _ _ _ _ => "DatatypeMismatch"
  | quantizationMismatch _ _ => "QuantizationMismatch"
  | shapeMismatch _ _ => "ShapeMismatch"
  | invalidParams _ _ => "InvalidParams"
  | alreadyProduced _ _ => "OutputAlreadyProduced"
  | alreadyConsumed _ _ => "OutputAlreadyConsumed"
  | outputStatic _ => "OutputIsStatic"
  | aliasedOperand _ => "AliasedOperand"
  | dynamicWeights _ _ => "DynamicWeights"
  | invalidTensor _ => "InvalidTensor"

def EngineError.name : EngineError → String
  | validation cause => "Validation." ++ cause.name
  | invalidParameter _ => "InvalidParameter"
  | invalidState _ => "InvalidState"
  | unsupportedParameter _ => "UnsupportedParameter"
  | unsupportedHardware _ => "UnsupportedHardware"
  | outOfMemory _ => "OutOfMemory"
  | uninitialized => "Uninitialized"

def EngineError.inspection (error : EngineError) : List (String × Json) :=
  [("error", .text error.name), ("message", .text error.message),
    ("status", .text error.status.name)]

end TensorEngine
