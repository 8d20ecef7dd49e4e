import TensorEngine.Breach
import TensorEngine.Graph.GraphFault
import TensorEngine.Tensor.RowView

/-!
Contract: every way in which an operation of the library can fail.

Owns:
- `EngineError`, the errors reported to callers, by cause;
- their texts and statuses;
- `Fault`, an error, a breach, or a key that no catalog entry was registered for.

Does not own: the checks that find a fault.
-/

namespace TensorEngine

/-- The phrase by which messages of kernels refer to a kind. -/
def OpKind.phrase : OpKind → String
  | .globalAveragePooling2d => "global average pooling"
  | .fullyConnected => "fully connected"
  | kind => kind.name

inductive ParameterFault where
  | missingInput (kind : OpKind) (index : Nat)
  | missingOutput (kind : OpKind)
  | valueOutOfRange (id : ValueId)
  | cast (cause : CastFault)
  | rowExtent (cause : RowFault)
  | shapeRule (cause : ShapeFault)
  | notUnary (kind : OpKind) (params : OpParams)
  | notBinary (kind : OpKind)
  | operandsUnquantized (kind : OpKind)
  | conversionUnquantized (operand : String)
  | productUnquantized
  | noTableDomain (element : ElementType)
  | elementCounts (kind : OpKind) (input output : Nat)
  | broadcastOutput (left right expected output : Shape)
  | needsImageBatch (shape : Shape)
  | channelsChanged (kind : OpKind) (expected found : Nat)
  | resultCount (kind : OpKind) (output : Shape) (rows columns : Nat)
  | tileSize
  | outputBoundReadOnly (id : ValueId) (producer : NodeId)
  | blobTooShort (id : ValueId) (found : Nat) (shape : Shape) (element : ElementType)
      (required : Nat)
  | blobMisaligned (id : ValueId) (alignment : Nat)
  | blobReadOnly (id : ValueId)
  | blobMissing (id : ValueId)
  | notExternalInput (id : ValueId)
  | rankChanged (id : ValueId) (rank : Nat) (shape : Shape)
  | reshapeBreaks (id : ValueId) (node : Node) (cause : ShapeFault)
deriving Repr

def ParameterFault.message : ParameterFault → String
  | missingInput kind index => s!"{kind.name} has no input {index}"
  | missingOutput kind => s!"{kind.name} has no output"
  | valueOutOfRange id => s!"value {id} out of range"
  | cast cause => s!"operand buffer cannot be viewed as elements: {cause.message}"
  | rowExtent cause => cause.message
  | shapeRule cause => cause.message
  | notUnary kind params => s!"{kind.name} with {params.text} is not a unary function"
  | notBinary kind => s!"{kind.name} is not a binary elementwise op"
  | operandsUnquantized kind => s!"{kind.phrase} operands need quantization parameters"
  | conversionUnquantized operand => s!"convert {operand} needs quantization parameters"
  | productUnquantized =>
      "quantized fully connected needs quantization on input, filter and output"
  | noTableDomain element => s!"{element.name} has no lookup-table domain"
  | elementCounts kind input output =>
      s!"{kind.name} input has {input} elements, output has {output}"
  | broadcastOutput left right expected output =>
      s!"broadcast of {left.text} and {right.text} is {expected.text}, output is {output.text}"
  | needsImageBatch shape => s!"global average pooling needs NHWC input, got {shape.text}"
  | channelsChanged kind expected found =>
      s!"{kind.phrase} input channel count changed from {expected} to {found}"
  | resultCount kind output rows columns =>
      s!"{kind.phrase} output {output.text} does not hold {rows}x{columns} results"
  | tileSize => "tile_elements must be positive"
  | outputBoundReadOnly id producer =>
      s!"value {id} is written by node {producer} but bound read-only"
  | blobTooShort id found shape element required =>
      s!"blob for value {id} holds {found} bytes, {shape.text} {element.name} needs {required}"
  | blobMisaligned id alignment => s!"blob for value {id} is not aligned to {alignment} bytes"
  | blobReadOnly id => s!"value {id} is bound read-only"
  | blobMissing id => s!"value {id} has no bound blob"
  | notExternalInput id => s!"value {id} is not an external input"
  | rankChanged id rank shape => s!"value {id} has rank {rank}, cannot reshape to {shape.text}"
  | reshapeBreaks id node cause =>
      s!"reshape of value {id} breaks {node.description}: {cause.message}"

inductive StateFault where
  | blobMissing (id : ValueId)
  | missingValue (node : NodeId) (id : ValueId)
  | failedEarlier
  | outputReadOnly (id : ValueId)
  | outputUnbound (id : ValueId)
  | inputUnbound (id : ValueId)
  | packedForCodes
  | packedForFloats
  | told (reason : String)
deriving Repr

def StateFault.message : StateFault → String
  | blobMissing id => s!"value {id} has no bound blob"
  | missingValue node id => s!"node {node} references missing value {id}"
  | failedEarlier => "runtime failed; set it up again before running"
  | outputReadOnly id => s!"output value {id} is bound read-only"
  | outputUnbound id => s!"output value {id} has no bound blob"
  | inputUnbound id => s!"input value {id} has no bound blob"
  | packedForCodes => "fully connected packed for a quantized kernel"
  | packedForFloats => "fully connected packed for a float kernel"
  | told reason => reason

inductive SupportFault where
  | cannotCompute (kind : OpKind) (compute : ComputeType)
  | noCodeKernel (kind : OpKind)
  | noStaticData (id : ValueId)
  | cannotPack (compute : ComputeType)
  | told (reason : String)
deriving Repr

def SupportFault.message : SupportFault → String
  | cannotCompute kind compute => s!"{kind.phrase} cannot compute in {compute.name}"
  | noCodeKernel kind => s!"{kind.name} has no quantized kernel"
  | noStaticData id => s!"value {id} has no static data"
  | cannotPack compute => s!"fully connected cannot pack for {compute.name}"
  | told reason => reason

inductive MemoryFault where
  | capacityExceeded
  | refused
  | told (reason : String)
deriving Repr

def MemoryFault.message : MemoryFault → String
  | capacityExceeded =>
      "memory allocation failed because the computed capacity exceeded the collection's maximum"
  | refused => "memory allocation failed because the memory allocator returned an error"
  | told reason => reason

/-- An error reported to the caller. -/
inductive EngineError where
  | validation (cause : GraphFault)
  | invalidParameter (cause : ParameterFault)
  | invalidState (cause : StateFault)
  | unsupportedParameter (cause : SupportFault)
  | unsupportedHardware (key : OpKey)
  | outOfMemory (cause : MemoryFault)
  | uninitialized
deriving Repr

namespace EngineError

def message : EngineError → String
  | validation cause => s!"validation failed: {cause.message}"
  | invalidParameter cause => s!"invalid parameter: {cause.message}"
  | invalidState cause => s!"invalid state: {cause.message}"
  | unsupportedParameter cause => s!"unsupported parameter: {cause.message}"
  | unsupportedHardware key =>
      s!"no kernel for {key.kind.name} ({key.compute.name}) on this hardware"
  | outOfMemory cause => s!"out of memory: {cause.message}"
  | uninitialized =>
      "capability catalog is not initialized; call openxnn::initialize() first"

def status : EngineError → Status
  | validation cause => cause.status
  | invalidParameter _ => .invalidParameter
  | invalidState _ => .invalidState
  | unsupportedParameter _ => .unsupportedParameter
  | unsupportedHardware _ => .unsupportedHardware
  | outOfMemory _ => .outOfMemory
  | uninitialized => .uninitialized

end EngineError

/-- Why an operation has no result: an error for the caller, a broken internal contract, or a
catalog without any entry for a key that a graph holds. -/
inductive Fault where
  | refused (error : EngineError)
  | breached (breach : Breach)
  | unregistered (key : OpKey)
deriving Repr

/-- The text for a key that a graph holds and a catalog has no entry for. -/
def OpKey.gapMessage (key : OpKey) : String :=
  s!"capability catalog has no entry for {key.text}"

abbrev Outcome := Except Fault

namespace Outcome

def ofChecked (computation : Checked α) : Outcome α :=
  computation.mapError .breached

def ofParameter (cause : ε → ParameterFault) (computation : Except ε α) : Outcome α :=
  computation.mapError fun error => .refused (.invalidParameter (cause error))

def view (α : Type) [Storage α] (buffer : Buffer) : Outcome (Array α) :=
  ofParameter .cast (buffer.view α)

def invalidParameter (cause : ParameterFault) : Outcome α :=
  .error (.refused (.invalidParameter cause))

def invalidState (cause : StateFault) : Outcome α :=
  .error (.refused (.invalidState cause))

def unsupported (cause : SupportFault) : Outcome α :=
  .error (.refused (.unsupportedParameter cause))

end Outcome

instance : MonadLift Checked Outcome := ⟨Outcome.ofChecked⟩

end TensorEngine
