import TensorEngine.Graph.OpKind
import TensorEngine.Tensor.ElementType

/-!
Contract: which storage types a kind of operator admits, and what it computes in.

Owns:
- the table of storage types by kind, and the pairs of a conversion;
- `ComputeType.resolve?`, the compute type for an input and an output;
- `OpKey.admitted`, every key a graph can hold.

Does not own: the check of a node's operands.
-/

namespace TensorEngine

namespace ComputeType

/-- The compute type of operators whose operands share one storage type. -/
def ofElement? : ElementType → Option ComputeType
  | .float32 => some fp32
  | .float16 => some fp16
  | .qint8 => some qs8
  | .quint8 => some qu8
  | .qint32 => none

/-- The pairs of storage types between which a conversion exists. -/
def conversions : List (ElementType × ElementType × ComputeType) :=
  [(.float32, .float16, fp32ToFp16), (.float16, .float32, fp16ToFp32),
    (.float32, .qint8, fp32ToQs8), (.float32, .quint8, fp32ToQu8),
    (.qint8, .float32, qs8ToFp32), (.quint8, .float32, qu8ToFp32)]

def conversion? (source target : ElementType) : Option ComputeType :=
  (conversions.find? fun pair => pair.1 == source && pair.2.1 == target).map (·.2.2)

/-- Whether anything converts from a storage type. -/
def convertsFrom (source : ElementType) : Bool :=
  conversions.any fun pair => pair.1 == source

end ComputeType

namespace OpKind

/-- Storage types of the output of a kind. -/
def elements : OpKind → List ElementType
  | abs | negate | maximum | minimum => [.float32, .float16]
  | fullyConnected => [.float32, .float16, .qint8]
  | _ => [.float32, .float16, .qint8, .quint8]

/-- What a node computes in, given the storage types of its first input and its output. -/
def resolve? (kind : OpKind) (input output : ElementType) : Option ComputeType :=
  if kind = convert then ComputeType.conversion? input output
  else if input = output ∧ output ∈ kind.elements then ComputeType.ofElement? output
  else none

def computeTypes (kind : OpKind) : List ComputeType :=
  if kind = convert then ComputeType.conversions.map (·.2.2)
  else kind.elements.filterMap ComputeType.ofElement?

end OpKind

namespace OpKey

/-- Every key that a node of a graph can have. -/
def admitted : List OpKey :=
  OpKind.all.flatMap fun kind => kind.computeTypes.map fun compute => ⟨kind, compute⟩

end OpKey

end TensorEngine
