/-!
Contract: the operator kinds of a graph, how many operands they take, and the datatypes nodes
compute in.

Owns: `OpKind`, `InputArity`, `ComputeType` and `OpKey`, with their names.

Does not own: which storage types a kind admits.
-/

namespace TensorEngine

inductive OpKind where
  | abs
  | negate
  | clamp
  | sigmoid
  | tanh
  | leakyRelu
  | copy
  | convert
  | add
  | subtract
  | multiply
  | maximum
  | minimum
  | globalAveragePooling2d
  | fullyConnected
deriving DecidableEq, Repr, Inhabited

inductive InputArity where
  | exactly (count : Nat)
  | between (least greatest : Nat)
deriving DecidableEq, Repr

namespace InputArity

def allows : InputArity → Nat → Bool
  | exactly count, found => found == count
  | between least greatest, found => decide (least ≤ found ∧ found ≤ greatest)

def text : InputArity → String
  | exactly count => toString count
  | between least greatest => s!"{least}..={greatest}"

def isExact : InputArity → Bool
  | exactly _ => true
  | between _ _ => false

end InputArity

namespace OpKind

/-- Every kind, in the order in which catalogs are filled. -/
def all : List OpKind :=
  [abs, negate, clamp, sigmoid, tanh, leakyRelu, copy, convert, add, subtract, multiply, maximum,
    minimum, globalAveragePooling2d, fullyConnected]

def name : OpKind → String
  | abs => "abs"
  | negate => "negate"
  | clamp => "clamp"
  | sigmoid => "sigmoid"
  | tanh => "tanh"
  | leakyRelu => "leaky_relu"
  | copy => "copy"
  | convert => "convert"
  | add => "add"
  | subtract => "subtract"
  | multiply => "multiply"
  | maximum => "maximum"
  | minimum => "minimum"
  | globalAveragePooling2d => "global_average_pooling_2d"
  | fullyConnected => "fully_connected"

def ofName? (text : String) : Option OpKind :=
  all.find? fun kind => kind.name == text

def inputArity : OpKind → InputArity
  | add | subtract | multiply | maximum | minimum => .exactly 2
  | fullyConnected => .between 2 3
  | _ => .exactly 1

/-- Every kind has one output. -/
def outputCount (_ : OpKind) : Nat := 1

def isUnary : OpKind → Bool
  | abs | negate | clamp | sigmoid | tanh | leakyRelu | copy | convert => true
  | _ => false

def isBinary : OpKind → Bool
  | add | subtract | multiply | maximum | minimum => true
  | _ => false

theorem mem_all (kind : OpKind) : kind ∈ all := by
  cases kind <;> decide

end OpKind

/-- The datatype a node computes in. A conversion computes in a pair of datatypes. -/
inductive ComputeType where
  | fp32
  | fp16
  | qs8
  | qu8
  | fp32ToFp16
  | fp16ToFp32
  | fp32ToQs8
  | fp32ToQu8
  | qs8ToFp32
  | qu8ToFp32
deriving DecidableEq, Repr, Inhabited

namespace ComputeType

def all : List ComputeType :=
  [fp32, fp16, qs8, qu8, fp32ToFp16, fp16ToFp32, fp32ToQs8, fp32ToQu8, qs8ToFp32, qu8ToFp32]

def name : ComputeType → String
  | fp32 => "fp32"
  | fp16 => "fp16"
  | qs8 => "qs8"
  | qu8 => "qu8"
  | fp32ToFp16 => "fp32_to_fp16"
  | fp16ToFp32 => "fp16_to_fp32"
  | fp32ToQs8 => "fp32_to_qs8"
  | fp32ToQu8 => "fp32_to_qu8"
  | qs8ToFp32 => "qs8_to_fp32"
  | qu8ToFp32 => "qu8_to_fp32"

def ofName? (text : String) : Option ComputeType :=
  all.find? fun compute => compute.name == text

end ComputeType

/-- What a node computes and in which datatype: the key of a catalog. -/
structure OpKey where
  kind : OpKind
  compute : ComputeType
deriving DecidableEq, Repr, Inhabited

namespace OpKey

def text (key : OpKey) : String := s!"{key.kind.name}/{key.compute.name}"

end OpKey

end TensorEngine
