import TensorEngine.Cache.Workshop
import TensorEngine.Numeric.Binary32

/-!
Contract: the real functions of nodes with one input, and their tables over codes.

Owns:
- `UnaryFunction`, chosen by the kind and the parameters of a node;
- `UnaryFunction.tabulate`, its lookup table between two quantizations;
- the cache key of a table.

Does not own: the operators that apply a function or a table.
-/

namespace TensorEngine

open TensorEngine.Numeric

inductive UnaryFunction where
  | abs
  | negate
  | clamp (low high : Float32)
  | sigmoid
  | tanh
  | leakyRelu (slope : Float32)
  | copy
deriving Repr

namespace UnaryFunction

def ofNode (kind : OpKind) (params : OpParams) : Outcome UnaryFunction :=
  match kind, params with
  | .abs, _ => .ok abs
  | .negate, _ => .ok negate
  | .clamp, _ => .ok (clamp params.range.1 params.range.2)
  | .sigmoid, _ => .ok sigmoid
  | .tanh, _ => .ok tanh
  | .leakyRelu, .negativeSlope slope => .ok (leakyRelu slope)
  | .copy, _ => .ok copy
  | _, _ => Outcome.invalidParameter (.notUnary kind params)

def apply (function : UnaryFunction) (x : Float32) : Float32 :=
  match function with
  | abs => x.abs
  | negate => -x
  | clamp low high => Binary32.bounded low high x
  | sigmoid => Binary32.one / (Binary32.one + (-x).exp)
  | tanh => x.tanh
  | leakyRelu slope => if x < Binary32.zero then x * slope else x
  | copy => x

/-- The parameters of a function as one word of a key. A clamp is never tabulated. -/
def paramWord : UnaryFunction → UInt32
  | leakyRelu slope => slope.toBits
  | _ => 0

/-- The integer that a byte denotes as a code of a storage type. -/
def codeOfByte (element : ElementType) (byte : UInt8) : Int32 :=
  if element = .qint8 then byte.toInt8.toInt32 else Int32.ofNat byte.toNat

def tableEntry (function : UnaryFunction) (element : ElementType) (input output : Quantization)
    (low high : Int32) (byte : UInt8) : Checked UInt8 := do
  let result := function.apply (← input.dequantize (codeOfByte element byte))
  let code ← output.quantize result low high
  return code.toUInt32.toUInt8

/-- The table of a function over every code of a storage type. -/
def tabulate (function : UnaryFunction) (element : ElementType) (input output : Quantization) :
    Outcome LookupTable :=
  match element.codeRange? with
  | none => Outcome.invalidParameter (.noTableDomain element)
  | some (low, high) =>
      Outcome.ofChecked <| Vector.ofFnM fun byte : Fin 256 =>
        function.tableEntry element input output low high (UInt8.ofNat byte.val)

/-- What identifies the table of a function. -/
def tableKey (function : UnaryFunction) (key : OpKey) (input output : Quantization)
    (features : Features) : TableKey where
  kind := key.kind
  compute := key.compute
  params := input.words ++ output.words ++ [function.paramWord]
  features := features

end UnaryFunction

end TensorEngine
