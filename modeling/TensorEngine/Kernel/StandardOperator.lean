import TensorEngine.Kernel.Combination
import TensorEngine.Kernel.Conversion
import TensorEngine.Kernel.Mapping
import TensorEngine.Kernel.Pooling
import TensorEngine.Kernel.Product

/-!
Contract: the operators of the library as one type.

Owns: `StandardOperator` and the factory for each key of a graph.

Does not own: which factory a catalog prefers.
-/

namespace TensorEngine

inductive StandardOperator where
  | mapping (operator : Mapping)
  | conversion (operator : Conversion)
  | combination (operator : Combination)
  | pooling (operator : Pooling)
  | product (operator : Product)
deriving Repr

namespace StandardOperator

def kind : StandardOperator → OpKind
  | mapping operator => Operator.kind operator
  | conversion operator => Operator.kind operator
  | combination operator => Operator.kind operator
  | pooling operator => Operator.kind operator
  | product operator => Operator.kind operator

def packed? : StandardOperator → Option PackedArtifact
  | product operator => Operator.packed? operator
  | _ => none

def setup (operator : StandardOperator) (inputs : List Shape) (output : Shape) :
    StandardOperator × Outcome Unit :=
  match operator with
  | mapping operator => (operator.setup inputs output).map mapping id
  | conversion operator => (operator.setup inputs output).map conversion id
  | combination operator => (operator.setup inputs output).map combination id
  | pooling operator => (operator.setup inputs output).map pooling id
  | product operator => (operator.setup inputs output).map product id

def contents (operator : StandardOperator) (schedule : Schedule) (inputs : List Buffer)
    (output : Buffer) : Outcome Bytes :=
  match operator with
  | mapping operator => operator.contents schedule inputs output
  | conversion operator => operator.contents schedule inputs output
  | combination operator => operator.contents schedule inputs output
  | pooling operator => operator.contents schedule inputs output
  | product operator => operator.contents schedule inputs output

instance : Operator StandardOperator where
  kind := kind
  packed? := packed?
  setup := setup
  run operator schedule inputs output :=
    RunEnd.ofOutcome output (operator.contents schedule inputs output)
  run_size _ _ _ _ := RunEnd.ofOutcome_size _ _

def portableFactory (key : OpKey) : Factory StandardOperator :=
  if key.kind = .convert then (Conversion.factory key.compute).map conversion
  else if key.kind = .globalAveragePooling2d then (Pooling.factory key.compute).map pooling
  else if key.kind = .fullyConnected then (Product.factory key.compute).map product
  else if key.kind.isBinary then (Combination.factory key.compute 1).map combination
  else (Mapping.factory key.compute 1).map mapping

/-- The factory of a key that works in blocks of lanes: single precision kernels element by
element, conversions excepted. -/
def laneFactory? (key : OpKey) (lanes : Nat) : Option (Factory StandardOperator) :=
  if key.compute ≠ .fp32 then none
  else if key.kind.isBinary then some ((Combination.factory key.compute lanes).map combination)
  else if key.kind.isUnary ∧ key.kind ≠ .convert then
    some ((Mapping.factory key.compute lanes).map mapping)
  else none

end StandardOperator

end TensorEngine
