import TensorEngine.Cache.Workshop
import TensorEngine.Kernel.Tiling

/-!
Contract: what every operator and every factory of operators can do.

Owns:
- `Operator`, the class of operator types: set up for shapes, run on buffers;
- `CreateContext` and `Factory`, by which operators are made for a node.

Does not own: any particular kernel. An operator can change its output only, and never its size.
-/

namespace TensorEngine

/-- The contents of an output after a run, and whether the run succeeded. -/
structure RunEnd where
  written : Bytes
  outcome : Outcome Unit

/-- Operators of one type.

`setup` binds an operator to shapes and gives its state also when it fails. `run` works on the
inputs in the order of the node and on an output, which may be written before a failure. -/
class Operator (Op : Type) where
  kind : Op → OpKind
  packed? : Op → Option PackedArtifact
  setup : Op → List Shape → Shape → Op × Outcome Unit
  run : Op → Schedule → List Buffer → Buffer → RunEnd
  run_size : ∀ operator schedule inputs output,
    (run operator schedule inputs output).written.size = output.bytes.size

/-- The end of a run that gives new contents for the front of its output, or fails before it
writes. -/
def RunEnd.ofOutcome (output : Buffer) (contents : Outcome Bytes) : RunEnd :=
  match contents with
  | .ok bytes => ⟨overlay output.bytes bytes, .ok ()⟩
  | .error fault => ⟨output.bytes, .error fault⟩

theorem RunEnd.ofOutcome_size (output : Buffer) (contents : Outcome Bytes) :
    (RunEnd.ofOutcome output contents).written.size = output.bytes.size := by
  cases contents with
  | ok bytes => exact overlay_size _ _
  | error fault => rfl

/-- Operators of either of two types. -/
instance [Operator Left] [Operator Right] : Operator (Left ⊕ Right) where
  kind
    | .inl operator => Operator.kind operator
    | .inr operator => Operator.kind operator
  packed?
    | .inl operator => Operator.packed? operator
    | .inr operator => Operator.packed? operator
  setup
    | .inl operator, inputs, output =>
        let (operator, outcome) := Operator.setup operator inputs output
        (.inl operator, outcome)
    | .inr operator, inputs, output =>
        let (operator, outcome) := Operator.setup operator inputs output
        (.inr operator, outcome)
  run
    | .inl operator => Operator.run operator
    | .inr operator => Operator.run operator
  run_size operator schedule inputs output := by
    cases operator <;> exact Operator.run_size _ _ _ _

structure CreateContext where
  node : Node
  values : List Value
  features : Features
  tileElements : Nat

namespace CreateContext

def value (context : CreateContext) (id : ValueId) : Outcome Value :=
  match context.values[id]? with
  | some value => .ok value
  | none => Outcome.invalidParameter (.valueOutOfRange id)

def input (context : CreateContext) (index : Nat) : Outcome Value :=
  match context.node.inputs[index]? with
  | some id => context.value id
  | none => Outcome.invalidParameter (.missingInput context.node.kind index)

def output (context : CreateContext) : Outcome Value :=
  match context.node.outputs.head? with
  | some id => context.value id
  | none => Outcome.invalidParameter (.missingOutput context.node.kind)

end CreateContext

structure Factory (Op : Type) where
  name : String
  create : CreateContext → Making Op

namespace Factory

/-- The same factory, its operators seen as operators of another type. -/
def map (embed : Left → Right) (factory : Factory Left) : Factory Right where
  name := factory.name
  create context := embed <$> factory.create context

end Factory

/-- An operand of a run or a shape of a set-up, which must be there. -/
def operand (operands : List α) (index : Nat) : Outcome α :=
  match operands[index]? with
  | some element => .ok element
  | none => .error (.breached .outOfRange)

def inputElements (α : Type) [Storage α] (inputs : List Buffer) (index count : Nat) :
    Outcome (Array α) := do
  let elements ← Outcome.view α (← operand inputs index)
  front elements count

end TensorEngine
