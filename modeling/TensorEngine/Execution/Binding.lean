import TensorEngine.Execution.BlobTable
import TensorEngine.Execution.Executable

/-!
Contract: the binding of buffers to a compiled graph.

Owns:
- the check of one blob against the value it is bound to;
- `Executable.setup`, which checks every blob and then sets every operator up.

Does not own: runs. A failed setup leaves the executable failed.
-/

namespace TensorEngine

/-- The blob of a value must be there, writable if a node computes the value, long enough, and
aligned if it has to hold anything. A static value needs none. -/
def checkBlob (value : Value) (bound : Option Blob) : Outcome Unit :=
  if value.isStatic then .ok ()
  else
    match bound with
    | none => Outcome.invalidState (.blobMissing value.id)
    | some blob =>
        match value.producer, blob.writable with
        | some producer, false =>
            Outcome.invalidParameter (.outputBoundReadOnly value.id producer)
        | _, _ =>
            let required := value.byteCount
            if blob.buffer.size < required then
              Outcome.invalidParameter
                (.blobTooShort value.id blob.buffer.size value.shape value.element required)
            else if 0 < required ∧ blob.buffer.address % value.element.width ≠ 0 then
              Outcome.invalidParameter (.blobMisaligned value.id value.element.width)
            else .ok ()

def checkOperands (values : List Value) (blobs : BlobTable) (node : Node) : Outcome Unit :=
  (node.inputs ++ node.outputs).forM fun id =>
    match values[id]? with
    | none => Outcome.invalidState (.missingValue node.id id)
    | some value => checkBlob value (blobs.get? id)

def operandShapes (values : List Value) (node : Node) : Outcome (List Shape × Shape) := do
  let inputs ← node.inputs.mapM fun id => (·.shape) <$> operand values id
  let output ← operand values (← operand node.outputs 0)
  return (inputs, output.shape)

structure SetupReport (Op : Type) where
  steps : List (Step Op)
  trace : List TraceEvent
  notices : List Notice
  outcome : Outcome Unit

/-- The report of an error; a breach reports nothing. -/
def failureNotices (notice : EngineError → Notice) (fault : Fault) : List Notice :=
  match fault with
  | .refused cause => [notice cause]
  | _ => []

/-- Sets operators up for the current shapes, up to the first that fails. -/
def setUpSteps [Operator Op] (settings : Settings) (values : List Value) :
    List (Step Op) → List TraceEvent → SetupReport Op
  | [], trace => ⟨[], trace, [], .ok ()⟩
  | step :: rest, trace =>
      match operandShapes values step.node with
      | .error fault => ⟨step :: rest, trace, [], .error fault⟩
      | .ok (inputs, output) =>
          let (operator, outcome) := Operator.setup step.operator inputs output
          let done : Step Op := { step with operator := operator }
          match outcome with
          | .error fault =>
              ⟨done :: rest, trace, failureNotices (.operatorSetupFailed step.node) fault,
                .error fault⟩
          | .ok () =>
              let event := TraceEvent.ofNode .setup step.node settings.timer
              let later := setUpSteps settings values rest (settings.record trace event)
              { later with
                steps := done :: later.steps
                notices := .operatorSetUp step.node inputs output :: later.notices }

/-- The state after a setup. A breach leaves the state as it was. -/
def Lifecycle.afterSetup (state : Lifecycle) (outcome : Outcome Unit) : Lifecycle :=
  match outcome with
  | .ok () => .bound
  | .error (.refused _) => .failed
  | .error _ => state

namespace Executable

/-- Checks every blob, then sets every operator up. -/
def setup [Operator Op] (executable : Executable Op) (blobs : BlobTable) :
    Journaled (Executable Op × Outcome Unit) :=
  let checked :=
    (executable.steps.map (·.node)).forM (checkOperands executable.values blobs)
  let report : SetupReport Op :=
    match checked with
    | .error fault => ⟨executable.steps, executable.trace, [], .error fault⟩
    | .ok () =>
        setUpSteps executable.settings executable.values executable.steps executable.trace
  let notices :=
    match report.outcome with
    | .ok () => []
    | .error fault => failureNotices .setupFailed fault
  { notices := report.notices ++ notices
    result :=
      ({ executable with
          steps := report.steps
          trace := report.trace
          state := executable.state.afterSetup report.outcome },
        report.outcome) }

end Executable

end TensorEngine
