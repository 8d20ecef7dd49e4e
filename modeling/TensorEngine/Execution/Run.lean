import TensorEngine.Execution.Binding

/-!
Contract: runs of a compiled graph over bound buffers.

Owns:
- `Bound`, an executable with the blobs it was set up for;
- `runStep`, which lends one operator its inputs and its output;
- `Bound.run`, every operator once, in order;
- access to the elements of blobs between runs.

Does not own: what operators compute.
-/

namespace TensorEngine

/-- A compiled graph with the blobs that it was set up for. -/
structure Bound (Op : Type) where
  executable : Executable Op
  blobs : BlobTable

/-- The bytes of an input: those of the graph, or those of its blob. -/
def inputBuffer (values : List Value) (blobs : BlobTable) (id : ValueId) : Outcome Buffer := do
  let value ← operand values id
  let buffer ← match value.contents, blobs.get? id with
    | some bytes, _ => pure (Buffer.fresh bytes)
    | none, some blob => pure blob.buffer
    | none, none => Outcome.invalidState (.inputUnbound id)
  buffer.front value.byteCount

/-- The buffers of a node while its output is lent: those of the inputs, and the part of the
output that its value takes. -/
def lend (values : List Value) (blobs : BlobTable) (node : Node) (output : ValueId)
    (buffer : Buffer) : Outcome (List Buffer × Buffer) := do
  let value ← operand values output
  let inputs ← node.inputs.mapM (inputBuffer values blobs)
  let room ← buffer.front value.byteCount
  return (inputs, room)

/-- The bytes of an output after its operator has run, with the outcome of the run. -/
def operate [Operator Op] (values : List Value) (blobs : BlobTable) (schedule : Schedule)
    (step : Step Op) (output : ValueId) (buffer : Buffer) : Bytes × Outcome Unit :=
  match lend values blobs step.node output buffer with
  | .error fault => (buffer.bytes, .error fault)
  | .ok (inputs, room) =>
      let done := Operator.run step.operator schedule inputs room
      (overlay buffer.bytes done.written, done.outcome)

/-- Runs one operator. Its output blob is out of the table meanwhile, and stays out if the run
breaks an internal contract. -/
def runStep [Operator Op] (values : List Value) (schedule : Schedule) (step : Step Op)
    (blobs : BlobTable) : BlobTable × Outcome Unit :=
  match step.node.outputs.head? with
  | none => (blobs, .error (.breached .outOfRange))
  | some output =>
      match blobs.get? output with
      | none => (blobs, Outcome.invalidState (.outputUnbound output))
      | some blob =>
          if !blob.writable then (blobs, Outcome.invalidState (.outputReadOnly output))
          else
            let others := blobs.erase output
            let (bytes, outcome) := operate values others schedule step output blob.buffer
            let kept : Blob := { blob with buffer := { blob.buffer with bytes := bytes } }
            match outcome with
            | .error (.breached breach) => (others, .error (.breached breach))
            | outcome => (others.insert output kept, outcome)

structure RunReport where
  blobs : BlobTable
  trace : List TraceEvent
  notices : List Notice
  outcome : Outcome Unit

/-- Runs operators in order, up to the first that fails. -/
def runSteps [Operator Op] (settings : Settings) (values : List Value) (schedule : Schedule) :
    List (Step Op) → BlobTable → List TraceEvent → RunReport
  | [], blobs, trace => ⟨blobs, trace, [], .ok ()⟩
  | step :: rest, blobs, trace =>
      match runStep values schedule step blobs with
      | (blobs, .error fault) =>
          ⟨blobs, trace, failureNotices (.operatorRunFailed step.node) fault, .error fault⟩
      | (blobs, .ok ()) =>
          let event := TraceEvent.ofNode .execute step.node true
          let later := runSteps settings values schedule rest blobs (settings.record trace event)
          let notices :=
            if settings.timer || settings.trace then [Notice.operatorRan step.node] else []
          { later with notices := notices ++ later.notices }

/-- The state after a run. A breach leaves it running. -/
def Lifecycle.afterRun (outcome : Outcome Unit) : Lifecycle :=
  match outcome with
  | .ok () => .bound
  | .error (.refused _) => .failed
  | .error _ => .running

namespace Bound

/-- Runs every operator once, in order. After a failure nothing runs before the next setup. -/
def run [Operator Op] (binding : Bound Op) (schedule : Schedule) :
    Journaled (Bound Op × Outcome Unit) :=
  let executable := binding.executable
  if executable.state = .failed then
    { notices := [], result := (binding, Outcome.invalidState .failedEarlier) }
  else
    let report := runSteps executable.settings executable.values schedule executable.steps
      binding.blobs executable.trace
    { notices := report.notices
      result :=
        (⟨{ executable with
              trace := report.trace
              state := Lifecycle.afterRun report.outcome }, report.blobs⟩,
          report.outcome) }

/-- The elements of a bound blob, also past the end of its value. -/
def elements (α : Type) [Storage α] (binding : Bound Op) (id : ValueId) : Outcome (Array α) :=
  match binding.blobs.get? id with
  | none => Outcome.invalidParameter (.blobMissing id)
  | some blob => Outcome.view α blob.buffer

/-- Replaces the front of a writable blob that holds elements, as far as both reach, and gives the
number of replaced bytes. -/
def overwrite (α : Type) [Storage α] (binding : Bound Op) (id : ValueId) (written : Bytes) :
    Outcome (Bound Op × Nat) :=
  match binding.blobs.get? id with
  | none => Outcome.invalidParameter (.blobMissing id)
  | some blob =>
      if !blob.writable then Outcome.invalidParameter (.blobReadOnly id)
      else do
        let _ ← Outcome.view α blob.buffer
        let bytes := overlay blob.buffer.bytes written
        let changed : Blob := { blob with buffer := { blob.buffer with bytes := bytes } }
        return ({ binding with blobs := binding.blobs.insert id changed },
          min blob.buffer.size written.size)

end Bound

end TensorEngine
