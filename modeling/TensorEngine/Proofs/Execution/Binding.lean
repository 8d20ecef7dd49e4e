import Mathlib
import TensorEngine.Proofs.Execution.Session
import TensorEngine.Proofs.Execution.SharedCompilation
import TensorEngine.Proofs.Kernel.Setup

/-!
Contract: a set-up accepts exactly the correct bindings.

Owns:
- `Value.FitsIn`, a blob that a value can be bound to, and when the check of a blob passes;
- `Step.setUpOutcome`, the outcome of the set-up of one operator, and the theorem that a series of
  set-ups ends with the first fault;
- `CompileJob.Made`, what a compilation after others has made;
- the theorem on the set-up of a compiled graph after any calls.

Does not own: runs.
-/

namespace TensorEngine

open TensorEngine.Numeric

/-- A check that decides a property passes exactly when the property holds. -/
theorem Outcome.eq_ok_iff {outcome : Outcome Unit} {holds : Prop} {fails : Fault → Prop}
    (decides : match outcome with
      | .ok () => holds
      | .error fault => ¬ holds ∧ fails fault) : outcome = .ok () ↔ holds := by
  cases outcome with
  | ok passed => exact ⟨fun _ => decides, fun _ => rfl⟩
  | error fault => exact ⟨fun passed => (nomatch passed), fun given => absurd given decides.1⟩

/-! ## Blobs -/

/-- A blob that a value can be bound to: it can be written if a node computes the value, it has
room for the current shape, and it is aligned if there is anything to hold. -/
structure Value.FitsIn (value : Value) (blob : Blob) : Prop where
  writable : value.producer.isSome = true → blob.writable = true
  room : value.shape.elementCount * value.element.width ≤ blob.buffer.size
  aligned : 0 < value.shape.elementCount * value.element.width →
    blob.buffer.address % value.element.width = 0

/-- A value is part of the graph, or bound to a blob that it fits in. -/
def Value.BoundTo (value : Value) (bound : Option Blob) : Prop :=
  value.isStatic = true ∨ ∃ blob, bound = some blob ∧ value.FitsIn blob

instance (value : Value) (blob : Blob) : Decidable (value.FitsIn blob) :=
  decidable_of_iff
    ((value.producer.isSome = true → blob.writable = true) ∧
      value.shape.elementCount * value.element.width ≤ blob.buffer.size ∧
      (0 < value.shape.elementCount * value.element.width →
        blob.buffer.address % value.element.width = 0))
    ⟨fun ⟨writable, room, aligned⟩ => ⟨writable, room, aligned⟩,
      fun fits => ⟨fits.writable, fits.room, fits.aligned⟩⟩

instance (value : Value) (bound : Option Blob) : Decidable (value.BoundTo bound) :=
  decidable_of_iff (value.isStatic = true ∨ ∃ blob ∈ bound, value.FitsIn blob) Iff.rfl

/-- The check of a blob passes exactly for the blobs that a value fits in. A missing blob is an
invalid state, any other fault an invalid parameter. -/
theorem checkBlob_outcome (value : Value) (bound : Option Blob) :
    match checkBlob value bound with
    | .ok () => value.BoundTo bound
    | .error fault => ¬ value.BoundTo bound ∧ ∃ cause, fault = .refused cause ∧
        cause.status = if bound.isNone then .invalidState else .invalidParameter := by
  unfold checkBlob
  by_cases static : value.isStatic = true
  · rw [if_pos static]
    exact .inl static
  rw [if_neg static]
  have dynamic : value.BoundTo bound ↔ ∃ blob, bound = some blob ∧ value.FitsIn blob :=
    or_iff_right static
  rw [dynamic]
  cases bound with
  | none => exact ⟨by simp, _, rfl, rfl⟩
  | some blob =>
      have fits : (∃ other, some blob = some other ∧ value.FitsIn other) ↔ value.FitsIn blob := by
        simp
      rw [fits]
      have checked : ∀ writes : value.producer.isSome = true → blob.writable = true,
          match (if blob.buffer.size < value.byteCount then
              Outcome.invalidParameter (.blobTooShort value.id blob.buffer.size value.shape
                value.element value.byteCount)
            else if 0 < value.byteCount ∧ blob.buffer.address % value.element.width ≠ 0 then
              Outcome.invalidParameter (.blobMisaligned value.id value.element.width)
            else .ok () : Outcome Unit) with
          | .ok () => value.FitsIn blob
          | .error fault => ¬ value.FitsIn blob ∧ ∃ cause, fault = .refused cause ∧
              cause.status = if (some blob).isNone then .invalidState else .invalidParameter := by
        intro writes
        by_cases short : blob.buffer.size < value.byteCount
        · rw [if_pos short]
          exact ⟨fun fit => Nat.not_le_of_lt short fit.room, _, rfl, rfl⟩
        rw [if_neg short]
        by_cases skewed : 0 < value.byteCount ∧ blob.buffer.address % value.element.width ≠ 0
        · rw [if_pos skewed]
          exact ⟨fun fit => skewed.2 (fit.aligned skewed.1), _, rfl, rfl⟩
        · rw [if_neg skewed]
          exact ⟨writes, Nat.le_of_not_lt short, fun filled =>
            not_not.mp fun misaligned => skewed ⟨filled, misaligned⟩⟩
      dsimp only
      cases computed : value.producer with
      | none => exact checked (by simp [computed])
      | some producer =>
          cases write : blob.writable with
          | true => exact checked fun _ => write
          | false =>
              refine ⟨fun fit => ?_, _, rfl, rfl⟩
              have writable := fit.writable (by rw [computed]; rfl)
              rw [write] at writable
              cases writable

def checkBound (values : List Value) (blobs : BlobTable) (id : ValueId) : Outcome Unit :=
  values[id]?.elim (.ok ()) fun value => checkBlob value (blobs.get? id)

theorem checkOperands_eq {values : List Value} {blobs : BlobTable} {node : Node}
    (found : ∀ id ∈ node.inputs ++ node.outputs, ∃ value, values[id]? = some value) :
    checkOperands values blobs node =
      (node.inputs ++ node.outputs).forM (checkBound values blobs) := by
  unfold checkOperands checkBound
  apply forM_congr
  intro id used
  obtain ⟨value, found⟩ := found id used
  rw [found]
  rfl

/-! ## Operators -/

theorem Node.Admitted.operandShapes_eq {values operands : List Value} {node : Node}
    {output : Value} (admitted : node.Admitted values operands output) :
    operandShapes values node = .ok (operands.map (·.shape), output.shape) := by
  have inputs : (node.inputs.mapM fun id => (·.shape) <$> operand values id) =
      (.ok (operands.map (·.shape)) : Outcome (List Shape)) := by
    rw [mapM_eq_ok_iff, List.forall₂_map_right_iff]
    apply admitted.found.imp
    intro id value found
    rw [operand_eq_ok_iff.mpr found]
    rfl
  obtain ⟨id, outputs, found⟩ := admitted.written
  unfold operandShapes
  rw [inputs, outputs]
  show (operand values id >>= fun output => pure (operands.map (·.shape), output.shape) :
    Outcome (List Shape × Shape)) = _
  rw [operand_eq_ok_iff.mpr found]
  rfl

def Step.setUpOutcome {Op : Type} [Operator Op] (values : List Value) (step : Step Op) :
    Outcome Unit := do
  let (inputs, output) ← operandShapes values step.node
  (Operator.setup step.operator inputs output).2

/-- A series of set-ups ends with the first fault. -/
theorem setUpSteps_outcome {Op : Type} [Operator Op] (settings : Settings) (values : List Value)
    (steps : List (Step Op)) (trace : List TraceEvent) :
    (setUpSteps settings values steps trace).outcome =
      steps.forM (Step.setUpOutcome values) := by
  induction steps generalizing trace with
  | nil => rfl
  | cons step steps inductionHypothesis =>
      rw [forM_cons]
      unfold setUpSteps Step.setUpOutcome
      cases operandShapes values step.node with
      | error fault => rfl
      | ok shapes =>
          dsimp only
          show _ = (Operator.setup step.operator shapes.1 shapes.2).2 >>= fun _ => _
          cases Operator.setup step.operator shapes.1 shapes.2 with
          | mk operator outcome =>
              cases outcome with
              | error fault => rfl
              | ok done => exact inductionHypothesis _

namespace Executable

/-- The operands of all nodes, node by node, inputs before outputs. -/
def operandIds {Op : Type} (executable : Executable Op) : List ValueId :=
  (executable.steps.map (·.node)).flatMap fun node => node.inputs ++ node.outputs

/-- A value is part of the graph, or bound to a blob that its current shape fits in. -/
def Binds {Op : Type} (executable : Executable Op) (blobs : BlobTable) (id : ValueId) : Prop :=
  ∃ value, executable.values[id]? = some value ∧ value.BoundTo (blobs.get? id)

instance {Op : Type} (executable : Executable Op) (blobs : BlobTable) (id : ValueId) :
    Decidable (executable.Binds blobs id) :=
  decidable_of_iff (∃ value ∈ executable.values[id]?, value.BoundTo (blobs.get? id)) Iff.rfl

/-- Every operand of every node has a correct blob, or needs none. -/
def BindsAll {Op : Type} (executable : Executable Op) (blobs : BlobTable) : Prop :=
  ∀ id ∈ executable.operandIds, executable.Binds blobs id

instance {Op : Type} (executable : Executable Op) (blobs : BlobTable) :
    Decidable (executable.BindsAll blobs) :=
  inferInstanceAs (Decidable (∀ id ∈ executable.operandIds, executable.Binds blobs id))

/-- Every pooling has as many input channels as the table of values at its creation says. -/
def KeepsChannels {Op : Type} (executable : Executable Op) (olds : List Value) : Prop :=
  ∀ step ∈ executable.steps, step.node.KeepsChannels olds executable.values

instance {Op : Type} (executable : Executable Op) (olds : List Value) :
    Decidable (executable.KeepsChannels olds) :=
  inferInstanceAs
    (Decidable (∀ step ∈ executable.steps, step.node.KeepsChannels olds executable.values))

/-- The status of the first check of a set-up that does not pass: that of the first operand without
a correct blob, or that of a pooling with other channels, if all blobs are correct. -/
inductive FirstFault {Op : Type} (executable : Executable Op) (blobs : BlobTable)
    (olds : List Value) : Status → Prop where
  | blob (before : List ValueId) (id : ValueId) (after : List ValueId)
      (split : executable.operandIds = before ++ id :: after)
      (passed : ∀ other ∈ before, executable.Binds blobs other)
      (failed : ¬ executable.Binds blobs id) :
      FirstFault executable blobs olds
        (if (blobs.get? id).isNone then .invalidState else .invalidParameter)
  | channels (passed : executable.BindsAll blobs) (failed : ¬ executable.KeepsChannels olds) :
      FirstFault executable blobs olds .invalidParameter

/-- The blobs of all operands are checked node by node. -/
theorem forM_checkOperands {Op : Type} {executable : Executable Op} {blobs : BlobTable}
    (found : ∀ id ∈ executable.operandIds, ∃ value, executable.values[id]? = some value) :
    (executable.steps.map (·.node)).forM (checkOperands executable.values blobs) =
      executable.operandIds.forM (checkBound executable.values blobs) := by
  unfold operandIds
  rw [forM_flatMap]
  apply forM_congr
  intro node listed
  exact checkOperands_eq fun id used => found id (List.mem_flatMap.mpr ⟨node, listed, used⟩)

/-- A set-up checks the blobs of all operands before it sets up any operator. -/
theorem setup_outcome {Op : Type} [Operator Op] (executable : Executable Op) (blobs : BlobTable)
    (found : ∀ id ∈ executable.operandIds, ∃ value, executable.values[id]? = some value) :
    (executable.setup blobs).result.2 =
      (executable.operandIds.forM (checkBound executable.values blobs) >>= fun _ =>
        executable.steps.forM (Step.setUpOutcome executable.values)) := by
  unfold setup
  rw [forM_checkOperands found]
  dsimp only
  cases executable.operandIds.forM (checkBound executable.values blobs) with
  | error fault => rfl
  | ok passed => exact setUpSteps_outcome _ _ _ _

end Executable

namespace Executable.Executes

variable {Op : Type} {executable : Executable Op} {graph : Graph}
  (executes : executable.Executes graph) (wellFormed : graph.WellFormed)

include executes wellFormed

theorem operands_found :
    ∀ id ∈ executable.operandIds, ∃ value, executable.values[id]? = some value := by
  intro id used
  unfold operandIds at used
  rw [executes.nodes_eq] at used
  obtain ⟨node, listed, operand⟩ := List.mem_flatMap.mp used
  obtain ⟨index, inside, foundNode⟩ := List.getElem_of_mem listed
  obtain ⟨old, found, _⟩ :=
    wellFormed.operand (List.getElem?_eq_some_iff.mpr ⟨inside, foundNode⟩) id operand
  obtain ⟨value, foundValue, _⟩ := executes.table.exists_new found
  exact ⟨value, foundValue⟩

theorem checkBound_outcome (blobs : BlobTable) {id : Nat} (used : id ∈ executable.operandIds) :
    match checkBound executable.values blobs id with
    | .ok () => executable.Binds blobs id
    | .error fault => ¬ executable.Binds blobs id ∧ ∃ cause, fault = .refused cause ∧
        cause.status = if (blobs.get? id).isNone then .invalidState else .invalidParameter := by
  obtain ⟨value, found⟩ := executes.operands_found wellFormed id used
  have binds : executable.Binds blobs id ↔ value.BoundTo (blobs.get? id) := by
    unfold Binds
    rw [found]
    simp
  unfold checkBound
  rw [binds, found]
  exact checkBlob_outcome value (blobs.get? id)

/-- The blobs of all operands pass exactly when each of them is correct. -/
theorem checks_iff (blobs : BlobTable) :
    executable.operandIds.forM (checkBound executable.values blobs) = .ok () ↔
      executable.BindsAll blobs :=
  forM_eq_ok_iff.trans (forall₂_congr fun _ used =>
    Outcome.eq_ok_iff (executes.checkBound_outcome wellFormed blobs used))

end Executable.Executes

/-! ## Compiled graphs after any calls -/

/-- What a compilation has made, after others that shared its cache of packed weights. -/
structure CompileJob.Made (job : CompileJob) (executable : Executable StandardOperator) :
    Prop where
  compiled : Compiled job.graph job.settings executable
  serves : ∀ step ∈ executable.steps, step.operator.Serves step.node.kind
  holds : ∀ step ∈ executable.steps, step.operator.HoldsWeightsOf step.node job.graph.values

/-- A series of compilations of constructed graphs with one cache of packed weights, which was
empty at first, if there is one. Extents are words of 64 bits, and digests tell weights apart. -/
structure CompileJob.Isolated (start : Workshop) (jobs : List CompileJob) : Prop where
  fresh : start.HoldsNoWeights
  words : ∀ job ∈ jobs, job.graph.FiltersInWords
  collisionFree : start.packing.isSome = true → CollisionFree (CompileJob.knownWeights jobs)

/-- A compilation of a graph with extents in words, on its own. -/
theorem CompileJob.isolated_alone {job : CompileJob} (words : job.graph.FiltersInWords) :
    CompileJob.Isolated {} ([] ++ [job]) := by
  refine ⟨?_, ?_, ?_⟩
  · rintro cache ⟨⟩
  · rw [List.nil_append, List.forall_mem_singleton]
    exact words
  · rintro ⟨⟩

theorem Compiled.sound_afterCalls {job : CompileJob} {executable : Executable StandardOperator}
    (compiled : Compiled job.graph job.settings executable) (history : List SessionCall) :
    ((Session.start executable).afterCalls history).Sound job.graph executable :=
  (compiled.sound (Graph.admitted_afterCalls _ _)).afterCalls (Graph.wellFormed_afterCalls _ _)
    (fun step listed => (operators_of_made compiled.steps step listed).blank_eq) history

namespace CompileJob

variable {start : Workshop} {earlier : List CompileJob} {job : CompileJob}
  {executable : Executable StandardOperator} {closed : Graph}

theorem Isolated.made (isolated : Isolated start (earlier ++ [job]))
    (ran : (job.run (start.afterJobs earlier)).1 = .ok (executable, closed)) :
    job.Made executable where
  compiled := compiled ran
  serves := ensures ran fun _ _ _ _ _ offers => offers.serves _
  holds := holdsWeights isolated.fresh
    (fun shared => distinctWeights isolated.words (isolated.collisionFree shared))
    (fun made among _ own => List.mem_flatMap.mpr ⟨made, among, own⟩) ran

/-- After any calls, every step is one that was made for a node of the graph. -/
theorem exists_made {workshop : Workshop} (ran : (job.run workshop).1 = .ok (executable, closed))
    (history : List SessionCall) {step : Step StandardOperator}
    (listed : step ∈ ((Session.start executable).afterCalls history).executable.steps) :
    ∃ made ∈ executable.steps, made.node ∈ job.graph.nodes ∧ made.Stays step := by
  obtain ⟨made, among, stays⟩ :=
    exists_of_forall₂_right ((compiled ran).sound_afterCalls history).steps listed
  refine ⟨made, among, ?_, stays⟩
  rw [← nodes_of_made (compiled ran).steps]
  exact List.mem_map_of_mem among

namespace Made

theorem sound (made : job.Made executable) (history : List SessionCall) :
    ((Session.start executable).afterCalls history).Sound job.graph executable :=
  made.compiled.sound_afterCalls history

variable {session : Session} {step : Step StandardOperator}

theorem admitted (sound : session.Sound job.graph executable)
    (listed : step ∈ session.executable.steps) :
    ∃ operands output, step.node.Admitted session.executable.values operands output := by
  have among : step.node ∈ job.graph.nodes := by
    rw [← sound.executes.nodes_eq]
    exact List.mem_map_of_mem listed
  obtain ⟨operands, output, admitted⟩ := Graph.admitted_afterCalls _ _ step.node among
  exact admitted.reshape sound.executes.table (sound.executes.follow step.node among)

/-- The operator of a step takes the current shapes exactly when a pooling has kept its
channels. -/
theorem setUpOutcome (made : job.Made executable) (sound : session.Sound job.graph executable)
    (listed : step ∈ session.executable.steps) :
    match step.setUpOutcome session.executable.values with
    | .ok () => step.node.KeepsChannels job.graph.values session.executable.values
    | .error fault =>
        ¬ step.node.KeepsChannels job.graph.values session.executable.values ∧
          ∃ cause, fault = .refused (.invalidParameter cause) := by
  obtain ⟨before, among, stays⟩ := exists_of_forall₂_right sound.steps listed
  have madeFor := operators_of_made made.compiled.steps before among
  have serves := made.serves before among
  have holds := made.holds before among
  rw [← stays.node_eq] at madeFor serves holds
  obtain ⟨operands, output, admitted⟩ := Made.admitted sound listed
  have outcome := StandardOperator.setup_outcome sound.executes.table admitted madeFor serves holds
  -- the set-up of an operator depends on its blank form, which is the one that was made
  have same : step.operator.blank = before.operator := stays.blank_eq.trans madeFor.blank_eq
  have blank := (step.operator.setup_blank (operands.map (·.shape)) output.shape).2.1
  rw [same] at blank
  rw [blank] at outcome
  unfold Step.setUpOutcome
  rw [admitted.operandShapes_eq]
  exact outcome

/-- All operators take the current shapes exactly when each pooling has kept its channels. -/
theorem setUps_iff (made : job.Made executable) (sound : session.Sound job.graph executable) :
    session.executable.steps.forM (Step.setUpOutcome session.executable.values) = .ok () ↔
      session.executable.KeepsChannels job.graph.values :=
  forM_eq_ok_iff.trans (forall₂_congr fun _ listed =>
    Outcome.eq_ok_iff (made.setUpOutcome sound listed))

/-- A set-up succeeds exactly for correct blobs and kept channels. -/
theorem setup_eq_ok_iff (made : job.Made executable)
    (sound : session.Sound job.graph executable) (blobs : BlobTable) :
    (session.executable.setup blobs).result.2 = .ok () ↔
      session.executable.BindsAll blobs ∧ session.executable.KeepsChannels job.graph.values := by
  have wellFormed := Graph.wellFormed_afterCalls job.externalCount job.calls
  rw [Executable.setup_outcome _ blobs (sound.executes.operands_found wellFormed), bind_eq_ok_iff,
    ← sound.executes.checks_iff wellFormed blobs, ← made.setUps_iff sound]
  constructor
  · rintro ⟨_, passed, ready⟩
    exact ⟨passed, ready⟩
  · rintro ⟨passed, ready⟩
    exact ⟨(), passed, ready⟩

/-- A set-up that fails reports the first fault. -/
theorem setup_eq_error (made : job.Made executable)
    (sound : session.Sound job.graph executable) {blobs : BlobTable} {fault : Fault}
    (failed : (session.executable.setup blobs).result.2 = .error fault) :
    ∃ cause, fault = .refused cause ∧
      session.executable.FirstFault blobs job.graph.values cause.status := by
  have wellFormed := Graph.wellFormed_afterCalls job.externalCount job.calls
  rw [Executable.setup_outcome _ blobs (sound.executes.operands_found wellFormed)] at failed
  cases checks :
      session.executable.operandIds.forM (checkBound session.executable.values blobs) with
  | error first =>
      rw [checks] at failed
      cases failed
      obtain ⟨before, id, after, split, passes, fails⟩ := exists_of_forM_eq_error checks
      have outcome := fun other (used : other ∈ before ++ id :: after) =>
        sound.executes.checkBound_outcome wellFormed blobs (by rwa [← split] at used)
      have given := outcome id (by simp)
      rw [fails] at given
      obtain ⟨unbound, cause, rfl, status⟩ := given
      refine ⟨cause, rfl, status ▸ .blob before id after split (fun other among => ?_) unbound⟩
      exact (Outcome.eq_ok_iff (outcome other (List.mem_append_left _ among))).mp
        (passes other among)
  | ok passed =>
      rw [checks] at failed
      obtain ⟨_, step, _, split, _, fails⟩ := exists_of_forM_eq_error failed
      have listed : step ∈ session.executable.steps := by rw [split]; simp
      have given := made.setUpOutcome sound listed
      rw [fails] at given
      obtain ⟨changed, cause, rfl⟩ := given
      exact ⟨_, rfl, .channels ((sound.executes.checks_iff wellFormed blobs).mp checks)
        fun kept => changed (kept step listed)⟩

end Made

end CompileJob

/-- A set-up accepts exactly the correct bindings.

Graphs have been constructed by any calls and compiled one after another, and any calls have been
made on the last one since. A set-up then succeeds if and only if each operand of each node is part
of the graph or bound to a blob that its current shape fits in, and each pooling has as many input
channels as at its creation. No other operator refuses any shapes. The graph is bound after a
success and failed after a fault. The fault is that of the first operand without a correct blob,
in the order of the nodes and of their operands, and an invalid state if it has none; where all
blobs are correct, it is an invalid parameter. -/
theorem setup_accepts_correct_bindings (start : Workshop) (earlier : List CompileJob)
    (job : CompileJob) (isolated : CompileJob.Isolated start (earlier ++ [job]))
    (executable : Executable StandardOperator) (closed : Graph)
    (ran : (job.run (start.afterJobs earlier)).1 = .ok (executable, closed))
    (history : List SessionCall) (blobs : BlobTable) :
    let current := ((Session.start executable).afterCalls history).executable
    let done := (current.setup blobs).result
    (done.2 = .ok () ↔ current.BindsAll blobs ∧ current.KeepsChannels job.graph.values) ∧
    (∀ step ∈ current.steps, step.node.kind ≠ .globalAveragePooling2d →
      step.setUpOutcome current.values = .ok ()) ∧
    (done.2 = .ok () → done.1.state = .bound) ∧
    ∀ fault, done.2 = .error fault → done.1.state = .failed ∧
      ∃ cause, fault = .refused cause ∧ current.FirstFault blobs job.graph.values cause.status := by
  intro current done
  have made := isolated.made ran
  have sound := made.sound history
  have state : done.1.state = current.state.afterSetup done.2 := rfl
  refine ⟨made.setup_eq_ok_iff sound blobs, ?_, ?_, ?_⟩
  · intro step listed notPool
    exact (Outcome.eq_ok_iff (made.setUpOutcome sound listed)).mpr fun pool => absurd pool notPool
  · intro succeeded
    rw [state, succeeded]
    rfl
  · intro fault failed
    obtain ⟨cause, rfl, first⟩ := made.setup_eq_error sound failed
    rw [state, failed]
    exact ⟨rfl, cause, rfl, first⟩

/-- A graph of one pooling of single precision images with two channels. -/
def pooledGraph : List BuildCall :=
  [.tensor ⟨.float32, [1, 2, 2, 2], none, some 0, .externalInput⟩,
    .tensor ⟨.float32, [1, 2], none, some 1, .externalOutput⟩,
    .node .globalAveragePooling2d [0] [1]
      (.outputRange Binary32.negativeInfinity Binary32.infinity) 0]

def pooledExecutable : Executable StandardOperator where
  values := ((Graph.withExternalValues 2).afterCalls pooledGraph).values
  steps := [⟨⟨0, .globalAveragePooling2d, .fp32, [0], [1],
    .outputRange Binary32.negativeInfinity Binary32.infinity, 0⟩,
    .pooling ⟨.single Binary32.negativeInfinity Binary32.infinity, 2, 4096, 0, 0⟩⟩]
  state := .compiled
  settings := {}
  sharesPacked := false
  sharesTables := false
  trace := []

/-- Blobs of twenty bytes for the pooling, of which only the output can be written. -/
def pooledBlobs : BlobTable :=
  (BlobTable.empty.insert 0 ⟨Buffer.fresh (Array.replicate 20 0), false⟩).insert 1
    ⟨Buffer.fresh (Array.replicate 20 0), true⟩

/-- The theorem applies to the pooling after a reshape to smaller images, and after a reshape to
images of three channels. -/
theorem setup_accepts_correct_bindings_pooled :
    let smaller := (Session.start pooledExecutable).afterCalls [.reshape 0 [1, 1, 1, 2]]
    let wider := (Session.start pooledExecutable).afterCalls [.reshape 0 [1, 1, 1, 3]]
    (smaller.executable.setup pooledBlobs).result.2 = .ok () ∧
      ∃ cause, (wider.executable.setup pooledBlobs).result.2 = .error (.refused cause) ∧
        cause.status = .invalidParameter := by
  intro smaller wider
  let job := portableJob pooledGraph
  have isolated : CompileJob.Isolated {} ([] ++ [job]) := by
    refine ⟨by rintro cache ⟨⟩, ?_, by rintro ⟨⟩⟩
    unfold Graph.FiltersInWords
    decide +kernel
  have ran : (job.run ({} : Workshop)).1 = .ok (pooledExecutable, job.graph.closed) := by
    cbv
  have accepts := fun history blobs => setup_accepts_correct_bindings {} [] job isolated
    pooledExecutable job.graph.closed ran history blobs
  constructor
  · exact (accepts _ _).1.mpr (by decide +kernel)
  · cases failed : (wider.executable.setup pooledBlobs).result.2 with
    | ok done => exact absurd ((accepts _ _).1.mp failed) (by decide +kernel)
    | error fault =>
        obtain ⟨_, cause, rfl, first⟩ := (accepts _ _).2.2.2 fault failed
        refine ⟨cause, rfl, ?_⟩
        revert first
        generalize cause.status = status
        rintro (⟨_, id, _, split, _, unbound⟩ | _)
        · have right : wider.executable.BindsAll pooledBlobs := by decide +kernel
          exact absurd (right id (by rw [split]; simp)) unbound
        · rfl

end TensorEngine
