import TensorEngine.Proofs.Execution.Binding
import TensorEngine.Proofs.Execution.Dataflow
import TensorEngine.Proofs.Execution.Engine
import TensorEngine.Proofs.Kernel.LoneCreation

/-!
Contract: the host of a compiled graph never changes its results.

Owns:
- `TablesReached`, the caches of tables that compilations hand on;
- the theorem that compilations of one graph on any hosts give steps with one plain form;
- `Engine.Mirrors`, engines whose steps have one plain form and that are equal in all else that a
  caller sees, and the theorem that calls keep them so;
- the theorem that tiles, lanes, orders of the tiles and features never change a result.

Does not own: whether compilations and runs succeed.
-/

namespace TensorEngine

open Making

/-! ## Compilations -/

/-- A cache of tables that was empty at first, if there is one, after any compilations that were
given it one after another. -/
inductive TablesReached : Option CodeCache → Prop where
  | none : TablesReached none
  | empty : TablesReached (some {})
  | compiled (job : CompileJob) (workshop : Workshop) (given : TablesReached job.tables) :
      TablesReached (job.run workshop).2.code

/-- A compilation keeps a cache of tables by key, and its mappings are those of their nodes
alone. -/
theorem CompileJob.tabulates (job : CompileJob) (workshop : Workshop)
    (byKey : TabulatedByKey job.tables) :
    TabulatedByKey (job.run workshop).2.code ∧
      ∀ made, (job.run workshop).1 = .ok made → ∀ step ∈ made.1.steps,
        step.node.kind.MapsElements → step.operator.MadeAlone step.node job.graph.values :=
  compile_keeps job.features job.settings job.graph
    (fun node listed factory offers => by
      obtain ⟨operands, output, admits⟩ := job.exists_admits listed
        (Catalog.standard job.features).features job.settings.tileElements
      exact offers.tabulates admits)
    { workshop with code := job.tables } byKey

/-- Every table that compilations hand on is that of its key. -/
theorem TablesReached.tabulatedByKey {tables : Option CodeCache} (reached : TablesReached tables) :
    TabulatedByKey tables := by
  induction reached with
  | none => exact tabulatedByKey_of_empty fun _ present => (nomatch present)
  | empty =>
      refine tabulatedByKey_of_empty fun code present => ?_
      cases present
      rfl
  | compiled job workshop _ inductionHypothesis =>
      exact (job.tabulates workshop inductionHypothesis).1

/-- What a compilation makes after others is what is made for its nodes alone. -/
theorem CompileJob.Isolated.madeAlone {start : Workshop} {earlier : List CompileJob}
    {job : CompileJob} (isolated : Isolated start (earlier ++ [job]))
    (reached : TablesReached job.tables) {executable : Executable StandardOperator}
    {closed : Graph} (ran : (job.run (start.afterJobs earlier)).1 = .ok (executable, closed)) :
    ∀ step ∈ executable.steps, step.operator.MadeAlone step.node job.graph.values := by
  have listed : ∀ made ∈ earlier ++ [job], ∀ weights ∈ made.graph.productWeights,
      weights ∈ knownWeights (earlier ++ [job]) :=
    fun made among _ own => List.mem_flatMap.mpr ⟨made, among, own⟩
  have packed := Workshop.packedFrom_afterJobs isolated.fresh
    (fun shared => distinctWeights isolated.words (isolated.collisionFree shared))
    fun made among => listed made (List.mem_append_left _ among)
  have others := (compile_keeps job.features job.settings job.graph
    (fun node among _ offers => offers.packsAlone fun weights found =>
      listed job (by simp) weights (List.mem_filterMap.mpr ⟨node, among, found⟩))
    { start.afterJobs earlier with code := job.tables } packed).2 _ ran
  have mappings := (job.tabulates _ reached.tabulatedByKey).2 _ ran
  intro step among
  by_cases maps : step.node.kind.MapsElements
  · exact mappings step among maps
  · exact others step among maps

/-! ## Steps with one plain form -/

/-- Steps with the same node, whose operators have one plain form. -/
structure Step.SamePlain (step twin : Step StandardOperator) : Prop where
  node_eq : twin.node = step.node
  plain_eq : step.operator.plain = twin.operator.plain

namespace Step.SamePlain

variable {steps twins : List (Step StandardOperator)}

/-- Steps for the same nodes have one plain form if both are made for their nodes alone. -/
theorem of_alone {values : List Value} (nodes : steps.map (·.node) = twins.map (·.node))
    (alone : ∀ step ∈ steps, step.operator.MadeAlone step.node values)
    (aloneToo : ∀ twin ∈ twins, twin.operator.MadeAlone twin.node values) :
    List.Forall₂ SamePlain steps twins := by
  induction steps generalizing twins with
  | nil =>
      rw [List.map_nil, eq_comm, List.map_eq_nil_iff] at nodes
      rw [nodes]
      exact .nil
  | cons step steps inductionHypothesis =>
      cases twins with
      | nil => cases nodes
      | cons twin twins =>
          rw [List.map_cons, List.map_cons, List.cons.injEq] at nodes
          obtain ⟨made, madeRest⟩ := List.forall_mem_cons.mp alone
          obtain ⟨madeToo, madeTooRest⟩ := List.forall_mem_cons.mp aloneToo
          rw [← nodes.1] at madeToo
          exact .cons ⟨nodes.1.symm, made.plain_eq madeToo⟩
            (inductionHypothesis nodes.2 madeRest madeTooRest)

theorem nodes_eq (pairs : List.Forall₂ SamePlain steps twins) :
    twins.map (·.node) = steps.map (·.node) := by
  induction pairs with
  | nil => rfl
  | cons head _ inductionHypothesis =>
      rw [List.map_cons, List.map_cons, head.node_eq, inductionHypothesis]

/-- Steps with one plain form agree, in whatever orders their tiles are worked off. -/
theorem agrees {step twin : Step StandardOperator} (same : step.SamePlain twin)
    (schedule other : Schedule) : Step.Agrees schedule other step twin :=
  ⟨same.node_eq, fun inputs room =>
    StandardOperator.contents_of_plain same.plain_eq schedule other inputs room⟩

/-- Set-ups keep steps with one plain form so, and end alike. -/
theorem setUpSteps {settings others : Settings} {values : List Value}
    (pairs : List.Forall₂ SamePlain steps twins) (trace another : List TraceEvent) :
    List.Forall₂ SamePlain (setUpSteps settings values steps trace).steps
        (setUpSteps others values twins another).steps ∧
      (TensorEngine.setUpSteps settings values steps trace).outcome =
        (TensorEngine.setUpSteps others values twins another).outcome := by
  induction pairs generalizing trace another with
  | nil => exact ⟨.nil, rfl⟩
  | @cons step twin steps twins same pairs inductionHypothesis =>
      unfold TensorEngine.setUpSteps
      rw [same.node_eq]
      cases operandShapes values step.node with
      | error fault => exact ⟨.cons same pairs, rfl⟩
      | ok shapes =>
          obtain ⟨inputs, output⟩ := shapes
          have alike : (Operator.setup step.operator inputs output).1.plain =
              (Operator.setup twin.operator inputs output).1.plain ∧
              (Operator.setup step.operator inputs output).2 =
                (Operator.setup twin.operator inputs output).2 :=
            StandardOperator.setup_of_plain same.plain_eq inputs output
          dsimp only
          revert alike
          generalize Operator.setup step.operator inputs output = first
          generalize Operator.setup twin.operator inputs output = second
          obtain ⟨operator, outcome⟩ := first
          obtain ⟨operatorToo, another⟩ := second
          rintro ⟨ready, rfl⟩
          cases outcome with
          | error fault => exact ⟨.cons ⟨rfl, ready⟩ pairs, rfl⟩
          | ok done =>
              obtain ⟨rest, ended⟩ := inductionHypothesis (settings.record trace _)
                (others.record another _)
              exact ⟨.cons ⟨rfl, ready⟩ rest, ended⟩

end Step.SamePlain

/-! ## Engines that mirror each other -/

/-- Calls that are the same but for the order in which a run works its tiles off. -/
inductive EngineCall.SameButOrder : EngineCall → EngineCall → Prop where
  | same (call : EngineCall) : SameButOrder call call
  | run (schedule other : Schedule) : SameButOrder (.run schedule) (.run other)

/-- Engines with the same values, state and bound blobs, over steps with one plain form. -/
structure Engine.Mirrors (first second : Engine StandardOperator) : Prop where
  values_eq : first.executable.values = second.executable.values
  steps : List.Forall₂ Step.SamePlain first.executable.steps second.executable.steps
  state_eq : first.executable.state = second.executable.state
  binding_eq : first.binding = second.binding

/-- Outcomes that agree lead to the same state. -/
theorem Lifecycle.afterRun_agrees {first second : Outcome Unit} (agree : first.Agrees second) :
    Lifecycle.afterRun first = Lifecycle.afterRun second := by
  rcases agree with rfl | ⟨breach, other, rfl, rfl⟩
  · rfl
  · rfl

namespace Engine.Mirrors

variable {first second : Engine StandardOperator} (mirrors : first.Mirrors second)

include mirrors

theorem reshape (id : ValueId) (shape : Shape) :
    (first.after (.reshape id shape)).Mirrors (second.after (.reshape id shape)) ∧
      (first.perform (.reshape id shape)).2 = (second.perform (.reshape id shape)).2 := by
  have reshaped : first.executable.reshaped id shape = second.executable.reshaped id shape := by
    unfold Executable.reshaped Executable.shapes
    rw [mirrors.values_eq, Step.SamePlain.nodes_eq mirrors.steps]
  unfold after perform Executable.reshape
  dsimp only
  rw [reshaped]
  cases second.executable.reshaped id shape with
  | error fault => exact ⟨⟨mirrors.values_eq, mirrors.steps, mirrors.state_eq, rfl⟩, rfl⟩
  | ok shapes =>
      dsimp only
      rw [mirrors.values_eq]
      exact ⟨⟨rfl, mirrors.steps, rfl, rfl⟩, rfl⟩

theorem setup (blobs : BlobTable) :
    (first.after (.setup blobs)).Mirrors (second.after (.setup blobs)) ∧
      (first.perform (.setup blobs)).2 = (second.perform (.setup blobs)).2 := by
  obtain ⟨steps, ended⟩ := @Step.SamePlain.setUpSteps _ _ first.executable.settings
    second.executable.settings second.executable.values mirrors.steps first.executable.trace
    second.executable.trace
  unfold after perform Executable.setup
  dsimp only
  rw [mirrors.values_eq, Step.SamePlain.nodes_eq mirrors.steps]
  cases (first.executable.steps.map (·.node)).forM
    (checkOperands second.executable.values blobs) with
  | error fault =>
      dsimp only
      rw [mirrors.state_eq]
      exact ⟨⟨rfl, mirrors.steps, rfl, rfl⟩, rfl⟩
  | ok passed =>
      dsimp only
      rw [mirrors.state_eq, ended]
      exact ⟨⟨rfl, steps, rfl, rfl⟩, rfl⟩

theorem run (schedule other : Schedule) :
    (first.after (.run schedule)).Mirrors (second.after (.run other)) ∧
      (first.perform (.run schedule)).2.Agrees (second.perform (.run other)).2 := by
  unfold after perform onBinding
  dsimp only
  rw [mirrors.binding_eq]
  cases second.binding with
  | none =>
      exact ⟨⟨mirrors.values_eq, mirrors.steps, mirrors.state_eq, mirrors.binding_eq⟩, .refl _⟩
  | some blobs =>
      obtain ⟨sameBlobs, agree⟩ := @runSteps_agrees second.executable.values schedule other blobs
        first.executable.settings second.executable.settings _ _
        (mirrors.steps.imp fun step twin same => same.agrees schedule other)
        first.executable.trace second.executable.trace
      dsimp only
      unfold Bound.run
      dsimp only
      rw [mirrors.state_eq, mirrors.values_eq]
      split
      · exact ⟨⟨mirrors.values_eq, mirrors.steps, mirrors.state_eq, rfl⟩, .refl _⟩
      · dsimp only
        rw [sameBlobs, Lifecycle.afterRun_agrees agree]
        exact ⟨⟨rfl, mirrors.steps, rfl, rfl⟩, agree⟩

theorem overwrite (id : ValueId) (bytes : Bytes) :
    (first.after (.overwrite id bytes)).Mirrors (second.after (.overwrite id bytes)) ∧
      (first.perform (.overwrite id bytes)).2 = (second.perform (.overwrite id bytes)).2 := by
  unfold after perform onBinding
  dsimp only
  rw [mirrors.binding_eq]
  cases second.binding with
  | none => exact ⟨⟨mirrors.values_eq, mirrors.steps, mirrors.state_eq, mirrors.binding_eq⟩, rfl⟩
  | some blobs =>
      dsimp only
      unfold Bound.overwrite
      dsimp only
      have refused : ∀ fault : Fault, (⟨first.executable, some blobs⟩ : Engine _).Mirrors
          ⟨second.executable, some blobs⟩ ∧ (Except.error fault : Outcome Unit) = .error fault :=
        fun fault => ⟨⟨mirrors.values_eq, mirrors.steps, mirrors.state_eq, rfl⟩, rfl⟩
      cases blobs.get? id with
      | none => exact refused _
      | some blob =>
          obtain ⟨buffer, writable⟩ := blob
          cases writable with
          | false => exact refused _
          | true =>
              dsimp only
              cases Outcome.view UInt8 buffer with
              | error fault => exact refused _
              | ok elements =>
                  exact ⟨⟨mirrors.values_eq, mirrors.steps, mirrors.state_eq, rfl⟩, rfl⟩

/-- A call on both engines, which may differ in the order of the tiles, keeps them mirrors of each
other, and its outcomes agree. -/
theorem perform {call other : EngineCall} (alike : call.SameButOrder other) :
    (first.after call).Mirrors (second.after other) ∧
      (first.perform call).2.Agrees (second.perform other).2 := by
  cases alike with
  | run schedule other => exact mirrors.run schedule other
  | same call =>
      cases call with
      | reshape id shape => exact ⟨(mirrors.reshape id shape).1, .inl (mirrors.reshape id shape).2⟩
      | setup blobs => exact ⟨(mirrors.setup blobs).1, .inl (mirrors.setup blobs).2⟩
      | run schedule => exact mirrors.run schedule schedule
      | overwrite id bytes =>
          exact ⟨(mirrors.overwrite id bytes).1, .inl (mirrors.overwrite id bytes).2⟩
      | release => exact ⟨⟨mirrors.values_eq, mirrors.steps, mirrors.state_eq, rfl⟩, .refl _⟩
      | clearTrace => exact ⟨⟨mirrors.values_eq, mirrors.steps, mirrors.state_eq, rfl⟩, .refl _⟩

/-- Any calls on both engines keep them mirrors of each other. -/
theorem afterCalls {calls others : List EngineCall}
    (alike : List.Forall₂ EngineCall.SameButOrder calls others) :
    (first.afterCalls calls).Mirrors (second.afterCalls others) := by
  induction alike generalizing first second with
  | nil => exact mirrors
  | cons head _ inductionHypothesis => exact inductionHypothesis (mirrors.perform head).1

end Engine.Mirrors

/-! ## Hosts -/

/-- Compilations of one graph on any hosts start engines that mirror each other. -/
theorem CompileJob.Isolated.mirrors {start startOther : Workshop}
    {earlier earlierOther : List CompileJob} {job other : CompileJob}
    (sameGraph : job.graph = other.graph) (isolated : Isolated start (earlier ++ [job]))
    (isolatedOther : Isolated startOther (earlierOther ++ [other]))
    (reached : TablesReached job.tables) (reachedOther : TablesReached other.tables)
    {executable executableOther : Executable StandardOperator} {closed closedOther : Graph}
    (ran : (job.run (start.afterJobs earlier)).1 = .ok (executable, closed))
    (ranOther : (other.run (startOther.afterJobs earlierOther)).1 =
      .ok (executableOther, closedOther)) :
    (Engine.start executable).Mirrors (Engine.start executableOther) where
  values_eq := by
    show executable.values = executableOther.values
    rw [(compiled ran).values_eq, (compiled ranOther).values_eq, sameGraph]
  steps := by
    refine Step.SamePlain.of_alone ?_ (isolated.madeAlone reached ran) ?_
    · show executable.steps.map (·.node) = executableOther.steps.map (·.node)
      rw [nodes_of_made (compiled ran).steps, nodes_of_made (compiled ranOther).steps, sameGraph]
    · rw [sameGraph]
      exact isolatedOther.madeAlone reachedOther ranOther
  state_eq := (compiled ran).state_eq.trans (compiled ranOther).state_eq.symm
  binding_eq := rfl

/-- Tiles, lanes, orders and features never change a result.

Every operator of the library can be exchanged for the same operator with other tiles and other
lanes: both take the same shapes, and set up for shapes they write the same bytes from the same
inputs to the same room, in whatever orders their tiles are worked off. Hence it does not matter
where a constructed graph is compiled. Two compilations of it, on hosts with any features, with any
settings, and after any other compilations with which they share a cache of packed weights whose
digests tell weights apart and a cache of tables, give for every node operators that can be
exchanged for each other. After the same calls on both compiled graphs, but for the orders of the
tiles, shapes, state and the bytes of every bound blob are the same, and the outcomes of the next
call agree: at most the contract that is broken may differ. -/
theorem host_never_changes_results :
    (∀ (operator : StandardOperator) (tileElements lanes otherTile otherLanes : Nat),
      (operator.tiled tileElements lanes).Interchangeable
        (operator.tiled otherTile otherLanes)) ∧
    ∀ (start startOther : Workshop) (earlier earlierOther : List CompileJob)
      (job other : CompileJob), job.graph = other.graph →
      CompileJob.Isolated start (earlier ++ [job]) →
      CompileJob.Isolated startOther (earlierOther ++ [other]) →
      TablesReached job.tables → TablesReached other.tables →
      ∀ executable closed executableOther closedOther,
        (job.run (start.afterJobs earlier)).1 = .ok (executable, closed) →
        (other.run (startOther.afterJobs earlierOther)).1 =
          .ok (executableOther, closedOther) →
        List.Forall₂ (fun step twin => twin.node = step.node ∧
          step.operator.Interchangeable twin.operator) executable.steps executableOther.steps ∧
        ∀ calls others, List.Forall₂ EngineCall.SameButOrder calls others →
          let engine := (Engine.start executable).afterCalls calls
          let engineOther := (Engine.start executableOther).afterCalls others
          engine.executable.shapes = engineOther.executable.shapes ∧
            engine.executable.state = engineOther.executable.state ∧
            engine.binding = engineOther.binding ∧
            ∀ call another, call.SameButOrder another →
              (engine.perform call).2.Agrees (engineOther.perform another).2 := by
  constructor
  · intro operator tileElements lanes otherTile otherLanes
    apply StandardOperator.interchangeable_of_plain
    rw [operator.plain_tiled, operator.plain_tiled]
  · intro start startOther earlier earlierOther job other sameGraph isolated isolatedOther reached
      reachedOther executable closed executableOther closedOther ran ranOther
    have mirrors := isolated.mirrors sameGraph isolatedOther reached reachedOther ran ranOther
    constructor
    · exact mirrors.steps.imp fun step twin same =>
        ⟨same.node_eq, StandardOperator.interchangeable_of_plain same.plain_eq⟩
    · intro calls others alike engine engineOther
      have later : engine.Mirrors engineOther := mirrors.afterCalls alike
      refine ⟨?_, later.state_eq, later.binding_eq, fun call another same =>
        (later.perform same).2⟩
      unfold Executable.shapes
      rw [later.values_eq]

/-- The difference of two vectors of nine numbers: a block of eight lanes and one number more. -/
def differenceGraph : List BuildCall :=
  [.tensor ⟨.float32, [9], none, some 0, .externalInput⟩,
    .tensor ⟨.float32, [9], none, some 1, .externalInput⟩,
    .tensor ⟨.float32, [9], none, some 2, .externalOutput⟩,
    .node .subtract [0, 1] [2]
      (.outputRange Numeric.Binary32.negativeInfinity Numeric.Binary32.infinity) 0]

def differenceJob (features : Features) (tileElements : Nat) : CompileJob :=
  ⟨features, 3, differenceGraph, { tileElements := tileElements }, some {}⟩

/-- The difference as it is compiled, in tiles of this size and blocks of these lanes. -/
def differenceExecutable (lanes tileElements : Nat) : Executable StandardOperator where
  values := ((Graph.withExternalValues 3).afterCalls differenceGraph).values
  steps := [⟨⟨0, .subtract, .fp32, [0, 1], [2],
      .outputRange Numeric.Binary32.negativeInfinity Numeric.Binary32.infinity, 0⟩,
    .combination ⟨.subtract, .subtract, Numeric.Binary32.negativeInfinity,
      Numeric.Binary32.infinity, .single, lanes, tileElements, {}⟩⟩]
  state := .compiled
  settings := { tileElements := tileElements }
  sharesPacked := false
  sharesTables := true
  trace := []

def differenceBlobs : BlobTable :=
  ((BlobTable.empty.insert 0 ⟨Buffer.fresh (Array.replicate 36 64), false⟩).insert 1
    ⟨Buffer.fresh (Array.replicate 36 63), false⟩).insert 2
      ⟨Buffer.fresh (Array.replicate 40 0), true⟩

/-- The theorem applies to the difference on a host with wide registers, where the last tile is
worked off first, and on a portable host with tiles of two numbers. -/
theorem host_never_changes_results_difference :
    let lanes := (Engine.start (differenceExecutable 8 4)).afterCalls
      [.setup differenceBlobs, .run .backwards]
    let portable := (Engine.start (differenceExecutable 1 2)).afterCalls
      [.setup differenceBlobs, .run .sequential]
    portable.executable.state = .bound ∧ lanes.executable.state = .bound ∧
      lanes.binding = portable.binding := by
  intro lanes portable
  have isolated : ∀ job ∈ [differenceJob { avx := true } 4, differenceJob .portable 2],
      CompileJob.Isolated {} ([] ++ [job]) := by
    have words : ∀ job ∈ [differenceJob { avx := true } 4, differenceJob .portable 2],
        job.graph.FiltersInWords := by
      unfold Graph.FiltersInWords
      decide +kernel
    refine fun job among => ⟨by rintro cache ⟨⟩, ?_, by rintro ⟨⟩⟩
    rw [List.nil_append, List.forall_mem_singleton]
    exact words job among
  have ranLanes : ((differenceJob { avx := true } 4).run ({} : Workshop)).1 =
      .ok (differenceExecutable 8 4, (differenceJob { avx := true } 4).graph.closed) := by
    cbv
  have ranPortable : ((differenceJob .portable 2).run ({} : Workshop)).1 =
      .ok (differenceExecutable 1 2, (differenceJob .portable 2).graph.closed) := by
    cbv
  have bound : portable.executable.state = .bound := by decide +kernel
  obtain ⟨_, same⟩ := host_never_changes_results.2 {} {} [] []
    (differenceJob { avx := true } 4) (differenceJob .portable 2) rfl (isolated _ (by simp))
    (isolated _ (by simp)) .empty .empty _ _ _ _ ranLanes ranPortable
  obtain ⟨_, sameState, sameBinding, _⟩ := same [.setup differenceBlobs, .run .backwards]
    [.setup differenceBlobs, .run .sequential] (.cons (.same _) (.cons (.run _ _) .nil))
  exact ⟨bound, sameState.trans bound, sameBinding⟩

end TensorEngine
