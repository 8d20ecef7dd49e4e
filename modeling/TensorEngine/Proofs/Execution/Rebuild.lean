import TensorEngine.Proofs.Execution.Dataflow
import TensorEngine.Proofs.Execution.Replay
import TensorEngine.Proofs.Kernel.Recreation

/-!
Contract: a compiled graph with other shapes is the compiled graph of these shapes.

Owns:
- the theorem that a graph with other shapes compiles wherever the graph has compiled before, to
  operators that are made again;
- `Step.Twin`, steps with the same node whose operators compute the same contents;
- the theorems that operators made again become twins at a set-up, and that runs over twins agree;
- the theorem that a reshape, with any history, is equivalent to a rebuilt graph.

Does not own: the replay of the definitions.
-/

namespace TensorEngine

open Making

/-! ## Compilation -/

structure Step.Remade (step again : Step StandardOperator) : Prop where
  node_eq : again.node = step.node
  operator : step.operator.Remade again.operator

theorem Making.Repeats.reports (notices : List Notice) :
    Repeats (forIn notices PUnit.unit fun notice _ => do
        Making.report notice
        Pure.pure (ForInStep.yield PUnit.unit))
      (forIn notices PUnit.unit fun notice _ => do
        Making.report notice
        Pure.pure (ForInStep.yield PUnit.unit))
      (fun _ _ => True) := by
  induction notices with
  | nil => exact Repeats.pure trivial
  | cons notice notices inductionHypothesis =>
      have one : Repeats (do
            Making.report notice
            Pure.pure (ForInStep.yield PUnit.unit))
          (do
            Making.report notice
            Pure.pure (ForInStep.yield PUnit.unit))
          (fun result again => result = .yield .unit ∧ again = .yield .unit) :=
        (Repeats.report notice notice).bind fun _ _ _ => Repeats.pure ⟨rfl, rfl⟩
      rw [List.forIn_cons]
      apply one.bind
      intro result again same
      rw [same.1, same.2]
      exact inductionHypothesis

theorem factoryFor_repeats (features : Features) (node : Node) :
    Repeats (factoryFor (Catalog.standard features) node)
      (factoryFor (Catalog.standard features) node)
      (fun factory again => again = factory ∧ Catalog.Offers node.key factory) := by
  unfold factoryFor
  apply (Repeats.reports _).bind
  intro _ _ _
  apply Repeats.reporting _ _
  exact Repeats.ofOutcome fun factory found =>
    ⟨factory, found, rfl, Catalog.offers_of_lookup found⟩

theorem compileStep_repeats (features : Features) (settings : Settings)
    {values news : List Value} (table : ReshapedTable values news) {node : Node}
    {operands : List Value} {output : Value} (admitted : node.Admitted values operands output) :
    Repeats (compileStep (Catalog.standard features) settings values node)
      (compileStep (Catalog.standard features) settings news node) Step.Remade := by
  unfold compileStep
  apply (factoryFor_repeats features node).bind
  intro factory again same
  obtain ⟨rfl, offers⟩ := same
  apply (Repeats.report _ _).bind
  intro _ _ _
  let context : CreateContext :=
    { node := node, values := values, features := (Catalog.standard features).features,
      tileElements := settings.tileElements }
  have static : node.kind = .fullyConnected → context.HasStaticWeights := by
    intro multiply index value weight found
    obtain ⟨id, read, foundValue⟩ := CreateContext.input_eq_ok_iff.mp found
    exact admitted.isStatic_weight multiply weight read foundValue
  have repeats := @Catalog.Offers.repeats context news again offers table static
  exact (Repeats.reporting _ _ repeats).bind fun operator repeated remade =>
    Repeats.pure ⟨rfl, remade⟩

/-- A graph whose values have got other shapes compiles wherever the graph has compiled before. -/
theorem compile_repeats (features : Features) (settings : Settings) {graph other : Graph}
    (table : ReshapedTable graph.values other.values) (sameNodes : other.nodes = graph.nodes)
    (admitted : graph.Admitted) :
    Repeats (compile (Catalog.standard features) graph settings)
      (compile (Catalog.standard features) other settings)
      (fun made again => List.Forall₂ Step.Remade made.1.steps again.1.steps) := by
  have workshop : Repeats (get : Making Workshop) get (fun _ _ => True) := by
    intro before result middle ran
    cases ran
    exact ⟨.refl _, fun later _ => ⟨later, later, rfl, .refl _, trivial⟩⟩
  unfold compile
  extract_lets rest restAgain
  have repeats : ∀ checked checkedAgain, Repeats (rest checked) (restAgain checkedAgain)
      (fun made again => List.Forall₂ Step.Remade made.1.steps again.1.steps) := by
    intro checked checkedAgain
    have steps : Repeats
        (graph.nodes.mapM (compileStep (Catalog.standard features) settings graph.values))
        (graph.nodes.mapM (compileStep (Catalog.standard features) settings other.values))
        (List.Forall₂ Step.Remade) := by
      apply Repeats.mapM
      intro node listed
      obtain ⟨operands, output, admittedNode⟩ := admitted node listed
      exact compileStep_repeats features settings table admittedNode
    dsimp only [rest, restAgain]
    rw [sameNodes]
    apply steps.bind
    intro made again remade
    apply (Repeats.report _ _).bind
    intro _ _ _
    exact workshop.bind fun _ _ _ => Repeats.pure remade
  split
  · exact (Repeats.same _).bind fun checked checkedAgain _ => repeats checked checkedAgain
  · exact repeats () ()

/-! ## Set-up -/

/-- Steps with the same node, and with operators that compute the same contents. -/
structure Step.Twin (step twin : Step StandardOperator) : Prop where
  node_eq : twin.node = step.node
  operator_eq : twin.operator.unstamped = step.operator.unstamped

/-- An operator that is made again is the same as the one made first, if that one can be set up for
the shapes that the other one is made for: the channels of a pooling are those of its input. -/
theorem Step.Remade.unstamped_eq {values : List Value} {made again step : Step StandardOperator}
    (remade : made.Remade again) (madeFor : again.operator.MadeFor again.node values)
    (setUp : Step.SetUp values made step) :
    again.operator.unstamped = made.operator.unstamped := by
  obtain ⟨_, inputs, output, shapes, ready⟩ := setUp
  obtain ⟨node, operator⟩ := made
  obtain ⟨nodeAgain, operatorAgain⟩ := again
  obtain rfl : nodeAgain = node := remade.node_eq
  cases remade.operator with
  | unstamped same => exact same
  | channels pooling channels =>
      obtain ⟨id, input, read, found, given⟩ := madeFor.channels_eq _ rfl
      have first := operandShapes_input shapes read found
      have done : (pooling.setup inputs output).2 = .ok () := congrArg Prod.snd ready
      unfold Pooling.setup at done
      cases extent : Pooling.extent pooling.channels inputs output with
      | error fault =>
          rw [extent] at done
          cases done
      | ok counts =>
          obtain ⟨_, _, batch, _⟩ := Pooling.extent_eq_ok_iff.mp extent
          rw [Option.some.inj (first.symm.trans batch)] at given
          cases given
          rfl

/-- At a set-up that succeeds for the operator made first, the operator made again becomes its
twin. -/
theorem Step.Remade.setUp {values : List Value} {made again step : Step StandardOperator}
    (remade : made.Remade again) (madeFor : again.operator.MadeFor again.node values)
    (setUp : Step.SetUp values made step) :
    ∃ twin, Step.SetUp values again twin ∧ step.Twin twin := by
  have same := remade.unstamped_eq madeFor setUp
  obtain ⟨sameNode, inputs, output, shapes, ready⟩ := setUp
  have first := made.operator.unstamped_setup inputs output
  have second := again.operator.unstamped_setup inputs output
  rw [same, first] at second
  obtain ⟨state, outcome⟩ := Prod.mk.inj second
  change made.operator.setup inputs output = _ at ready
  rw [ready] at state outcome
  refine ⟨⟨again.node, (again.operator.setup inputs output).1⟩,
    ⟨rfl, inputs, output, ?_, Prod.ext rfl outcome.symm⟩, ?_, state.symm⟩
  · rw [remade.node_eq]
    exact shapes
  · exact remade.node_eq.trans sameNode.symm

/-! ## Runs -/

theorem Step.Twin.contents_eq {step twin : Step StandardOperator} (twins : step.Twin twin) :
    twin.operator.contents = step.operator.contents := by
  rw [← twin.operator.unstamped_contents, twins.operator_eq, step.operator.unstamped_contents]

theorem runStep_twin {values : List Value} {schedule : Schedule} {blobs : BlobTable}
    {step twin : Step StandardOperator} (twins : step.Twin twin) :
    runStep values schedule twin blobs = runStep values schedule step blobs := by
  have operates : ∀ (others : BlobTable) (output : ValueId) (buffer : Buffer),
      operate values others schedule twin output buffer =
        operate values others schedule step output buffer := by
    intro others output buffer
    have runs : Operator.run twin.operator = Operator.run step.operator := by
      show (fun schedule inputs output =>
        RunEnd.ofOutcome output (twin.operator.contents schedule inputs output)) = _
      rw [twins.contents_eq]
      rfl
    unfold operate
    rw [twins.node_eq, runs]
  unfold runStep
  simp only [twins.node_eq, operates]

/-- A run over twins ends as the run over the steps does. -/
theorem runSteps_twins {settings others : Settings} {values : List Value} {schedule : Schedule}
    {steps twins : List (Step StandardOperator)} (pairs : List.Forall₂ Step.Twin steps twins)
    (blobs : BlobTable) (trace other : List TraceEvent) :
    (runSteps others values schedule twins blobs other).outcome =
        (runSteps settings values schedule steps blobs trace).outcome ∧
      (runSteps others values schedule twins blobs other).blobs =
        (runSteps settings values schedule steps blobs trace).blobs := by
  induction pairs generalizing blobs trace other with
  | nil => exact ⟨rfl, rfl⟩
  | cons head _ inductionHypothesis =>
      unfold runSteps
      rw [runStep_twin head]
      split
      · exact ⟨rfl, rfl⟩
      · exact inductionHypothesis _ _ _

/-! ## Reshaped and rebuilt graphs -/

/-- Executables over the same values whose steps are twins, both set up. -/
structure Executable.Twin (executable twin : Executable StandardOperator) : Prop where
  values_eq : twin.values = executable.values
  steps : List.Forall₂ Step.Twin executable.steps twin.steps
  state_eq : executable.state = .bound
  twinState_eq : twin.state = .bound

/-- Runs over twins agree in any orders of the tiles, and are equal in the same order. -/
theorem Executable.Twin.run {executable twin : Executable StandardOperator}
    (twins : executable.Twin twin) (blobs : BlobTable) (schedule other : Schedule) :
    let ran := ((⟨executable, blobs⟩ : Bound StandardOperator).run schedule).result
    let again := ((⟨twin, blobs⟩ : Bound StandardOperator).run other).result
    again.1.blobs = ran.1.blobs ∧ ran.2.Agrees again.2 ∧
      (schedule = other → again.2 = ran.2) := by
  obtain ⟨sameOutcome, sameBlobs⟩ := @runSteps_twins executable.settings twin.settings
    executable.values other _ _ twins.steps blobs executable.trace twin.trace
  obtain ⟨blobsAgree, outcomesAgree⟩ := @runSteps_agrees executable.values schedule other blobs
    executable.settings executable.settings executable.steps executable.steps
    (List.forall₂_same.mpr fun step _ => step.agrees_self schedule other)
    executable.trace executable.trace
  unfold Bound.run
  dsimp only
  rw [twins.state_eq, twins.twinState_eq, twins.values_eq, if_neg (by simp), if_neg (by simp)]
  dsimp only
  rw [sameOutcome, sameBlobs, blobsAgree]
  refine ⟨rfl, outcomesAgree, ?_⟩
  rintro rfl
  rfl

/-- Steps that are made again become twins of the steps made first, once these are set up. -/
theorem exists_twins {values : List Value} {made again steps : List (Step StandardOperator)}
    (remade : List.Forall₂ Step.Remade made again)
    (madeFor : ∀ step ∈ again, step.operator.MadeFor step.node values)
    (setUp : List.Forall₂ (Step.SetUp values) made steps) :
    ∃ twins, List.Forall₂ (Step.SetUp values) again twins ∧ List.Forall₂ Step.Twin steps twins := by
  induction remade generalizing steps with
  | nil =>
      cases setUp
      exact ⟨[], .nil, .nil⟩
  | cons head _ inductionHypothesis =>
      obtain ⟨madeForHead, madeForRest⟩ := List.forall_mem_cons.mp madeFor
      cases setUp with
      | cons setUpHead setUpRest =>
          obtain ⟨twin, ready, twins⟩ := head.setUp madeForHead setUpHead
          obtain ⟨rest, readyRest, twinsRest⟩ := inductionHypothesis madeForRest setUpRest
          exact ⟨twin :: rest, .cons ready readyRest, .cons twins twinsRest⟩

theorem nodes_of_remade {made again : List (Step StandardOperator)}
    (remade : List.Forall₂ Step.Remade made again) :
    again.map (·.node) = made.map (·.node) := by
  induction remade with
  | nil => rfl
  | cons head _ inductionHypothesis =>
      rw [List.map_cons, List.map_cons, head.node_eq, inductionHypothesis]

/-- An executable that is made again for the current values can be set up wherever the first one
can, and the two are twins then. -/
theorem Executable.Twin.of_setup {executable again ready : Executable StandardOperator}
    {made : List (Step StandardOperator)} (sameValues : again.values = executable.values)
    (remade : List.Forall₂ Step.Remade made again.steps)
    (madeFor : ∀ step ∈ again.steps, step.operator.MadeFor step.node executable.values)
    (stay : List.Forall₂ Step.Stays made executable.steps)
    (blank : ∀ step ∈ made, step.operator.blank = step.operator) {blobs : BlobTable}
    (done : (executable.setup blobs).result = (ready, .ok ())) :
    ∃ twin, (again.setup blobs).result = (twin, .ok ()) ∧ ready.Twin twin := by
  obtain ⟨checked, setUp, same⟩ := setup_eq_ok_iff.mp done
  have setUpMade : List.Forall₂ (Step.SetUp executable.values) made ready.steps :=
    forall₂_compose ((List.forall₂_and_left _ _).mpr ⟨blank, stay⟩) setUp
      fun stays done => (stays.2.setUp stays.1).mp done
  obtain ⟨twins, readyTwins, pairs⟩ := exists_twins remade madeFor setUpMade
  have sameNodes : again.steps.map (·.node) = executable.steps.map (·.node) :=
    (nodes_of_remade remade).trans (Step.Stays.nodes_eq stay).symm
  refine ⟨{ again with
    steps := twins
    trace := (setUpSteps again.settings again.values again.steps again.trace).trace
    state := .bound }, setup_eq_ok_iff.mpr ⟨?_, ?_, rfl⟩, ?_⟩
  · rw [sameNodes, sameValues]
    exact checked
  · rw [sameValues]
    exact readyTwins
  · rw [same]
    exact ⟨sameValues, pairs, rfl, rfl⟩

/-- A reshaped runtime is a rebuilt one.

A graph has been built by any calls and compiled with a standard catalog, and any calls have been
made on the compiled graph since. The definitions of the graph are then accepted once more with the
current shapes, call by call, with the same replies. The rebuilt graph compiles in any later state
of the workshop. Wherever a set-up succeeds for the graph compiled first, it succeeds for the
rebuilt one, and from then on runs from the same blobs end alike: with the same outcome, where the
order of the tiles decides at most which contract is broken, and with the same blobs. -/
theorem reshape_equivalent_to_rebuild (features : Features) (count : Nat)
    (calls : List BuildCall) (settings : Settings) (workshop middle : Workshop)
    (executable : Executable StandardOperator) (closed : Graph)
    (compiled : compile (Catalog.standard features)
      ((Graph.withExternalValues count).afterCalls calls) settings workshop =
        (.ok (executable, closed), middle))
    (history : List SessionCall) (session : Session)
    (reached : (Session.start executable).afterCalls history = session) :
    ∃ rebuilt : Graph,
      (Graph.withExternalValues count).Replays
        (reshapedLog session.executable.shapes
          ((Graph.withExternalValues count).definitions calls)) rebuilt ∧
      rebuilt.values = session.executable.values ∧
      ∀ later : Workshop, later.Extends middle →
        ∃ again closedAgain after,
          compile (Catalog.standard features) rebuilt settings later =
            (.ok (again, closedAgain), after) ∧
          ∀ (blobs : BlobTable) (ready : Executable StandardOperator),
            (session.executable.setup blobs).result = (ready, .ok ()) →
            ∃ readyAgain, (again.setup blobs).result = (readyAgain, .ok ()) ∧
              ∀ (contents : BlobTable) (schedule other : Schedule),
                let ran := ((⟨ready, contents⟩ : Bound StandardOperator).run schedule).result
                let ranAgain :=
                  ((⟨readyAgain, contents⟩ : Bound StandardOperator).run other).result
                ranAgain.1.blobs = ran.1.blobs ∧ ran.2.Agrees ranAgain.2 ∧
                  (schedule = other → ranAgain.2 = ran.2) := by
  have wellFormed := Graph.wellFormed_afterCalls count calls
  have admitted := Graph.admitted_afterCalls count calls
  obtain ⟨made, _⟩ := (compile_ends features _ settings).of_ok compiled
  have blank := fun step listed => (operators_of_made made.steps step listed).blank_eq
  have sound := (made.sound admitted).afterCalls wellFormed blank history
  rw [reached] at sound
  have table := sound.executes.table
  have values := Graph.reshapedTo_values wellFormed table
  have replays := Graph.replays_definitions (Graph.wellFormed_withExternalValues count) calls
    (Graph.admitsShapes_of_executes sound.executes)
  rw [Graph.reshapedTo_withExternalValues] at replays
  refine ⟨_, replays, values, fun later extended => ?_⟩
  have tableRebuilt : ReshapedTable ((Graph.withExternalValues count).afterCalls calls).values
      (((Graph.withExternalValues count).afterCalls calls).reshapedTo
        session.executable.shapes).values := by
    unfold Executable.shapes
    rw [values]
    exact table
  obtain ⟨_, repeated⟩ := compile_repeats features settings tableRebuilt rfl admitted workshop _
    middle compiled
  obtain ⟨⟨again, closedAgain⟩, after, ranAgain, _, remade⟩ := repeated later extended
  refine ⟨again, closedAgain, after, ranAgain, fun blobs ready done => ?_⟩
  obtain ⟨madeAgain, _⟩ := (compile_ends features _ settings).of_ok ranAgain
  have sameValues : again.values = session.executable.values := madeAgain.values_eq.trans values
  have madeFor : ∀ step ∈ again.steps,
      step.operator.MadeFor step.node session.executable.values := by
    rw [← sameValues, madeAgain.values_eq]
    exact operators_of_made madeAgain.steps
  obtain ⟨twin, doneAgain, twins⟩ := Executable.Twin.of_setup sameValues remade madeFor sound.steps
    blank done
  exact ⟨twin, doneAgain, twins.run⟩

/-- The theorem applies to the chained graph after a reshape to two elements, a rejected reshape
and a set-up. -/
theorem reshape_equivalent_to_rebuild_chained :
    ∃ (session : Session) (rebuilt : Graph),
      session.executable.shapes = [[2], [2], [2]] ∧
      (Graph.withExternalValues 2).Replays
        (reshapedLog session.executable.shapes
          ((Graph.withExternalValues 2).definitions chainedGraph)) rebuilt ∧
      rebuilt.values = session.executable.values := by
  have compiled : compile (Catalog.standard .portable)
      ((Graph.withExternalValues 2).afterCalls chainedGraph) {} {} =
        (.ok (chainedExecutable, ((Graph.withExternalValues 2).afterCalls chainedGraph).closed),
          (compile (Catalog.standard .portable)
            ((Graph.withExternalValues 2).afterCalls chainedGraph) {} {}).2) :=
    Prod.ext (by cbv) rfl
  let session := (Session.start chainedExecutable).afterCalls
    [.reshape 0 [2], .reshape 1 [3], .setup (chainedBlobs (Array.replicate 8 0))]
  obtain ⟨rebuilt, replays, same, _⟩ := reshape_equivalent_to_rebuild .portable 2 chainedGraph {} {}
    _ chainedExecutable _ compiled _ session rfl
  exact ⟨session, rebuilt, by decide +kernel, replays, same⟩

end TensorEngine
