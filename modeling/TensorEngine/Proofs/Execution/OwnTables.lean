import TensorEngine.Proofs.Execution.Acceptance
import TensorEngine.Proofs.Execution.HostFreedom
import TensorEngine.Proofs.Kernel.LookUp

/-!
Contract: nodes with tables compute their own function, whatever shares the cache of tables.

Owns:
- the theorem that every operator that looks codes up maps every byte by the function of its own
  node, after any compilations that share a cache and after any calls.

Does not own: how a cache tells tables apart.
-/

namespace TensorEngine

open Making TensorEngine.Numeric

/-- In a compiled graph, an operator for codes of a tabulated function looks them up in the table of
its own node, whatever calls have been made. -/
theorem CompileJob.looksUp {job : CompileJob} (reached : TablesReached job.tables)
    {workshop : Workshop} {executable : Executable StandardOperator} {closed : Graph}
    (ran : (job.run workshop).1 = .ok (executable, closed)) (history : List SessionCall)
    {step : Step StandardOperator}
    (listed : step ∈ ((Session.start executable).afterCalls history).executable.steps)
    (tabulated : step.node.kind.IsTabulated)
    (coded : step.node.compute = .qs8 ∨ step.node.compute = .qu8) :
    ∃ function element source target table,
      step.node.MapsCodes job.graph.values function element source target ∧
      function.tabulate element source target = .ok table ∧ step.operator.table? = some table := by
  obtain ⟨made, among, node, stays⟩ := exists_made ran history listed
  have maps := tabulated.isMapping.1
  rw [stays.node_eq] at maps tabulated coded ⊢
  have alone := (job.tabulates workshop reached.tabulatedByKey).2 _ ran made among maps
  obtain ⟨operands, output, admits⟩ := job.exists_admits node .portable 1
  obtain ⟨function, element, source, target, table, own, filled, found⟩ :=
    alone.looksUp admits tabulated coded
  refine ⟨function, element, source, target, table, own, filled, ?_⟩
  rw [← StandardOperator.table?_blank, stays.blank_eq, StandardOperator.table?_blank]
  exact found

/-- A compilation of a graph without products always succeeds. -/
theorem CompileJob.exists_run_of_noProducts (job : CompileJob)
    (tiled : 0 < job.settings.tileElements)
    (others : ∀ node ∈ job.graph.nodes, node.kind ≠ .fullyConnected) (workshop : Workshop) :
    ∃ made, (job.run workshop).1 = .ok made :=
  exists_compile_of_noProducts job.features tiled (Graph.wellFormed_afterCalls _ _)
    (Graph.admitted_afterCalls _ _) others _

/-- Nodes with tables compute their own function.

Constructed graphs have been compiled one after another on hosts with any features, and each has
been given the cache of tables that another one left, empty at first, if there is one. Of the last
one, take any node of codes whose function is the logistic function, the hyperbolic tangent or a
leaky rectifier. Its operator takes any two shapes of equally many elements, whatever calls have
been made on the compiled graph. A run then succeeds on buffers that hold as many bytes. Of every
byte it makes the byte with the code that the function of this node has for the code in that byte,
between the parameters of the input and the output of this node, and it leaves the bytes past them
as they are. -/
theorem lookUp_maps_by_own_function (job : CompileJob) (reached : TablesReached job.tables)
    (workshop : Workshop) (executable : Executable StandardOperator) (closed : Graph)
    (ran : (job.run workshop).1 = .ok (executable, closed)) (history : List SessionCall) :
    ∀ step ∈ ((Session.start executable).afterCalls history).executable.steps,
      step.node.kind.IsTabulated → step.node.compute = .qs8 ∨ step.node.compute = .qu8 →
      ∃ function element source target,
        step.node.MapsCodes job.graph.values function element source target ∧
        ∀ shapes input output, shapes[0]? = some input →
          input.elementCount = output.elementCount →
          ∃ ready, Operator.setup step.operator shapes output = (ready, .ok ()) ∧
            ∀ schedule inputs buffer room, inputs[0]? = some buffer →
              output.elementCount ≤ buffer.size → output.elementCount ≤ room.size →
              let done := Operator.run ready schedule inputs room
              done.outcome = .ok () ∧
                (∀ index < output.elementCount, ∃ byte result,
                  buffer.bytes[index]? = some byte ∧ done.written[index]? = some result ∧
                    function.Maps element source target byte result) ∧
                ∀ index, output.elementCount ≤ index →
                  done.written[index]? = room.bytes[index]? := by
  intro step listed tabulated coded
  obtain ⟨function, element, source, target, table, own, filled, found⟩ :=
    CompileJob.looksUp reached ran history listed tabulated coded
  refine ⟨function, element, source, target, own, ?_⟩
  intro shapes input output first sameCount
  obtain ⟨ready, done, foundReady, count⟩ :=
    StandardOperator.exists_setup_of_table found first sameCount
  refine ⟨ready, done, ?_⟩
  intro schedule inputs buffer room given enough fits
  rw [← count] at enough fits ⊢
  have contents := StandardOperator.contents_of_table foundReady schedule given enough fits
  have size : ((buffer.bytes.extract 0 ready.elementCount).map table.entry).size =
      ready.elementCount := by
    rw [Array.size_map, Array.size_extract]
    exact Nat.min_eq_left enough
  obtain ⟨ended, front, rest⟩ :=
    StandardOperator.run_of_contents contents (by rw [size]; exact fits)
  rw [size] at front rest
  refine ⟨ended, fun index inside => ?_, rest⟩
  have bound : index < buffer.bytes.size := Nat.lt_of_lt_of_le inside enough
  have foundByte := Array.getElem?_eq_getElem bound
  refine ⟨_, table.entry _, foundByte, ?_, UnaryFunction.maps_of_tabulate own.coded filled _⟩
  rw [front index inside, Array.getElem?_map, Array.getElem?_extract, if_pos (by omega),
    Nat.zero_add, foundByte]
  rfl

/-- Three codes that a leaky rectifier of some slope is applied to. -/
def leakyGraph (slope : Float32) : List BuildCall :=
  [.quantizedTensor ⟨.qint8, [3], none, some 0, .externalInput⟩ ⟨0, Binary32.one⟩,
    .quantizedTensor ⟨.qint8, [3], none, some 1, .externalOutput⟩ ⟨0, Binary32.one⟩,
    .node .leakyRelu [0] [1] (.negativeSlope slope) 0]

/-- A compilation of the leaky rectifier that is given a cache of tables. -/
def leakyJob (slope : Float32) (tables : Option CodeCache) : CompileJob :=
  ⟨.portable, 2, leakyGraph slope, {}, tables⟩

-- Stated for any cache, so that nothing has to fill the table of the one below.
theorem leakyJob_reached {slope : Float32} {tables : Option CodeCache}
    (reached : TablesReached tables) : TablesReached (leakyJob slope tables).tables := reached

/-- A compilation with the slope 0.5 that is given the cache which one with the slope 1 leaves. -/
def gentleJob : CompileJob :=
  leakyJob (Float32.ofBits 0x3f000000) ((leakyJob Binary32.one (some {})).run {}).2.code

theorem gentleJob_reached : TablesReached gentleJob.tables :=
  leakyJob_reached (.compiled _ _ (leakyJob_reached .empty))

/-- The theorem applies to two leaky rectifiers that differ in their slope only and share a cache:
the second one maps three codes by its own slope. -/
theorem lookUp_maps_by_own_function_slopes :
    ∃ made, (gentleJob.run {}).1 = .ok made ∧ ∀ step ∈ made.1.steps,
      ∃ ready, Operator.setup step.operator [[3]] [3] = (ready, .ok ()) ∧
        let done := Operator.run ready .sequential [Buffer.fresh #[246, 0, 10]]
          (Buffer.fresh #[0, 0, 0])
        ∀ index < 3, ∃ byte result, #[246, 0, 10][index]? = some byte ∧
          done.written[index]? = some result ∧
            (UnaryFunction.leakyRelu (Float32.ofBits 0x3f000000)).Maps .qint8 ⟨0, Binary32.one⟩
              ⟨0, Binary32.one⟩ byte result := by
  have nodes : gentleJob.graph.nodes =
      [⟨0, .leakyRelu, .qs8, [0], [1], .negativeSlope (Float32.ofBits 0x3f000000), 0⟩] := rfl
  have input : gentleJob.graph.values[0]? =
      some ⟨0, true, .qint8, [3], some ⟨0, Binary32.one⟩, .externalInput, none, none, [0]⟩ := rfl
  have output : gentleJob.graph.values[1]? =
      some ⟨1, true, .qint8, [3], some ⟨0, Binary32.one⟩, .externalOutput, none, some 0, []⟩ := rfl
  obtain ⟨made, ran⟩ := CompileJob.exists_run_of_noProducts gentleJob (by decide)
    (by rw [nodes]; decide) {}
  refine ⟨made, ran, fun step listed => ?_⟩
  have node : step.node ∈ made.1.steps.map (·.node) := List.mem_map_of_mem listed
  rw [nodes_of_made (CompileJob.compiled ran).steps, nodes, List.mem_singleton] at node
  obtain ⟨function, element, source, target, own, runs⟩ :=
    lookUp_maps_by_own_function gentleJob gentleJob_reached {} made.1 made.2 ran [] step listed
      (by rw [node]; exact .inr (.inr rfl)) (by rw [node]; exact .inl rfl)
  rw [node] at own
  cases own.chosen
  obtain ⟨read, found, rfl, scale⟩ := own.input
  obtain ⟨written, foundOutput, _, scaleOutput⟩ := own.output
  cases input.symm.trans found
  cases output.symm.trans foundOutput
  cases scale
  cases scaleOutput
  obtain ⟨ready, done, run⟩ := runs [[3]] [3] [3] rfl rfl
  exact ⟨ready, done, (run .sequential [Buffer.fresh #[246, 0, 10]] _
    (Buffer.fresh #[0, 0, 0]) rfl (by decide) (by decide)).2.1⟩

end TensorEngine
