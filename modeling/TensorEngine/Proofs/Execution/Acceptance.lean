import TensorEngine.Proofs.Execution.Compilation
import TensorEngine.Proofs.Kernel.Acceptance

/-!
Contract: every graph that has been constructed compiles unless memory is refused.

Owns:
- the theorem that an admitted node has a key of the catalogs;
- `Graph.PacksInBounds`, the sizes of packed weights fit their words, and `Graph.GrantsRoom`, there
  is room for them;
- the theorem on the compilation of a constructed graph, on any host and with any caches.

Does not own: what the operators compute.
-/

namespace TensorEngine

open Making TensorEngine.Numeric

/-- The key of an admitted node is one of those that catalogs are filled for. -/
theorem Node.Admitted.key_admitted {values operands : List Value} {node : Node} {output : Value}
    (admitted : node.Admitted values operands output) : node.key ∈ OpKey.admitted := by
  have computes : node.compute ∈ node.kind.computeTypes := by
    unfold OpKind.computeTypes
    by_cases convert : node.kind = .convert
    · obtain ⟨input, rest, rfl⟩ := admitted.exists_operand
      have checked := admitted.elements
      rw [convert] at checked
      have listed := OpKind.mem_conversions (OpKind.checkConversion_eq_ok_iff.mp checked)
      rw [if_pos convert]
      exact List.mem_map.mpr ⟨_, listed, rfl⟩
    · obtain ⟨listed, computed⟩ := admitted.computed convert
      rw [if_neg convert]
      exact List.mem_filterMap.mpr ⟨output.element, listed, computed⟩
  unfold OpKey.admitted
  exact List.mem_flatMap.mpr ⟨node.kind, OpKind.mem_all node.kind,
    List.mem_map.mpr ⟨node.compute, computes, rfl⟩⟩

theorem factoryFor_accepts (features : Features) {node : Node} (keyed : node.key ∈ OpKey.admitted)
    {fails : Fault → Prop} :
    (factoryFor (Catalog.standard features) node).Ends
      (fun factory => Catalog.Offers node.key factory) fails := by
  obtain ⟨factory, found, offers⟩ := Catalog.lookup_admitted features keyed
  unfold factoryFor
  rw [found]
  have offered : (Making.ofOutcome (.ok factory)).Ends
      (fun factory => Catalog.Offers node.key factory) fails := fun _ => offers
  exact Ends.reporting (.kernelMissing node (Catalog.standard features).features) offered

/-- A node that has passed all checks, on sound tensors, becomes a step unless room for its weights
is refused. -/
theorem compileStep_accepts (features : Features) (settings : Settings) {values : List Value}
    {node : Node} {operands : List Value} {output : Value}
    (admits : CreateContext.Admits ⟨node, values, (Catalog.standard features).features,
      settings.tileElements⟩ operands output)
    (packs : node.PacksInBounds values) :
    (compileStep (Catalog.standard features) settings values node).Ends (fun _ => True)
      (node.RefusesRoom values) := by
  unfold compileStep
  apply (factoryFor_accepts features admits.node.key_admitted).bind
  intro factory offers
  apply (Ends.report _).bind
  intro _ _
  have accepts := @Catalog.Offers.accepts
    { node := node, values := values, features := (Catalog.standard features).features,
      tileElements := settings.tileElements } factory offers operands output admits packs
  exact (Ends.reporting _ accepts).bind fun _ _ => Ends.pure trivial

/-- The sizes of the packed weights of every product fit their words. -/
def Graph.PacksInBounds (graph : Graph) : Prop :=
  ∀ node ∈ graph.nodes, node.PacksInBounds graph.values

/-- There is room for the weights of every product. -/
def Graph.GrantsRoom (graph : Graph) : Prop :=
  ∀ node ∈ graph.nodes, node.GrantsRoom graph.values

theorem Graph.WellFormed.sound_operand {graph : Graph} (wellFormed : graph.WellFormed)
    {node : Node} (listed : node ∈ graph.nodes) {id : Nat} {value : Value}
    (used : id ∈ node.inputs ++ node.outputs) (found : graph.values[id]? = some value) :
    value.Sound := by
  obtain ⟨index, inside, same⟩ := List.getElem_of_mem listed
  obtain ⟨other, foundOther, dense⟩ :=
    wellFormed.operand (List.getElem?_eq_some_iff.mpr ⟨inside, same⟩) id used
  cases found.symm.trans foundOther
  exact wellFormed.sound found dense

theorem Graph.WellFormed.exists_admits {graph : Graph} (wellFormed : graph.WellFormed)
    (admitted : graph.Admitted) {node : Node} (listed : node ∈ graph.nodes) (features : Features)
    (tileElements : Nat) : ∃ operands output,
      CreateContext.Admits ⟨node, graph.values, features, tileElements⟩ operands output := by
  obtain ⟨operands, output, admittedNode⟩ := admitted node listed
  refine ⟨operands, output, admittedNode, fun operand given => ?_, ?_⟩
  · obtain ⟨id, read, found⟩ := exists_of_forall₂_right admittedNode.found given
    exact wellFormed.sound_operand listed (List.mem_append_left _ read) found
  · obtain ⟨id, outputs, found⟩ := admittedNode.written
    exact wellFormed.sound_operand listed (by simp [outputs]) found

/-- A graph of admitted nodes compiles unless room for the weights of a product is refused. -/
theorem compile_refuses_only (features : Features) {settings : Settings}
    (tiled : 0 < settings.tileElements) {graph : Graph} (wellFormed : graph.WellFormed)
    (admitted : graph.Admitted) (packs : graph.PacksInBounds) :
    (compile (Catalog.standard features) graph settings).Ends (fun _ => True)
      (fun fault => ∃ node ∈ graph.nodes, node.RefusesRoom graph.values fault) := by
  have steps : ∀ node ∈ graph.nodes,
      (compileStep (Catalog.standard features) settings graph.values node).Ends (fun _ => True)
        (fun fault => ∃ node ∈ graph.nodes, node.RefusesRoom graph.values fault) := by
    intro node listed
    obtain ⟨operands, output, admits⟩ := wellFormed.exists_admits admitted listed
      (Catalog.standard features).features settings.tileElements
    exact (compileStep_accepts features settings admits (packs node listed)).mono_fails
      fun _ may => ⟨node, listed, may⟩
  unfold compile
  rw [if_neg (Nat.ne_of_gt tiled)]
  apply (Ends.mapM steps).bind
  intro _ _
  apply (Ends.report _).bind
  intro _ _
  have looked : Ends (get : Making Workshop) (fun _ => True)
      (fun fault => ∃ node ∈ graph.nodes, node.RefusesRoom graph.values fault) := fun _ => trivial
  exact looked.bind fun _ _ => Ends.pure trivial

theorem compile_accepts (features : Features) {settings : Settings}
    (tiled : 0 < settings.tileElements) {graph : Graph} (wellFormed : graph.WellFormed)
    (admitted : graph.Admitted) (packs : graph.PacksInBounds) :
    (compile (Catalog.standard features) graph settings).Ends (fun _ => True)
      Fault.OutOfMemory :=
  (compile_refuses_only features tiled wellFormed admitted packs).mono_fails
    fun _ ⟨node, listed, refused⟩ => refused.outOfMemory (packs node listed)

/-- A graph compiles when there is room for the weights of its products. -/
theorem exists_compile_of_grantsRoom (features : Features) {settings : Settings}
    (tiled : 0 < settings.tileElements) {graph : Graph} (wellFormed : graph.WellFormed)
    (admitted : graph.Admitted) (packs : graph.PacksInBounds) (grants : graph.GrantsRoom)
    (workshop : Workshop) :
    ∃ made, (compile (Catalog.standard features) graph settings workshop).1 = .ok made := by
  have ended :=
    @compile_refuses_only features settings tiled graph wellFormed admitted packs workshop
  cases ran : (compile (Catalog.standard features) graph settings workshop).1 with
  | ok made => exact ⟨made, rfl⟩
  | error fault =>
      rw [ran] at ended
      obtain ⟨node, listed, refused⟩ := ended
      exact absurd refused ((grants node listed).not_refusesRoom fault)

theorem exists_compile_of_noProducts (features : Features) {settings : Settings}
    (tiled : 0 < settings.tileElements) {graph : Graph} (wellFormed : graph.WellFormed)
    (admitted : graph.Admitted) (others : ∀ node ∈ graph.nodes, node.kind ≠ .fullyConnected)
    (workshop : Workshop) :
    ∃ made, (compile (Catalog.standard features) graph settings workshop).1 = .ok made :=
  exists_compile_of_grantsRoom features tiled wellFormed admitted
    (fun node listed multiply => absurd multiply (others node listed))
    (fun node listed _ _ multiplies => absurd multiplies.kind_eq (others node listed)) workshop

/-- Every graph that has been constructed compiles, unless room for packed weights is refused.

The graph has been built by any calls; the host has any features, tiles have any positive size,
and the caches hold anything. The sizes of packed weights fit their words. Then the catalog has a
factory for every node, and the graph compiles when there is room for the weights of each of its
products. The compilation closes the graph and gives one operator for each node, in the order of the
nodes and of the kind of its node. If there is a fault, it is the one with which room for the
weights of some product of the graph is refused, and it is a want of memory. -/
theorem compile_unless_out_of_memory (features : Features) (count : Nat) (calls : List BuildCall)
    (settings : Settings) (tiled : 0 < settings.tileElements) (workshop : Workshop)
    (packs : ((Graph.withExternalValues count).afterCalls calls).PacksInBounds) :
    let graph := (Graph.withExternalValues count).afterCalls calls
    (∀ node ∈ graph.nodes,
      ∃ factory, (Catalog.standard features).lookup node.key = .ok factory) ∧
    (graph.GrantsRoom → ∃ executable closed,
      (compile (Catalog.standard features) graph settings workshop).1 =
        .ok (executable, closed)) ∧
    match (compile (Catalog.standard features) graph settings workshop).1 with
    | .ok (executable, closed) =>
        closed.isSealed = true ∧ closed = graph.closed ∧
          executable.steps.map (·.node) = graph.nodes ∧
          ∀ step ∈ executable.steps, step.operator.kind = step.node.kind
    | .error fault =>
        fault.OutOfMemory ∧ ∃ node ∈ graph.nodes, node.RefusesRoom graph.values fault := by
  intro graph
  have wellFormed := Graph.wellFormed_afterCalls count calls
  have admitted := Graph.admitted_afterCalls count calls
  refine ⟨fun node listed => ?_, fun grants => ?_, ?_⟩
  · obtain ⟨operands, output, admittedNode⟩ := admitted node listed
    obtain ⟨factory, found, _⟩ := Catalog.lookup_admitted features admittedNode.key_admitted
    exact ⟨factory, found⟩
  · obtain ⟨⟨executable, closed⟩, ran⟩ :=
      exists_compile_of_grantsRoom features tiled wellFormed admitted packs grants workshop
    exact ⟨executable, closed, ran⟩
  · have made := compile_ends features graph settings workshop
    have accepted :=
      @compile_refuses_only features settings tiled graph wellFormed admitted packs workshop
    cases ran : (compile (Catalog.standard features) graph settings workshop).1 with
    | ok result =>
        rw [ran] at made
        obtain ⟨compiled, closed⟩ := made
        exact ⟨by rw [closed]; rfl, closed, nodes_of_made compiled.steps,
          fun step listed => (operators_of_made compiled.steps step listed).kind_eq⟩
    | error fault =>
        rw [ran] at accepted
        obtain ⟨node, listed, refused⟩ := accepted
        exact ⟨refused.outOfMemory (packs node listed), node, listed, refused⟩

/-- A graph of one product of codes, with a filter of three output channels and a bias. -/
def productGraph : List BuildCall :=
  [.quantizedTensor ⟨.qint8, [1, 2], none, some 0, .externalInput⟩ ⟨-3, Binary32.one⟩,
    .quantizedTensor ⟨.qint8, [1, 3], none, some 1, .externalOutput⟩ ⟨5, Binary32.one⟩,
    .quantizedTensor ⟨.qint8, [3, 2], some #[1, 2, 3, 4, 5, 255], none, .none⟩ ⟨0, Binary32.one⟩,
    .quantizedTensor ⟨.qint32, [3], some (Array.replicate 12 7), none, .none⟩ ⟨0, Binary32.one⟩,
    .node .fullyConnected [0, 2, 3] [1]
      (.outputRange Binary32.negativeInfinity Binary32.infinity) 0]

/-- The theorem applies to the graph of one product, which compiles: its weights take one panel. -/
theorem compile_unless_out_of_memory_product :
    let graph := (Graph.withExternalValues 2).afterCalls productGraph
    graph.PacksInBounds ∧ graph.GrantsRoom ∧
      ∃ executable closed,
        (compile (Catalog.standard .portable) graph {} {}).1 = .ok (executable, closed) ∧
          closed.isSealed = true ∧
          executable.steps.map (·.operator.kind) = [.fullyConnected] := by
  intro graph
  have kinds : graph.nodes.map (·.kind) = [.fullyConnected] := by decide +kernel
  have filters : ∀ node ∈ graph.nodes, node.flags = 0 ∧ node.inputs[1]? = some 2 := by
    decide +kernel
  have codes : ∀ node ∈ graph.nodes, node.compute = .qs8 := by decide +kernel
  have shape : (graph.values[2]?).map (·.shape) = some [3, 2] := by decide +kernel
  have channels : ∀ node ∈ graph.nodes, ∀ (filter : Value) (inner outputs : Nat),
      node.operand? graph.values 1 = some filter →
      filterChannels filter.shape node.flags = .ok (inner, outputs) → inner = 2 ∧ outputs = 3 := by
    intro node listed filter inner outputs found given
    obtain ⟨plain, second⟩ := filters node listed
    obtain ⟨id, read, held⟩ := Option.bind_eq_some_iff.mp found
    cases second.symm.trans read
    rw [held] at shape
    rw [show filter.shape = [3, 2] from Option.some.inj shape, plain] at given
    cases given
    exact ⟨rfl, rfl⟩
  have packs : graph.PacksInBounds := by
    intro node listed _ id filter inner outputs read held given
    obtain ⟨rfl, rfl⟩ := channels node listed filter inner outputs
      (Option.bind_eq_some_iff.mpr ⟨id, read, held⟩) given
    exact ⟨by decide, by decide, fun _ => by decide⟩
  have grants : graph.GrantsRoom := by
    intro node listed inner outputs multiplies
    obtain ⟨filter, found, given⟩ := multiplies.channels
    obtain ⟨rfl, rfl⟩ := channels node listed filter inner outputs found given
    exact ⟨by rw [codes node listed]; rfl, rfl⟩
  obtain ⟨_, compiles, compiled⟩ :=
    compile_unless_out_of_memory .portable 2 productGraph {} (by decide) {} packs
  obtain ⟨executable, closed, ran⟩ := compiles grants
  rw [ran] at compiled
  obtain ⟨isSealed, _, nodes, same⟩ := compiled
  refine ⟨packs, grants, executable, closed, ran, isSealed, ?_⟩
  calc executable.steps.map (·.operator.kind)
      = executable.steps.map (·.node.kind) := List.map_congr_left same
    _ = graph.nodes.map (·.kind) := by rw [← nodes, List.map_map]; rfl
    _ = [.fullyConnected] := kinds

end TensorEngine
