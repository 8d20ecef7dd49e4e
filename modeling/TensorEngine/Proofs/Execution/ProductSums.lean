import TensorEngine.Proofs.Execution.Binding
import TensorEngine.Proofs.Execution.Dataflow
import TensorEngine.Proofs.Kernel.CodeProducts

/-!
Contract: compiled products of codes are the exact sums of their nodes.

Owns:
- the theorem that the products of a compiled graph have the bodies and the weights of their nodes,
  and that a compilation is refused for want of memory only;
- the theorem that every product of codes of a compiled graph multiplies as its own node declares,
  after any compilations that share a cache of packed weights and after any calls;
- the theorem on the results of its runs.

Does not own: how weights are packed.
-/

namespace TensorEngine

open Making TensorEngine.Numeric

/-- A compilation in whole tiles whose packed weights fit their words is refused for want of memory
only. -/
theorem CompileJob.refuses_out_of_memory (job : CompileJob) (workshop : Workshop)
    (tiled : 0 < job.settings.tileElements) (packs : job.graph.PacksInBounds) (fault : Fault)
    (failed : (job.run workshop).1 = .error fault) : fault.OutOfMemory := by
  have accepted := @compile_accepts job.features job.settings tiled job.graph
    (Graph.wellFormed_afterCalls _ _) (Graph.admitted_afterCalls _ _) packs
    { workshop with code := job.tables }
  unfold run at failed
  rw [failed] at accepted
  exact accepted

/-- Every factory that the library offers for a product makes it from the operands of its node. -/
theorem Catalog.Offers.multiplies {context : CreateContext} {factory : Factory StandardOperator}
    (offers : Catalog.Offers context.node.key factory) :
    (factory.create context).Ends (fun operator => context.node.kind = .fullyConnected →
      ∃ product input filter output zeroPoint, operator = .product product ∧
        product.MadeOf context input filter output zeroPoint) (fun _ => True) := by
  refine (@Catalog.Offers.keeps (fun _ => True) _ _ _ offers (fun _ => ?_)
    fun other _ _ multiply => absurd multiply other).to_ends
  refine (Product.factory_keeps fun _ _ _ => Keeps.packed_apart _ _).mono ?_
  rintro product ⟨input, filter, output, zeroPoint, made, -⟩ _
  exact ⟨product, input, filter, output, zeroPoint, rfl, made⟩

/-- What agrees with a product up to setup is a product with its body and weights. -/
theorem StandardOperator.exists_product_of_blank {operator : StandardOperator} {made : Product}
    (blank : operator.blank = (StandardOperator.product made).blank) :
    ∃ product, operator = .product product ∧ product.body = made.body ∧
      product.artifact = made.artifact := by
  cases operator with
  | product product =>
      injection blank with blank
      obtain ⟨sameBody, sameArtifact, _⟩ := Product.mk.inj blank
      exact ⟨product, rfl, sameBody, sameArtifact⟩
  | _ => cases blank

/-- In a compiled graph, every product has the body and the weights that are made for its own node,
whatever calls have been made. -/
theorem CompileJob.Isolated.exists_product {start : Workshop} {earlier : List CompileJob}
    {job : CompileJob} (isolated : Isolated start (earlier ++ [job]))
    {executable : Executable StandardOperator} {closed : Graph}
    (ran : (job.run (start.afterJobs earlier)).1 = .ok (executable, closed))
    (history : List SessionCall) {step : Step StandardOperator}
    (listed : step ∈ ((Session.start executable).afterCalls history).executable.steps)
    (multiply : step.node.kind = .fullyConnected) :
    ∃ operands result input filter output zeroPoint made product,
      (job.context step.node).Admits operands result ∧
      Product.MadeOf made (job.context step.node) input filter output zeroPoint ∧
      step.node.PackedAlone job.graph.values made.artifact.weights ∧
      step.operator = .product product ∧ product.body = made.body ∧
      product.artifact = made.artifact := by
  obtain ⟨before, among, node, stays⟩ := exists_made ran history listed
  rw [stays.node_eq] at multiply ⊢
  obtain ⟨operands, result, admits⟩ := job.exists_admits node _ _
  obtain ⟨made, input, filter, output, zeroPoint, same, madeOf⟩ :=
    ensures ran (fun _ _ _ _ _ offers => offers.multiplies) before among multiply
  have holds := (isolated.made ran).holds before among
  have blank := stays.blank_eq
  rw [same] at holds blank
  obtain ⟨product, found, parts⟩ := StandardOperator.exists_product_of_blank blank
  exact ⟨operands, result, input, filter, output, zeroPoint, made, product, admits, madeOf, holds,
    found, parts⟩

/-- In a compiled graph, every product of codes multiplies as its own node declares, whatever calls
have been made. -/
theorem CompileJob.Isolated.realizes {start : Workshop} {earlier : List CompileJob}
    {job : CompileJob} (isolated : Isolated start (earlier ++ [job]))
    {executable : Executable StandardOperator} {closed : Graph}
    (ran : (job.run (start.afterJobs earlier)).1 = .ok (executable, closed))
    (history : List SessionCall) {step : Step StandardOperator}
    (listed : step ∈ ((Session.start executable).afterCalls history).executable.steps)
    (multiply : step.node.kind = .fullyConnected) (codes : step.node.compute = .qs8) :
    ∃ declared product, step.node.DeclaresProduct job.graph.values declared ∧
      step.operator = .product product ∧ product.Realizes declared := by
  obtain ⟨_, _, _, _, _, _, made, product, admits, madeOf, alone, same, body, artifact⟩ :=
    isolated.exists_product ran history listed multiply
  obtain ⟨declared, declares⟩ := admits.exists_declared multiply codes
  have realizes := madeOf.realizes admits codes alone declares
  refine ⟨declared, product, declares, same, ?_, ?_⟩
  · rw [body]
    exact realizes.body
  · rw [artifact]
    exact realizes.weights

/-! ## Results of runs -/

/-- An operator takes all shapes whose rows have the input channels of a product. Set up for them,
each of its runs succeeds on buffers that are large enough, leaves in every output channel of every
row a result of the codes of that row, and leaves what lies past the results as it is. -/
def StandardOperator.Delivers (operator : StandardOperator) (declared : CodeProduct)
    (isResult : (Nat → Int8) → Nat → Int8 → Prop) : Prop :=
  ∀ (shapes : List Shape) (input output : Shape), shapes[0]? = some input → input ≠ [] →
    input.channels = declared.inner → output.elementCount = input.batch * declared.outputs →
    ∃ ready, Operator.setup operator shapes output = (ready, .ok ()) ∧
      ∀ schedule inputs source room, inputs[0]? = some source →
        input.elementCount ≤ source.size → source.size < 2 ^ 64 →
        output.elementCount ≤ room.size →
        let done := Operator.run ready schedule inputs room
        done.outcome = .ok () ∧
          (∀ row < input.batch, ∀ channel < declared.outputs, ∃ result : Int8,
            done.written[row * declared.outputs + channel]? = some result.toUInt8 ∧
            isResult (fun index => (source.bytes.getD (row * declared.inner + index) 0).toInt8)
              channel result) ∧
          ∀ index, output.elementCount ≤ index → done.written[index]? = room.bytes[index]?

theorem StandardOperator.Delivers.mono {operator : StandardOperator} {declared : CodeProduct}
    {isResult weaker : (Nat → Int8) → Nat → Int8 → Prop}
    (delivers : operator.Delivers declared isResult)
    (implies : ∀ row, ∀ channel < declared.outputs, ∀ result, isResult row channel result →
      weaker row channel result) : operator.Delivers declared weaker := by
  intro shapes input output first filled channels count
  obtain ⟨ready, done, runs⟩ := delivers shapes input output first filled channels count
  refine ⟨ready, done, fun schedule inputs source room given enough short fits => ?_⟩
  obtain ⟨ended, results, rest⟩ := runs schedule inputs source room given enough short fits
  refine ⟨ended, fun row rowInside channel inside => ?_, rest⟩
  obtain ⟨result, written, own⟩ := results row rowInside channel inside
  exact ⟨result, written, implies _ channel inside result own⟩

/-- A product that multiplies as a node declares gives the results of that node. -/
theorem Product.Realizes.delivers {product : Product} {declared : CodeProduct}
    (realizes : product.Realizes declared) :
    (StandardOperator.product product).Delivers declared declared.Gives := by
  intro shapes input output first filled channels count
  refine ⟨.product { product with rows := input.batch }, ?_, ?_⟩
  · show (product.setup shapes output).map StandardOperator.product id = _
    rw [realizes.exists_setup first filled channels count]
    rfl
  intro schedule inputs source room given enough short fits
  have elements : input.batch * declared.inner = input.elementCount := by
    rw [← channels, Shape.batch_mul_channels]
  obtain ⟨written, ranContents, size, each⟩ := (realizes.setRows input.batch).contents schedule
    given (by rw [← elements] at enough; exact enough) short (by rw [count] at fits; exact fits)
  have whole : (written.map Int8.toUInt8).size = output.elementCount := by
    rw [Array.size_map, size, count]
  have ranOperator : (StandardOperator.product { product with rows := input.batch }).contents
      schedule inputs room = .ok (written.map Int8.toUInt8) := ranContents
  obtain ⟨ended, front, rest⟩ :=
    StandardOperator.run_of_contents ranOperator (by rw [whole]; exact fits)
  rw [whole] at rest
  refine ⟨ended, fun row rowInside channel inside => ?_, rest⟩
  obtain ⟨result, found, gives⟩ := each row rowInside channel inside
  obtain ⟨bound, _⟩ := Array.getElem?_eq_some_iff.mp found
  rw [← Array.size_map (f := Int8.toUInt8)] at bound
  exact ⟨result, by rw [front _ bound, Array.getElem?_map, found]; rfl, gives⟩

/-- Products of codes equal their reference.

A constructed graph is compiled on a host with any features, after any other compilations with which
it shares a cache of packed weights whose digests tell weights apart. As long as there are at most
`2 ^ 24` input channels and the sizes of packed weights fit their words, the compilation is refused
for want of memory only. Once it is compiled, take any product of codes, after any calls on the
compiled graph. Its node declares a filter of either layout, a bias or none, and any parameters. The
operator takes any shapes whose rows have the input channels, and a run succeeds on any buffers that
are large enough. It leaves in every row and output channel the code of a 32-bit sum that is
congruent, modulo `2 ^ 32`, to the bias plus the sum of the distances of the codes of that row from
their zero point times the weights. What lies past the results stays. -/
theorem code_products_equal_reference (start : Workshop) (earlier : List CompileJob)
    (job : CompileJob) (isolated : CompileJob.Isolated start (earlier ++ [job])) :
    (0 < job.settings.tileElements → job.graph.PacksInBounds →
      ∀ fault, (job.run (start.afterJobs earlier)).1 = .error fault → fault.OutOfMemory) ∧
    ∀ executable closed, (job.run (start.afterJobs earlier)).1 = .ok (executable, closed) →
      ∀ history, ∀ step ∈ ((Session.start executable).afterCalls history).executable.steps,
        step.node.kind = .fullyConnected → step.node.compute = .qs8 →
        ∃ declared, step.node.DeclaresProduct job.graph.values declared ∧
          step.operator.Delivers declared declared.Gives := by
  refine ⟨job.refuses_out_of_memory _, ?_⟩
  intro executable closed ran history step listed multiply codes
  obtain ⟨declared, product, declares, same, realizes⟩ :=
    isolated.realizes ran history listed multiply codes
  rw [same]
  exact ⟨declared, declares, realizes.delivers⟩

/-- Two codes with the zero point -3, multiplied by a filter that lists three output channels for
each input channel, with a bias. -/
def shiftedGraph : List BuildCall :=
  [.quantizedTensor ⟨.qint8, [1, 2], none, some 0, .externalInput⟩ ⟨-3, Binary32.one⟩,
    .quantizedTensor ⟨.qint8, [1, 3], none, some 1, .externalOutput⟩ ⟨5, Binary32.one⟩,
    .quantizedTensor ⟨.qint8, [2, 3], some #[1, 2, 3, 4, 5, 255], none, .none⟩ ⟨0, Binary32.one⟩,
    .quantizedTensor ⟨.qint32, [3], some #[10, 0, 0, 0, 246, 255, 255, 255, 0, 0, 0, 0], none,
      .none⟩ ⟨0, Binary32.one⟩,
    .node .fullyConnected [0, 2, 3] [1]
      (.outputRange Binary32.negativeInfinity Binary32.infinity) 1]

def shiftedProduct : CodeProduct where
  inner := 2
  outputs := 3
  transposed := true
  input := ⟨-3, Binary32.one⟩
  filter := ⟨#[1, 2, 3, 4, 5, -1], ⟨0, Binary32.one⟩⟩
  bias := some ⟨#[10, -10, 0], ⟨0, Binary32.one⟩⟩
  output := ⟨5, Binary32.one⟩
  range := (Binary32.negativeInfinity, Binary32.infinity)

theorem shiftedGraph_declares {node : Node}
    (listed : node ∈ (portableJob shiftedGraph).graph.nodes) :
    node.DeclaresProduct (portableJob shiftedGraph).graph.values shiftedProduct ∧
      node.compute = .qs8 := by
  have nodes : (portableJob shiftedGraph).graph.nodes = [⟨0, .fullyConnected, .qs8, [0, 2, 3], [1],
      .outputRange Binary32.negativeInfinity Binary32.infinity, 1⟩] := rfl
  rw [nodes, List.mem_singleton] at listed
  rw [listed]
  have finite : Binary32.one.isFinite = true := by decide
  have positive : 0 < Binary32.value Binary32.one := by decide +kernel
  have one : ∀ zeroPoint, (⟨zeroPoint, Binary32.one⟩ : Quantization).IsScaled :=
    fun _ => ⟨finite, positive⟩
  refine ⟨?_, rfl⟩
  exact {
    multiply := rfl
    transposed_eq := by decide
    range_eq := rfl
    input := ⟨_, rfl, rfl, rfl⟩
    scaled := one _
    filter := ⟨_, rfl, ⟨rfl, ⟨_, rfl, by decide⟩, rfl, one _⟩, rfl⟩
    bias := .some ⟨rfl, ⟨_, rfl, by decide⟩, rfl, one _⟩
    output := ⟨_, rfl, rfl, rfl⟩
    entries := rfl
    biases := by
      rintro _ ⟨⟩
      exact ⟨rfl, rfl⟩
    symmetric := rfl }

/-- The theorem applies to a product with three output channels, of which the first one starts at
10 and has the weights 1 and 4: it maps the codes 1 and 2 to the code of
`10 + (1 + 3) * 1 + (2 + 3) * 4`. -/
theorem code_products_equal_reference_shifted :
    ∃ executable closed, ((portableJob shiftedGraph).run {}).1 = .ok (executable, closed) ∧
      ∀ step ∈ executable.steps, ∃ ready,
        Operator.setup step.operator [[1, 2], [2, 3], [3]] [1, 3] = (ready, .ok ()) ∧
          let done := Operator.run ready .backwards [Buffer.fresh #[1, 2]]
            (Buffer.fresh #[0, 0, 0])
          done.outcome = .ok () ∧ done.written[0]? = some 39 := by
  obtain ⟨executable, closed, ran, nodes⟩ :=
    CompileJob.exists_of_isSome (portableJob shiftedGraph) {} (by decide +kernel)
  have words : (portableJob shiftedGraph).graph.FiltersInWords := by
    unfold Graph.FiltersInWords
    decide +kernel
  -- a row of codes has one result, so that the run can only have written this one
  have gives : shiftedProduct.Gives
      (fun index => ((Buffer.fresh #[1, 2]).bytes.getD (0 * 2 + index) 0).toInt8) 0 39 :=
    ⟨34, by decide, (-128, 127), by decide +kernel, by decide +kernel⟩
  refine ⟨executable, closed, ran, fun step listed => ?_⟩
  obtain ⟨declares, codes⟩ := shiftedGraph_declares (by
    rw [← nodes]
    exact List.mem_map_of_mem listed)
  obtain ⟨declared, declaresToo, delivers⟩ :=
    (code_products_equal_reference {} [] _ (CompileJob.isolated_alone words)).2 executable closed
      ran [] step listed declares.multiply codes
  cases declares.unique declaresToo
  obtain ⟨ready, done, run⟩ :=
    delivers [[1, 2], [2, 3], [3]] [1, 2] [1, 3] rfl (by decide) rfl rfl
  obtain ⟨ended, results, _⟩ := run .backwards [Buffer.fresh #[1, 2]] (Buffer.fresh #[1, 2])
    (Buffer.fresh #[0, 0, 0]) rfl (by decide) (by decide) (by decide)
  obtain ⟨result, written, own⟩ := results 0 (by decide) 0 (by decide)
  cases own.unique gives
  exact ⟨ready, done, ended, written⟩

end TensorEngine
