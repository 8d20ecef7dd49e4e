import TensorEngine.Proofs.Execution.ProductSums
import TensorEngine.Proofs.Kernel.NumberProducts

/-!
Contract: compiled products of numbers are the folds that their nodes declare.

Owns:
- the theorem that every product of numbers of a compiled graph folds as its own node declares,
  after any compilations that share a cache of packed weights and after any calls;
- the theorem on the results of its runs, which do not depend on the layout of the filter.

Does not own: how weights are packed and rows are worked off.
-/

namespace TensorEngine

open Making TensorEngine.Numeric

/-- In a compiled graph, every product of numbers folds as its own node declares, whatever calls
have been made. -/
theorem CompileJob.Isolated.folds {start : Workshop} {earlier : List CompileJob}
    {job : CompileJob} (isolated : Isolated start (earlier ++ [job]))
    {executable : Executable StandardOperator} {closed : Graph}
    (ran : (job.run (start.afterJobs earlier)).1 = .ok (executable, closed))
    (history : List SessionCall) {step : Step StandardOperator}
    (listed : step ∈ ((Session.start executable).afterCalls history).executable.steps)
    (multiply : step.node.kind = .fullyConnected) {format : NumberFormat}
    (chosen : NumberFormat.ofCompute? step.node.compute = some format) :
    ∃ declared product, step.node.numberProduct? job.graph.values = some declared ∧
      step.operator = .product product ∧ product.Folds declared := by
  obtain ⟨_, _, _, _, _, _, made, product, admits, madeOf, alone, same, body, artifact⟩ :=
    isolated.exists_product ran history listed multiply
  obtain ⟨declared, declares, whole⟩ := admits.exists_numberProduct multiply chosen
  have folds := madeOf.folds multiply alone declares whole
  refine ⟨declared, product, declares, same, ?_, ?_⟩
  · rw [body]
    exact folds.body
  · rw [artifact]
    exact folds.weights

/-! ## Results of runs -/

/-- An input and an output shape, of which the rows have the channels of a product. -/
structure NumberProduct.Takes (declared : NumberProduct) (input output : Shape) : Prop where
  filled : input ≠ []
  channels : input.channels = declared.inner
  count : output.elementCount = input.batch * declared.outputs

instance (declared : NumberProduct) (input output : Shape) :
    Decidable (declared.Takes input output) :=
  decidable_of_iff (input ≠ [] ∧ input.channels = declared.inner ∧
    output.elementCount = input.batch * declared.outputs)
    ⟨fun given => ⟨given.1, given.2.1, given.2.2⟩,
      fun takes => ⟨takes.filled, takes.channels, takes.count⟩⟩

namespace StandardOperator

/-- An operator takes all shapes whose rows have the channels of a product. Set up for them, each of
its runs succeeds on aligned buffers of whole elements that are large enough, leaves the result of
every row in every output channel, and leaves what lies past the results as it is. -/
def Folds (operator : StandardOperator) (declared : NumberProduct) : Prop :=
  ∀ (shapes : List Shape) (input output : Shape), shapes[0]? = some input →
    declared.Takes input output →
    ∃ ready, Operator.setup operator shapes output = (ready, .ok ()) ∧
      ∀ schedule inputs source room, inputs[0]? = some source →
        source.Fits declared.format.width input.elementCount →
        room.Fits declared.format.width output.elementCount →
        let done := Operator.run ready schedule inputs room
        done.outcome = .ok () ∧
          (∀ row < input.batch, ∀ channel < declared.outputs,
            elementBytes done.written declared.format.width (row * declared.outputs + channel) =
              declared.result (fun index => elementBytes source.bytes declared.format.width
                (row * declared.inner + index)) channel) ∧
          ∀ index, output.elementCount * declared.format.width ≤ index →
            done.written[index]? = room.bytes[index]?

/-- Two operators run alike on the shapes that a product takes, in any order of their tiles: they
leave the same bytes. -/
def RunsLike (operator other : StandardOperator) (declared : NumberProduct) : Prop :=
  ∀ (shapes others : List Shape) (input output : Shape), shapes[0]? = some input →
    others[0]? = some input → declared.Takes input output →
    ∀ schedule otherSchedule inputs otherInputs source room, inputs[0]? = some source →
      otherInputs[0]? = some source → source.Fits declared.format.width input.elementCount →
      room.Fits declared.format.width output.elementCount →
      (Operator.run (Operator.setup operator shapes output).1 schedule inputs room).written =
        (Operator.run (Operator.setup other others output).1 otherSchedule otherInputs room).written

/-- Operators that fold by the same weights run alike, whatever the layouts of their filters. -/
theorem Folds.runsLike {operator other : StandardOperator} {declared twin : NumberProduct}
    (folds : operator.Folds declared) (foldsOther : other.Folds twin)
    (same : declared.SameWeights twin) :
    operator.RunsLike other declared := by
  intro shapes others input output first firstOther takes schedule otherSchedule inputs otherInputs
    source room given givenOther fits fitsRoom
  have takesOther : twin.Takes input output :=
    ⟨takes.filled, takes.channels.trans same.inner_eq, by rw [takes.count, same.outputs_eq]⟩
  obtain ⟨ready, done, runs⟩ := folds shapes input output first takes
  obtain ⟨readyOther, doneOther, runsOther⟩ := foldsOther others input output firstOther takesOther
  obtain ⟨_, results, rest⟩ := runs schedule inputs source room given fits fitsRoom
  rw [same.format_eq] at fits fitsRoom
  obtain ⟨_, resultsOther, restOther⟩ :=
    runsOther otherSchedule otherInputs source room givenOther fits fitsRoom
  rw [done, doneOther]
  refine @bytes_ext _ _ _ output.elementCount declared.format.width_pos (fun place inside => ?_)
    fun index past => ?_
  · rw [takes.count] at inside
    have some : 0 < declared.outputs := Nat.pos_of_mul_pos_left (Nat.zero_lt_of_lt inside)
    have row := (Nat.div_lt_iff_lt_mul some).mpr inside
    have channel := Nat.mod_lt place some
    have own := results _ row _ channel
    have others := resultsOther _ row _ (same.outputs_eq ▸ channel)
    rw [Nat.div_add_mod'] at own
    rw [← same.format_eq, ← same.inner_eq, ← same.outputs_eq, Nat.div_add_mod',
      ← same.result_eq _ channel] at others
    exact own.trans others.symm
  · rw [rest index past]
    rw [same.format_eq] at past
    exact (restOther index past).symm

end StandardOperator

/-- A product that folds as a node declares gives the results of that node. -/
theorem Product.Folds.delivers {product : Product} {declared : NumberProduct}
    (folds : product.Folds declared) : (StandardOperator.product product).Folds declared := by
  intro shapes input output first takes
  refine ⟨.product { product with rows := input.batch }, ?_, ?_⟩
  · show (product.setup shapes output).map StandardOperator.product id = _
    rw [folds.setup_eq first takes.filled takes.channels takes.count]
    rfl
  intro schedule inputs source room given fits fitsRoom
  have elements : input.elementCount = input.batch * declared.inner := by
    rw [← takes.channels, Shape.batch_mul_channels]
  rw [elements] at fits
  rw [takes.count] at fitsRoom ⊢
  obtain ⟨bytes, ran, size, results⟩ :=
    (folds.setRows input.batch).contents schedule given fits fitsRoom
  intro done
  rw [show done = _ from StandardOperator.run_eq_of_contents ran]
  refine ⟨rfl, results, fun index past => ?_⟩
  rw [overlay_getElem?, if_neg fun front => Nat.not_lt.mpr past (size ▸ front.1)]

/-- Products of numbers equal their reference.

A constructed graph is compiled on a host with any features, after any other compilations with which
it shares a cache of packed weights whose digests tell weights apart. As long as the sizes of packed
weights fit their words, the compilation is refused for want of memory only. Once it is compiled,
take any product in single or half precision, after any calls on the compiled graph. Its node
declares a filter of either layout, a bias or none, and a range. The operator takes any shapes whose
rows have the input channels, and a run succeeds on any aligned buffers of whole elements that are
large enough, in any order of its tiles. It leaves in every row and output channel the stored number
that the fold over the input channels in their order, from the bias or from positive zero on, has
once it is confined to the range; what lies past the results stays. Any other operator that folds by
the same weights leaves the same bytes, be its filter of the one layout or the other. -/
theorem number_products_equal_reference (start : Workshop) (earlier : List CompileJob)
    (job : CompileJob) (isolated : CompileJob.Isolated start (earlier ++ [job])) :
    (0 < job.settings.tileElements → job.graph.PacksInBounds →
      ∀ fault, (job.run (start.afterJobs earlier)).1 = .error fault → fault.OutOfMemory) ∧
    ∀ executable closed, (job.run (start.afterJobs earlier)).1 = .ok (executable, closed) →
      ∀ history, ∀ step ∈ ((Session.start executable).afterCalls history).executable.steps,
        step.node.kind = .fullyConnected →
        step.node.compute = .fp32 ∨ step.node.compute = .fp16 →
        ∃ declared, step.node.numberProduct? job.graph.values = some declared ∧
          step.operator.Folds declared ∧
          ∀ other twin, StandardOperator.Folds other twin → declared.SameWeights twin →
            step.operator.RunsLike other declared := by
  refine ⟨job.refuses_out_of_memory _, ?_⟩
  intro executable closed ran history step listed multiply numbers
  have format : ∃ format, NumberFormat.ofCompute? step.node.compute = some format := by
    rcases numbers with compute | compute <;> exact ⟨_, by rw [compute]; rfl⟩
  obtain ⟨format, chosen⟩ := format
  obtain ⟨declared, product, declares, same, folds⟩ :=
    isolated.folds ran history listed multiply chosen
  rw [same]
  exact ⟨declared, declares, folds.delivers, fun _ _ => folds.delivers.runsLike⟩

/-- A row of two numbers, multiplied by a filter of a layout, with the biases 10 and -10. -/
def layoutGraph (flags : UInt32) (filter : Bytes) : List BuildCall :=
  [.tensor ⟨.float32, [1, 2], none, some 0, .externalInput⟩,
    .tensor ⟨.float32, [1, 2], none, some 1, .externalOutput⟩,
    .tensor ⟨.float32, [2, 2], some filter, none, .none⟩,
    .tensor ⟨.float32, [2], some #[0, 0, 32, 65, 0, 0, 32, 193], none, .none⟩,
    .node .fullyConnected [0, 2, 3] [1]
      (.outputRange Binary32.negativeInfinity Binary32.infinity) flags]

/-- The filter of the rows 1, 2 and 3, 4. -/
def straightJob : CompileJob := portableJob
  (layoutGraph 0 #[0, 0, 128, 63, 0, 0, 0, 64, 0, 0, 64, 64, 0, 0, 128, 64])

/-- The same filter, transposed. -/
def transposedJob : CompileJob := portableJob
  (layoutGraph 1 #[0, 0, 128, 63, 0, 0, 64, 64, 0, 0, 0, 64, 0, 0, 128, 64])

/-- The theorem applies to the row of 1 and 2, whose first result is `10 + 1 * 1 + 2 * 2`. Both
layouts of the filter leave the same bytes. -/
theorem number_products_equal_reference_layouts :
    ∃ executable closed other closedOther,
      (straightJob.run {}).1 = .ok (executable, closed) ∧
      (transposedJob.run {}).1 = .ok (other, closedOther) ∧
      ∀ step ∈ executable.steps, ∀ twin ∈ other.steps,
        let done := Operator.run (Operator.setup step.operator [[1, 2]] [1, 2]).1 .backwards
          [Buffer.fresh #[0, 0, 128, 63, 0, 0, 0, 64]] (Buffer.fresh (Array.replicate 8 0))
        done.outcome = .ok () ∧ elementBytes done.written 4 0 = [0, 0, 112, 65] ∧
          done.written =
            (Operator.run (Operator.setup twin.operator [[1, 2]] [1, 2]).1 .sequential
              [Buffer.fresh #[0, 0, 128, 63, 0, 0, 0, 64]]
              (Buffer.fresh (Array.replicate 8 0))).written := by
  have nodes : straightJob.graph.nodes = [⟨0, .fullyConnected, .fp32, [0, 2, 3], [1],
      .outputRange Binary32.negativeInfinity Binary32.infinity, 0⟩] := rfl
  have nodesOther : transposedJob.graph.nodes = [⟨0, .fullyConnected, .fp32, [0, 2, 3], [1],
      .outputRange Binary32.negativeInfinity Binary32.infinity, 1⟩] := rfl
  have words : straightJob.graph.FiltersInWords ∧ transposedJob.graph.FiltersInWords := by
    unfold Graph.FiltersInWords
    decide +kernel
  obtain ⟨executable, closed, ran, made⟩ :=
    CompileJob.exists_of_isSome straightJob {} (by decide +kernel)
  obtain ⟨other, closedOther, ranOther, madeOther⟩ :=
    CompileJob.exists_of_isSome transposedJob {} (by decide +kernel)
  refine ⟨executable, closed, other, closedOther, ran, ranOther, ?_⟩
  intro step listed twin listedTwin
  have node : step.node ∈ executable.steps.map (·.node) := List.mem_map_of_mem listed
  have nodeTwin : twin.node ∈ other.steps.map (·.node) := List.mem_map_of_mem listedTwin
  rw [made, nodes, List.mem_singleton] at node
  rw [madeOther, nodesOther, List.mem_singleton] at nodeTwin
  obtain ⟨declared, declares, folds, alike⟩ :=
    (number_products_equal_reference {} [] straightJob (CompileJob.isolated_alone words.1)).2
      executable closed ran [] step listed (by rw [node]) (by rw [node]; exact .inl rfl)
  obtain ⟨declaredTwin, declaresTwin, foldsTwin, _⟩ :=
    (number_products_equal_reference {} [] transposedJob (CompileJob.isolated_alone words.2)).2
      other closedOther ranOther [] twin listedTwin (by rw [nodeTwin])
      (by rw [nodeTwin]; exact .inl rfl)
  rw [node] at declares
  rw [nodeTwin] at declaresTwin
  cases declares
  cases declaresTwin
  have takes := alike _ _ foldsTwin ⟨rfl, rfl, rfl, rfl, rfl, by decide⟩ [[1, 2]] [[1, 2]] [1, 2]
    [1, 2] rfl rfl ⟨by decide, rfl, rfl⟩ .backwards .sequential
    [Buffer.fresh #[0, 0, 128, 63, 0, 0, 0, 64]] [Buffer.fresh #[0, 0, 128, 63, 0, 0, 0, 64]]
    (Buffer.fresh #[0, 0, 128, 63, 0, 0, 0, 64]) (Buffer.fresh (Array.replicate 8 0)) rfl rfl
    (by decide) (by decide)
  obtain ⟨ready, done, run⟩ := folds [[1, 2]] [1, 2] [1, 2] rfl ⟨by decide, rfl, rfl⟩
  obtain ⟨ended, results, _⟩ := run .backwards [Buffer.fresh #[0, 0, 128, 63, 0, 0, 0, 64]]
    (Buffer.fresh #[0, 0, 128, 63, 0, 0, 0, 64]) (Buffer.fresh (Array.replicate 8 0)) rfl
    (by decide) (by decide)
  rw [done] at takes ⊢
  refine ⟨ended, (results 0 (by decide) 0 (by decide)).trans ?_, takes⟩
  decide +kernel

end TensorEngine
