import TensorEngine.Proofs.Execution.ConfinedResults
import TensorEngine.Proofs.Execution.MappedElements
import TensorEngine.Proofs.Execution.PooledElements
import TensorEngine.Proofs.Execution.ProductFolds
import TensorEngine.Proofs.Graph.NodeRules
import TensorEngine.Proofs.Numeric.Bounded

/-!
Contract: what an output range without bounds does to the results of numbers.

Owns:
- `Node.Unconfined`, the number that a node has for each place before it confines it;
- `StandardOperator.Leaves`, an operator that stores what becomes of these numbers, and why every
  operator of a compiled graph that confines numbers stores them confined to the range of its node;
- the theorem that a range without bounds loses exactly what is not a number.

Does not own: codes, for which no result is not a number.
-/

namespace TensorEngine

open TensorEngine.Numeric

/-! ## Results before they are confined -/

/-- The mean of elements: their sum in order, from zero on, divided by how many there are. The mean
of no elements is their sum. -/
def NumberFormat.mean (format : NumberFormat) (elements : List (List UInt8)) : Float32 :=
  elements.foldl (fun sum element => sum + format.load element) Binary32.zero /
    Binary32.ofNat (max elements.length 1)

/-- The number that a node has for a place before it confines it to its range, given the shapes of
its operands and of its output and what its inputs hold: for a clamp the element of its input, for a
binary kind the function of two elements at their own multi-indices, for a pooling the mean of a
channel of an image, and for a product the fold over the input channels. -/
inductive Node.Unconfined (node : Node) (values : List Value) (format : NumberFormat)
    (shapes : List Shape) (output : Shape) (inputs : List Buffer) : OpKind → Nat → Float32 → Prop
  | clamp {source : Buffer} {place : Nat} (given : inputs[0]? = some source) :
      Unconfined node values format shapes output inputs .clamp place
        (format.load (elementBytes source.bytes format.width place))
  | combine {kind : OpKind} {function : BinaryFunction} {left right : Shape}
      {first second : Buffer} {index : List Nat}
      (chosen : BinaryFunction.ofKind kind = .ok function)
      (shape : shapes[0]? = some left) (shapeRight : shapes[1]? = some right)
      (given : inputs[0]? = some first) (givenRight : inputs[1]? = some second)
      (valid : output.IsIndex index) :
      Unconfined node values format shapes output inputs kind (output.position index)
        (function.apply
          (format.load (elementBytes first.bytes format.width
            (left.position (left.indexWithin index))))
          (format.load (elementBytes second.bytes format.width
            (right.position (right.indexWithin index)))))
  | average {images height width channels image channel : Nat} {source : Buffer}
      (shape : shapes[0]? = some [images, height, width, channels])
      (given : inputs[0]? = some source) (inside : image < images) (among : channel < channels) :
      Unconfined node values format shapes output inputs .globalAveragePooling2d
        (image * channels + channel)
        (format.mean
          (channelElements source format.width images height width channels image channel))
  | fold {declared : NumberProduct} {input : Shape} {source : Buffer} {row channel : Nat}
      (declares : node.numberProduct? values = some declared) (shape : shapes[0]? = some input)
      (given : inputs[0]? = some source) (inside : row < input.batch)
      (among : channel < declared.outputs) :
      Unconfined node values format shapes output inputs .fullyConnected
        (row * declared.outputs + channel)
        (declared.sum (fun index => elementBytes source.bytes format.width
          (row * declared.inner + index)) channel)

theorem Node.Unconfined.unique {node : Node} {values : List Value} {format : NumberFormat}
    {shapes : List Shape} {output : Shape} {inputs : List Buffer} {kind : OpKind}
    {place another : Nat} {raw other : Float32}
    (first : node.Unconfined values format shapes output inputs kind place raw)
    (second : node.Unconfined values format shapes output inputs kind another other)
    (same : place = another) : raw = other := by
  cases first with
  | clamp given =>
      cases second with
      | clamp givenOther =>
          cases given.symm.trans givenOther
          rw [same]
      -- no function is chosen for a kind that is not binary
      | combine chosen => cases chosen
  | combine chosen shape shapeRight given givenRight valid =>
      cases second with
      | combine chosenOther shapeOther shapeRightOther givenOther givenRightOther validOther =>
          cases chosen.symm.trans chosenOther
          cases shape.symm.trans shapeOther
          cases shapeRight.symm.trans shapeRightOther
          cases given.symm.trans givenOther
          cases givenRight.symm.trans givenRightOther
          rw [valid.position_injective validOther same]
      | _ => cases chosen
  | average shape given inside among =>
      cases second with
      | average shapeOther givenOther insideOther amongOther =>
          cases shape.symm.trans shapeOther
          cases given.symm.trans givenOther
          obtain ⟨rfl, rfl⟩ := row_column_injective among amongOther same
          rfl
      | combine chosen => cases chosen
  | fold declares shape given inside among =>
      cases second with
      | fold declaresOther shapeOther givenOther insideOther amongOther =>
          cases declares.symm.trans declaresOther
          cases given.symm.trans givenOther
          obtain ⟨rfl, rfl⟩ := row_column_injective among amongOther same
          rfl
      | combine chosen => cases chosen

/-! ## What operators leave of them -/

/-- An operator leaves what becomes of the numbers of a node. Set up for any shapes that it takes,
each of its runs succeeds on aligned buffers of whole elements that are large enough, in any order
of its tiles, and stores in every place of the output what becomes of the number that the node has
for it. -/
def StandardOperator.Leaves (operator : StandardOperator) (node : Node) (values : List Value)
    (format : NumberFormat) (becomes : Float32 → Float32) : Prop :=
  ∀ (shapes : List Shape) (output : Shape),
    (Operator.setup operator shapes output).2 = .ok () →
    ∀ schedule inputs room, FitsOperands node.kind format.width shapes inputs →
      room.Fits format.width output.elementCount →
      let done := Operator.run (Operator.setup operator shapes output).1 schedule inputs room
      done.outcome = .ok () ∧ ∀ place < output.elementCount, ∃ raw,
        (∀ other, node.Unconfined values format shapes output inputs node.kind place other ↔
          other = raw) ∧
        elementBytes done.written format.width place = format.store (becomes raw)

/-- What becomes of the one number that a node has for a place. -/
theorem Node.Unconfined.exists_stored {node : Node} {values : List Value} {format : NumberFormat}
    {shapes : List Shape} {output : Shape} {inputs : List Buffer} {place : Nat} {raw : Float32}
    (has : node.Unconfined values format shapes output inputs node.kind place raw)
    {becomes : Float32 → Float32} {stored : List UInt8}
    (same : stored = format.store (becomes raw)) :
    ∃ raw, (∀ other, node.Unconfined values format shapes output inputs node.kind place other ↔
        other = raw) ∧ stored = format.store (becomes raw) :=
  ⟨raw, fun _ => ⟨fun hasOther => hasOther.unique has rfl, fun same => same ▸ has⟩, same⟩

def Node.confine (node : Node) : Float32 → Float32 :=
  Binary32.bounded node.params.range.1 node.params.range.2

theorem meanOfNumbers_apply {α : Type} [Storage α] (load : α → Float32) (store : Float32 → α)
    (low high : Float32) (elements : List (List UInt8)) :
    (PooledMean.of (Pooling.meanOfNumbers load store low high)).apply elements =
      .ok ((NumberFormat.of load store).store
        (Binary32.bounded low high ((NumberFormat.of load store).mean elements))) := by
  unfold NumberFormat.mean PooledMean.of Pooling.meanOfNumbers
  dsimp only
  rw [List.foldl_map, List.length_map]
  rfl

section Families

variable {node : Node} {values : List Value} {format : NumberFormat}
  (chosen : NumberFormat.ofCompute? node.compute = some format)

include chosen

theorem StandardOperator.Maps.leaves {operator : StandardOperator} {map : ElementMap}
    (maps : operator.Maps map) (clamp : node.kind = .clamp)
    (declared : node.Maps values .clamp node.compute map) :
    operator.Leaves node values format node.confine := by
  intro shapes output taken schedule inputs room lends fitsRoom
  obtain ⟨takes, runs⟩ := maps shapes output
  obtain ⟨input, first, count⟩ := takes.mp taken
  obtain ⟨source, given, fits⟩ := lends.exists_first first
  rw [count] at fits
  have confines : map.sourceWidth = format.width ∧ map.width = format.width ∧
      ∀ element, map.apply element = .ok (format.store (node.confine (format.load element))) := by
    generalize node.compute = compute at declared chosen
    cases declared with
    | clampSingle =>
        cases chosen
        exact ⟨rfl, rfl, fun _ => rfl⟩
    | clampHalf =>
        cases chosen
        exact ⟨rfl, rfl, fun _ => rfl⟩
    | clampSigned => cases chosen
    | clampUnsigned => cases chosen
  obtain ⟨sourceWidth, width, applies⟩ := confines
  rw [← sourceWidth] at fits
  rw [← width] at fitsRoom
  obtain ⟨ended, fills⟩ := runs taken schedule inputs source room given fits fitsRoom
  refine ⟨ended, fun place inside => ?_⟩
  have element := fills.element place inside
  rw [applies, sourceWidth, width] at element
  refine Node.Unconfined.exists_stored ?_ (Except.ok.inj element).symm
  rw [clamp]
  exact .clamp given

theorem Combination.leaves {combination : Combination} (sound : combination.body.Sound)
    (binary : node.kind.isBinary = true) (serves : combination.ServesFor node values) :
    (StandardOperator.combination combination).Leaves node values format node.confine := by
  intro shapes output taken schedule inputs room lends fitsRoom
  obtain ⟨function, ofKind, declared⟩ := serves
  have confines : combination.scalar.width = format.width ∧ ∀ x y, combination.scalar.apply x y =
      .ok (format.store (node.confine (function.apply (format.load x) (format.load y)))) := by
    generalize node.compute = compute at declared chosen
    generalize combination.scalar = scalar at declared
    cases declared with
    | single =>
        cases chosen
        exact ⟨rfl, fun _ _ => rfl⟩
    | half =>
        cases chosen
        exact ⟨rfl, fun _ _ => rfl⟩
    | signed => cases chosen
    | unsigned => cases chosen
  obtain ⟨width, applies⟩ := confines
  rw [← width] at lends fitsRoom
  obtain ⟨left, right, first, second, writes, shape, shapeRight, given, givenRight, ended,
    broadcasts⟩ := run_broadcasts sound binary taken schedule lends fitsRoom
  refine ⟨ended, fun place within => ?_⟩
  obtain ⟨index, valid, rfl⟩ := Shape.exists_isIndex within
  have element := broadcasts.element index valid
  rw [applies, width] at element
  exact Node.Unconfined.exists_stored (.combine ofKind shape shapeRight given givenRight valid)
    (Except.ok.inj element).symm

theorem StandardOperator.Averages.leaves {operator : StandardOperator} {coded : Prop}
    {mean : PooledMean} {channels : Nat} (averages : operator.Averages coded mean channels)
    (pool : node.kind = .globalAveragePooling2d) (numbers : ¬ coded)
    (declared : node.Averages values node.compute mean) :
    operator.Leaves node values format node.confine := by
  intro shapes output taken schedule inputs room lends fitsRoom
  obtain ⟨takes, delivers⟩ := averages shapes output
  obtain ⟨images, height, width, shape, count⟩ := takes.mp taken
  obtain ⟨source, given, fits⟩ := lends.exists_first shape
  have confines : mean.width = format.width ∧ ∀ elements,
      mean.apply elements = .ok (format.store (node.confine (format.mean elements))) := by
    generalize node.compute = compute at declared chosen
    cases declared with
    | single =>
        cases chosen
        exact ⟨rfl, meanOfNumbers_apply (fun x : Float32 => x) (fun x => x) _ _⟩
    | half =>
        cases chosen
        exact ⟨rfl, meanOfNumbers_apply Half.toFloat32 Half.ofFloat32 _ _⟩
    | signed => cases chosen
    | unsigned => cases chosen
  obtain ⟨sameWidth, applies⟩ := confines
  rw [← sameWidth] at fits fitsRoom
  obtain ⟨ended, means, _⟩ := delivers images height width shape count
    (fun codes => absurd codes numbers) schedule inputs source room given fits fitsRoom
  refine ⟨ended, fun place inside => ?_⟩
  rw [count] at inside
  obtain ⟨image, imageInside, channel, channelInside, rfl⟩ := exists_row_column inside
  have element := means image imageInside channel channelInside
  rw [applies, sameWidth] at element
  have has : node.Unconfined values format shapes output inputs .globalAveragePooling2d
      (image * channels + channel) _ := .average shape given imageInside channelInside
  rw [← pool] at has
  exact has.exists_stored (Except.ok.inj element).symm

theorem Product.Folds.leaves {product : Product} {declared : NumberProduct}
    (folds : product.Folds declared) (multiply : node.kind = .fullyConnected)
    (declares : node.numberProduct? values = some declared) :
    (StandardOperator.product product).Leaves node values format node.confine := by
  intro shapes output taken schedule inputs room lends fitsRoom
  obtain ⟨formats, _, range, _⟩ := Node.exists_of_numberProduct? declares
  cases chosen.symm.trans formats
  obtain ⟨input, shape, filled, channels, count⟩ := exists_of_setup taken
  obtain ⟨panels, starts, weights, _⟩ := folds.weights
  rw [weights] at channels count
  have takes : declared.Takes input output := ⟨filled, channels, count⟩
  obtain ⟨source, given, fits⟩ := lends.exists_first shape
  obtain ⟨ready, done, runs⟩ := folds.delivers shapes input output shape takes
  obtain ⟨ended, results, _⟩ := runs schedule inputs source room given fits fitsRoom
  rw [done]
  refine ⟨ended, fun place inside => ?_⟩
  rw [takes.count] at inside
  obtain ⟨row, rowInside, channel, channelInside, rfl⟩ := exists_row_column inside
  have element := results row rowInside channel channelInside
  unfold NumberProduct.result at element
  rw [range] at element
  have has : node.Unconfined values declared.format shapes output inputs .fullyConnected
      (row * declared.outputs + channel) _ :=
    .fold declares shape given rowInside channelInside
  rw [← multiply] at has
  exact has.exists_stored element

end Families

/-! ## Ranges without bounds -/

/-- A node whose kind confines its results, and whose range, if it has one, has no bounds. -/
structure Node.Unbounded (node : Node) : Prop where
  kind : node.kind.Confines
  range : node.kind.takesRange = true →
    node.params.range = (Binary32.negativeInfinity, Binary32.infinity)

section Compiled

variable {start : Workshop} {earlier : List CompileJob} {job : CompileJob}
  {executable : Executable StandardOperator} {closed : Graph}
  (ran : (job.run (start.afterJobs earlier)).1 = .ok (executable, closed))
  (history : List SessionCall) {step : Step StandardOperator}
  (listed : step ∈ ((Session.start executable).afterCalls history).executable.steps)

include ran listed

/-- In a compiled graph, the operator of every node that confines numbers stores them confined to
the range of its own node, whatever calls have been made. -/
theorem CompileJob.leaves (kind : step.node.kind.Confines) {format : NumberFormat}
    (chosen : NumberFormat.ofCompute? step.node.compute = some format)
    (isolated : step.node.kind = .fullyConnected → Isolated start (earlier ++ [job])) :
    step.operator.Leaves step.node job.graph.values format step.node.confine := by
  rcases kind with clamp | binary | pool | multiply
  · obtain ⟨map, declared, maps⟩ := maps ran history listed (.inl clamp)
    rw [clamp] at declared
    exact maps.leaves chosen clamp declared
  · obtain ⟨combination, same, sound, serves⟩ := combines ran history listed binary
    rw [same]
    exact Combination.leaves chosen sound binary serves
  · obtain ⟨pooling, input, same, sound, made⟩ := averages ran history listed pool
    have numbers : ¬ (step.node.compute = .qs8 ∨ step.node.compute = .qu8) := by
      rintro (compute | compute) <;> rw [compute] at chosen <;> cases chosen
    rw [same]
    exact (Pooling.exists_averages sound fun _ _ _ _ _ => made.coded).leaves chosen pool numbers
      made.averages
  · obtain ⟨declared, product, declares, same, folds⟩ :=
      (isolated multiply).folds ran history listed multiply chosen
    rw [same]
    exact folds.leaves chosen multiply declares

/-- A node without bounds is confined to all numbers, also if its kind takes no range. -/
theorem CompileJob.confine_unbounded (unbounded : step.node.Unbounded) :
    step.node.confine = Binary32.orLeast := by
  obtain ⟨made, _, among, stays⟩ := exists_made ran history listed
  obtain ⟨operands, output, admitted⟩ := Graph.admitted_afterCalls _ _ made.node among
  rw [← stays.node_eq] at admitted
  have range : step.node.params.range = (Binary32.negativeInfinity, Binary32.infinity) := by
    have fit := OpKind.checkParams_eq_ok_iff.mp admitted.params
    cases given : step.node.params with
    | outputRange low high =>
        rw [given] at fit
        rw [← given]
        refine unbounded.range ?_
        obtain ⟨ranged, _⟩ := fit
        revert ranged
        cases step.node.kind <;> decide
    | _ => rfl
  funext x
  unfold Node.confine
  rw [range]
  exact Binary32.bounded_unbounded x

end Compiled

/-- A range without bounds loses what is not a number, and nothing else.

A constructed graph has been compiled on a host with any features and any settings. Take any node of
numbers, in single or half precision, that confines its results to a range without bounds: a clamp,
a sum, a difference, a product, a pooling or a fully connected node with the range of all numbers,
or a maximum or a minimum, which has none. A fully connected node has its own weights provided that
the digests in a shared cache tell weights apart. Take its operator after any calls on the compiled
graph, set up for any shapes that it takes. A run succeeds on any aligned buffers of whole elements
that are large enough, in any order of its tiles. For each place of the output, the inputs determine
one number before it is confined: an element, a function of two elements, a mean, or a fold. If that
is a number, infinite or not, the place holds it as it is stored. If it is not a number, the place
holds the negative infinity. -/
theorem unbounded_range_keeps_numbers (start : Workshop) (earlier : List CompileJob)
    (job : CompileJob) (executable : Executable StandardOperator) (closed : Graph)
    (ran : (job.run (start.afterJobs earlier)).1 = .ok (executable, closed))
    (history : List SessionCall) :
    ∀ step ∈ ((Session.start executable).afterCalls history).executable.steps,
      step.node.Unbounded → ∀ format, NumberFormat.ofCompute? step.node.compute = some format →
      (step.node.kind = .fullyConnected → CompileJob.Isolated start (earlier ++ [job])) →
      step.operator.Leaves step.node job.graph.values format Binary32.orLeast := by
  intro step listed unbounded format chosen isolated
  rw [← CompileJob.confine_unbounded ran history listed unbounded]
  exact CompileJob.leaves ran history listed unbounded.kind chosen isolated

/-- The theorem applies to the differences of two infinities, which are not a number, and of 3 and
1: the first becomes the negative infinity, the second stays. -/
theorem unbounded_range_keeps_numbers_differences :
    ∃ executable closed, (columnJob.run {}).1 = .ok (executable, closed) ∧
      ∀ step ∈ executable.steps, step.node.Unbounded ∧
        (Operator.setup step.operator [[2], [2]] [2]).2 = .ok () ∧
        let done := Operator.run (Operator.setup step.operator [[2], [2]] [2]).1 .backwards
          [Buffer.fresh #[0, 0, 128, 127, 0, 0, 64, 64],
            Buffer.fresh #[0, 0, 128, 127, 0, 0, 128, 63]]
          (Buffer.fresh (Array.replicate 8 0))
        done.outcome = .ok () ∧ elementBytes done.written 4 0 = [0, 0, 128, 255] ∧
          elementBytes done.written 4 1 = [0, 0, 0, 64] := by
  have graphNodes : columnJob.graph.nodes = [⟨0, .subtract, .fp32, [0, 1], [2],
      .outputRange Binary32.negativeInfinity Binary32.infinity, 0⟩] := rfl
  obtain ⟨executable, closed, ran, nodes⟩ :=
    CompileJob.exists_of_isSome columnJob {} (by cbv)
  refine ⟨executable, closed, ran, fun step listed => ?_⟩
  have node : step.node ∈ executable.steps.map (·.node) := List.mem_map_of_mem listed
  rw [nodes, graphNodes, List.mem_singleton] at node
  have unbounded : step.node.Unbounded := by
    rw [node]
    exact ⟨.inr (.inl rfl), fun _ => rfl⟩
  have leaves := unbounded_range_keeps_numbers {} [] columnJob executable closed ran [] step listed
    unbounded .single (by rw [node]; rfl) (by rw [node]; intro multiply; cases multiply)
  have taken : (Operator.setup step.operator [[2], [2]] [2]).2 = .ok () := by
    obtain ⟨combination, same, _⟩ := CompileJob.combines ran [] listed (by rw [node]; rfl)
    rw [same]
    rfl
  obtain ⟨ended, results⟩ := leaves [[2], [2]] [2] taken .backwards
    [Buffer.fresh #[0, 0, 128, 127, 0, 0, 64, 64], Buffer.fresh #[0, 0, 128, 127, 0, 0, 128, 63]]
    (Buffer.fresh (Array.replicate 8 0)) (by rw [node]; decide) (by decide)
  refine ⟨unbounded, taken, ended, ?_, ?_⟩
  · obtain ⟨raw, same, stored⟩ := results 0 (by decide)
    rw [node] at same
    have has := (same _).mp (.combine rfl rfl rfl rfl rfl (by decide : Shape.IsIndex [2] [0]))
    rw [← has] at stored
    refine stored.trans ?_
    decide +kernel
  · obtain ⟨raw, same, stored⟩ := results 1 (by decide)
    rw [node] at same
    have has := (same _).mp (.combine rfl rfl rfl rfl rfl (by decide : Shape.IsIndex [2] [1]))
    rw [← has] at stored
    refine stored.trans ?_
    decide +kernel

/-- A clamp without bounds and a maximum, which has none, of one number. -/
def unboundedGraph : List BuildCall :=
  [.tensor ⟨.float32, [1], none, some 0, .externalInput⟩,
    .tensor ⟨.float32, [1], none, some 1, .externalOutput⟩,
    .tensor ⟨.float32, [1], none, some 2, .externalOutput⟩,
    .node .clamp [0] [1] (.outputRange Binary32.negativeInfinity Binary32.infinity) 0,
    .node .maximum [0, 0] [2] .none 0]

def unboundedJob : CompileJob := ⟨.portable, 3, unboundedGraph, {}, none⟩

/-- From what is not a number, both make the negative infinity, which is one. -/
theorem unbounded_range_makes_number :
    ∃ executable closed, (unboundedJob.run {}).1 = .ok (executable, closed) ∧
      executable.steps.map (·.node.kind) = [.clamp, .maximum] ∧
      ∀ step ∈ executable.steps, step.node.Unbounded ∧
        (Operator.setup step.operator [[1], [1]] [1]).2 = .ok () ∧
        let given := Buffer.fresh #[0, 0, 192, 127]
        let done := Operator.run (Operator.setup step.operator [[1], [1]] [1]).1 .sequential
          [given, given] (Buffer.fresh (Array.replicate 4 0))
        (∃ raw, step.node.Unconfined unboundedJob.graph.values .single [[1], [1]] [1]
            [given, given] step.node.kind 0 raw ∧ raw.isNaN = true) ∧
          done.outcome = .ok () ∧ elementBytes done.written 4 0 = [0, 0, 128, 255] ∧
          (NumberFormat.single.load (elementBytes done.written 4 0)).isNaN = false := by
  have graphNodes : unboundedJob.graph.nodes =
      [⟨0, .clamp, .fp32, [0], [1],
          .outputRange Binary32.negativeInfinity Binary32.infinity, 0⟩,
        ⟨1, .maximum, .fp32, [0, 0], [2], .none, 0⟩] := rfl
  obtain ⟨executable, closed, ran, nodes⟩ :=
    CompileJob.exists_of_isSome unboundedJob {} (by cbv)
  rw [graphNodes] at nodes
  have kinds := congrArg (List.map Node.kind) nodes
  rw [List.map_map] at kinds
  refine ⟨executable, closed, ran, kinds, fun step listed => ?_⟩
  have node : step.node ∈ executable.steps.map (·.node) := List.mem_map_of_mem listed
  rw [nodes, List.mem_pair] at node
  -- the number before it is confined, and how the operator is set up, differ; the rest is shared
  have specific : step.node.Unbounded ∧ NumberFormat.ofCompute? step.node.compute = some .single ∧
      step.node.kind ≠ .fullyConnected ∧
      (Operator.setup step.operator [[1], [1]] [1]).2 = .ok () ∧
      ∃ raw, step.node.Unconfined unboundedJob.graph.values .single [[1], [1]] [1]
        [Buffer.fresh #[0, 0, 192, 127], Buffer.fresh #[0, 0, 192, 127]] step.node.kind 0 raw ∧
        raw.isNaN = true := by
    rcases node with clamp | maximum
    · obtain ⟨map, _, maps⟩ :=
        CompileJob.maps ran [] listed (.inl (by rw [clamp]))
      have taken := (maps [[1], [1]] [1]).1.mpr ⟨[1], rfl, rfl⟩
      rw [clamp]
      exact ⟨⟨.inl rfl, fun _ => rfl⟩, rfl, by decide, taken, _, .clamp rfl, by decide +kernel⟩
    · obtain ⟨combination, same, _⟩ := CompileJob.combines ran [] listed (by rw [maximum]; rfl)
      have taken : (Operator.setup step.operator [[1], [1]] [1]).2 = .ok () := by
        rw [same]
        rfl
      rw [maximum]
      exact ⟨⟨.inr (.inl rfl), fun ranged => (by cases ranged)⟩, rfl, by decide, taken, _,
        .combine rfl rfl rfl rfl rfl (by decide : Shape.IsIndex [1] [0]), by decide +kernel⟩
  obtain ⟨unbounded, chosen, notProduct, taken, raw, has, noNumber⟩ := specific
  have both : ∀ index < 2, ∀ shape, [[1], [1]][index]? = some shape →
      ∃ buffer, [Buffer.fresh #[0, 0, 192, 127], Buffer.fresh #[0, 0, 192, 127]][index]? =
        some buffer ∧ buffer.Fits NumberFormat.single.width (Shape.elementCount shape) := by
    decide
  have leaves := @CompileJob.leaves {} [] _ _ _ ran [] step listed unbounded.kind _ chosen
    fun multiply => absurd multiply notProduct
  rw [@CompileJob.confine_unbounded {} [] _ _ _ ran [] step listed unbounded] at leaves
  obtain ⟨ended, results⟩ := leaves [[1], [1]] [1] taken .sequential
    [Buffer.fresh #[0, 0, 192, 127], Buffer.fresh #[0, 0, 192, 127]]
    (Buffer.fresh (Array.replicate 4 0))
    (fun index below => both index (Nat.lt_of_lt_of_le below (OpKind.operandsRead_le _)))
    (by decide)
  obtain ⟨only, same, stored⟩ := results 0 (by decide)
  rw [← (same raw).mp has] at stored
  have least : Binary32.orLeast raw = Binary32.negativeInfinity := if_pos noNumber
  rw [least] at stored
  refine ⟨unbounded, taken, ⟨raw, has, noNumber⟩, ended, stored, ?_⟩
  exact (congrArg (fun bytes => (NumberFormat.single.load bytes).isNaN) stored).trans
    (by decide +kernel)

end TensorEngine
