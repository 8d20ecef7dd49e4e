import TensorEngine.Proofs.Execution.Binding
import TensorEngine.Proofs.Execution.Dataflow
import TensorEngine.Proofs.Kernel.PooledMeans
import TensorEngine.Proofs.Kernel.SoundCreation

/-!
Contract: compiled poolings compute the means that their nodes declare.

Owns:
- `Node.Averages`, the mean of elements that a pooling node declares;
- the theorem that every pooling of a compiled graph computes the mean of its own node;
- the theorem on the shapes that it takes and on the results of its runs.

Does not own: how elements are summed up and written.
-/

namespace TensorEngine

open Making TensorEngine.Numeric

/-! ## Means of nodes -/

/-- The parameters by which a pooling node reads and makes codes: those of its operand, those of its
result, and the bounds of its codes. -/
structure Node.AveragesCodes (node : Node) (values : List Value) (input output : Quantization)
    (low high : Int32) : Prop where
  input : ∃ value, node.operand? values 0 = some value ∧ value.quantization = some input
  output : ∃ value, node.result? values = some value ∧ value.quantization = some output ∧
    output.codeBounds value.element node.params.range.1 node.params.range.2 = .ok (low, high)

/-- The mean that a pooling node declares for each type that it can compute in: numbers are summed
up and divided, and confined to the range of the node; codes are summed up as what they are away
from the zero point. -/
inductive Node.Averages (node : Node) (values : List Value) : ComputeType → PooledMean → Prop
  | single : Averages node values .fp32 (.of (Pooling.meanOfNumbers (fun x : Float32 => x)
      (fun x => x) node.params.range.1 node.params.range.2))
  | half : Averages node values .fp16 (.of (Pooling.meanOfNumbers Half.toFloat32 Half.ofFloat32
      node.params.range.1 node.params.range.2))
  | signed {input output : Quantization} {low high : Int32}
      (codes : node.AveragesCodes values input output low high) :
      Averages node values .qs8 (.of (@Pooling.meanOfDistances Int8 _ input output low high))
  | unsigned {input output : Quantization} {low high : Int32}
      (codes : node.AveragesCodes values input output low high) :
      Averages node values .qu8 (.of (@Pooling.meanOfDistances UInt8 _ input output low high))

structure Pooling.MadeOf (pooling : Pooling) (node : Node) (values : List Value) (input : Value) :
    Prop where
  read : node.operand? values 0 = some input
  body : ∃ output, node.result? values = some output ∧
    makeBody node.compute input output node.params.range.1 node.params.range.2 = .ok pooling.body
  channels : imageChannels input.shape = .ok pooling.channels

namespace Pooling

variable {pooling : Pooling} {node : Node} {values : List Value} {input output : Value}

theorem codeBody_declared {signed : Bool} {body : PoolingBody}
    (read : node.operand? values 0 = some input) (found : node.result? values = some output)
    (made : codeBody signed input output node.params.range.1 node.params.range.2 = .ok body) :
    ∃ source result low high, body = .codes signed source result low high ∧
      node.AveragesCodes values source result low high := by
  unfold codeBody at made
  split at made
  · rename_i scale scaleOutput
    obtain ⟨codes, bounded, made⟩ := bind_eq_ok_iff.mp made
    cases made
    exact ⟨_, _, _, _, rfl, ⟨input, read, scale⟩,
      ⟨output, found, scaleOutput, lift_eq_ok_iff.mp bounded⟩⟩
  · cases made

theorem MadeOf.averages (made : pooling.MadeOf node values input) :
    node.Averages values node.compute pooling.mean := by
  obtain ⟨output, found, body⟩ := made.body
  have declared := fun signed => @codeBody_declared node values input output signed pooling.body
    made.read found
  unfold makeBody at body
  unfold mean
  generalize node.compute = compute at body
  generalize pooling.body = taken at body declared ⊢
  cases compute with
  | fp32 =>
      cases body
      exact .single
  | fp16 =>
      cases body
      exact .half
  | qs8 =>
      obtain ⟨_, _, _, _, rfl, codes⟩ := declared true body
      exact .signed codes
  | qu8 =>
      obtain ⟨_, _, _, _, rfl, codes⟩ := declared false body
      exact .unsigned codes
  | _ => cases body

theorem MadeOf.coded (made : pooling.MadeOf node values input) {signed : Bool}
    {source result : Quantization} {low high : Int32}
    (codes : pooling.body = .codes signed source result low high) :
    node.compute = .qs8 ∨ node.compute = .qu8 := by
  obtain ⟨output, _, body⟩ := made.body
  unfold makeBody at body
  rw [codes] at body
  cases same : node.compute with
  | qs8 => exact .inl rfl
  | qu8 => exact .inr rfl
  | _ =>
      rw [same] at body
      cases body

end Pooling

section Families

variable {context : CreateContext}

theorem Pooling.factory_madeOf :
    ((factory context.node.compute).create context).Ends
      (fun pooling => ∃ input, pooling.MadeOf context.node context.values input)
      (fun _ => True) := by
  refine (Ends.of_outcome_ok fun input read => read).bind fun input read => ?_
  refine (Ends.of_outcome_ok fun output found => found).bind fun output found => ?_
  refine (Ends.of_outcome_ok fun body made => made).bind fun body made => ?_
  refine (Ends.of_outcome_ok fun channels given => given).bind fun channels given => ?_
  exact Ends.pure ⟨input, CreateContext.input_eq_operand?.mp read,
    ⟨output, CreateContext.output_eq_result?.mp found, made⟩, given⟩

/-- Every factory that the library offers for a pooling makes it of the input of its node. -/
theorem Catalog.Offers.averages {factory : Factory StandardOperator}
    (offers : Catalog.Offers context.node.key factory) :
    (factory.create context).Ends (fun operator => context.node.kind = .globalAveragePooling2d →
      ∃ pooling input, operator = .pooling pooling ∧
        pooling.MadeOf context.node context.values input) (fun _ => True) := by
  cases offers.family with
  | pooling _ =>
      exact Pooling.factory_madeOf.map fun pooling ⟨input, made⟩ _ => ⟨pooling, input, rfl, made⟩
  | conversion convert =>
      exact (Ends.somehow _).map fun _ _ pool => nomatch pool.symm.trans convert
  | product multiply =>
      exact (Ends.somehow _).map fun _ _ pool => nomatch pool.symm.trans multiply
  | combination binary =>
      refine (Ends.somehow _).map fun _ _ pool => ?_
      rw [show context.node.key.kind = .globalAveragePooling2d from pool] at binary
      cases binary
  | mapping unary =>
      refine (Ends.somehow _).map fun _ _ pool => ?_
      rw [show context.node.key.kind = .globalAveragePooling2d from pool] at unary
      cases unary

end Families

/-- In a compiled graph, the operator of every pooling node is a sound pooling made for its own
node, whatever calls have been made. -/
theorem CompileJob.averages {job : CompileJob} {workshop : Workshop}
    {executable : Executable StandardOperator} {closed : Graph}
    (ran : (job.run workshop).1 = .ok (executable, closed)) (history : List SessionCall)
    {step : Step StandardOperator}
    (listed : step ∈ ((Session.start executable).afterCalls history).executable.steps)
    (pool : step.node.kind = .globalAveragePooling2d) :
    ∃ pooling input, step.operator = .pooling pooling ∧ pooling.body.Sound ∧
      pooling.MadeOf step.node job.graph.values input := by
  obtain ⟨before, among, _, stays⟩ := exists_made ran history listed
  rw [stays.node_eq] at pool ⊢
  have sound := ensures ran (fun _ _ _ _ admits offers => offers.sound admits) before among
  obtain ⟨pooling, input, same, made⟩ :=
    ensures ran (fun _ _ _ _ _ offers => offers.averages) before among pool
  have body := sound.body
  have blank := stays.blank_eq
  rw [same] at body blank
  cases found : step.operator with
  | pooling after =>
      rw [found] at blank
      injection blank with blank
      obtain ⟨sameBody, sameChannels, _⟩ := Pooling.mk.inj blank
      refine ⟨after, input, rfl, by rw [sameBody]; exact body, made.read, ?_, ?_⟩
      · rw [sameBody]
        exact made.body
      · rw [sameChannels]
        exact made.channels
  | _ =>
      rw [found] at blank
      cases blank

/-! ## Results of runs -/

/-- An operator takes exactly the image batches with these channels, with one result for each image
and channel. Set up for such a batch, of which sums of codes fit a word, each of its runs succeeds
on aligned buffers of whole elements that are large enough. It leaves the mean of the elements of
every image and channel, and what lies past the results as it is. -/
def StandardOperator.Averages (operator : StandardOperator) (coded : Prop) (mean : PooledMean)
    (channels : Nat) : Prop :=
  ∀ (shapes : List Shape) (output : Shape),
    ((Operator.setup operator shapes output).2 = .ok () ↔
      ∃ images height width, shapes[0]? = some [images, height, width, channels] ∧
        output.elementCount = images * channels) ∧
    ∀ images height width, shapes[0]? = some [images, height, width, channels] →
      output.elementCount = images * channels → (coded → 255 * (height * width) < 2 ^ 63) →
      ∀ schedule inputs source room, inputs[0]? = some source →
        source.Fits mean.width (Shape.elementCount [images, height, width, channels]) →
        room.Fits mean.width output.elementCount →
        let done := Operator.run (Operator.setup operator shapes output).1 schedule inputs room
        done.outcome = .ok () ∧
          (∀ image < images, ∀ channel < channels,
            mean.apply
              (channelElements source mean.width images height width channels image channel) =
                .ok (elementBytes done.written mean.width (image * channels + channel))) ∧
          ∀ index, output.elementCount * mean.width ≤ index →
            done.written[index]? = room.bytes[index]?

theorem Pooling.exists_averages {pooling : Pooling} (sound : pooling.body.Sound) {coded : Prop}
    (codes : ∀ signed input output low high,
      pooling.body = .codes signed input output low high → coded) :
    (StandardOperator.pooling pooling).Averages coded pooling.mean pooling.channels := by
  intro shapes output
  have done : Operator.setup (StandardOperator.pooling pooling) shapes output =
      (pooling.setup shapes output).map .pooling id := rfl
  rw [done]
  constructor
  · unfold setup
    cases extent : Pooling.extent pooling.channels shapes output with
    | ok sizes =>
        obtain ⟨height, width, given, _, count⟩ := extent_eq_ok_iff.mp extent
        exact ⟨fun _ => ⟨_, height, width, given, count⟩, fun _ => rfl⟩
    | error fault =>
        refine ⟨fun taken => (by cases taken), ?_⟩
        rintro ⟨images, height, width, given, count⟩
        cases extent.symm.trans (extent_eq_ok_iff.mpr ⟨height, width, given, rfl, count⟩)
  · intro images height width given count area schedule inputs source room first fits fitsRoom
    have taken := extent_eq_ok_iff.mpr ⟨height, width, given, rfl, count⟩
    unfold setup
    rw [taken]
    have elements : Shape.elementCount [images, height, width, pooling.channels] =
        images * (height * width) * pooling.channels := by
      simp only [Shape.elementCount]
      ring
    rw [elements] at fits
    rw [count] at fitsRoom ⊢
    obtain ⟨bytes, ran, size, means⟩ :=
      @contents_means { pooling with images := images, positions := height * width } sound
        (fun _ _ _ _ _ same => area (codes _ _ _ _ _ same)) schedule inputs source room first fits
        fitsRoom
    intro done
    rw [show done = _ from StandardOperator.run_eq_of_contents ran]
    refine ⟨rfl, fun image inside channel among => ?_, fun index past => ?_⟩
    · rw [channelElements_eq]
      exact means image inside channel among
    · rw [overlay_getElem?, if_neg fun front => Nat.not_lt.mpr past (size ▸ front.1)]

/-- Pooling equals its reference.

A constructed graph has been compiled on a host with any features and any settings, the size of
tiles included. Take any pooling, in whatever type it computes, after any calls on the compiled
graph. Its node declares a mean, and its channels are those of the image batch that it was made for.
It takes exactly the image batches with these channels, also those without positions, images or
channels. As long as 255 times the positions of an image fit a word, should it pool codes, a run
succeeds on any aligned buffers of whole elements that are large enough, in any order of its tiles.
It leaves for every image and channel the mean of its elements in the order of their rows, and no
other element has a part in it: for numbers their sum from zero on, divided by their number, which
is at least one, and confined to the range of the node; for codes the code of the exact sum of their
distances from the zero point. What lies past the results stays. -/
theorem pooling_equals_reference (job : CompileJob) (workshop : Workshop)
    (executable : Executable StandardOperator) (closed : Graph)
    (ran : (job.run workshop).1 = .ok (executable, closed)) (history : List SessionCall) :
    ∀ step ∈ ((Session.start executable).afterCalls history).executable.steps,
      step.node.kind = .globalAveragePooling2d →
      ∃ mean input channels, step.node.Averages job.graph.values step.node.compute mean ∧
        step.node.operand? job.graph.values 0 = some input ∧
        Pooling.imageChannels input.shape = .ok channels ∧
        step.operator.Averages (step.node.compute = .qs8 ∨ step.node.compute = .qu8) mean
          channels := by
  intro step listed pool
  obtain ⟨pooling, input, same, sound, made⟩ := CompileJob.averages ran history listed pool
  rw [same]
  exact ⟨pooling.mean, input, pooling.channels, made.averages, made.read, made.channels,
    Pooling.exists_averages sound fun _ _ _ _ _ => made.coded⟩

/-- An image of two rows with two channels of codes, whose zero point is 100. -/
def offsetGraph : List BuildCall :=
  [.quantizedTensor ⟨.quint8, [1, 2, 1, 2], none, some 0, .externalInput⟩ ⟨100, Binary32.one⟩,
    .quantizedTensor ⟨.quint8, [1, 2], none, some 1, .externalOutput⟩ ⟨5, Binary32.one⟩,
    .node .globalAveragePooling2d [0] [1]
      (.outputRange Binary32.negativeInfinity Binary32.infinity) 0]

/-- The theorem applies to an image whose first channel has the codes 102 and 104, which are 3 away
from the zero point in the mean. The zero point of the output is 5. -/
theorem pooling_equals_reference_offset :
    ∃ executable closed, ((portableJob offsetGraph).run {}).1 = .ok (executable, closed) ∧
      ∀ step ∈ executable.steps,
        (Operator.setup step.operator [[1, 2, 1, 2]] [1, 2]).2 = .ok () ∧
          let done := Operator.run (Operator.setup step.operator [[1, 2, 1, 2]] [1, 2]).1 .backwards
            [Buffer.fresh #[102, 90, 104, 110]] (Buffer.fresh #[0, 0])
          done.outcome = .ok () ∧ elementBytes done.written 1 0 = [8] := by
  have graphNodes : (portableJob offsetGraph).graph.nodes = [⟨0, .globalAveragePooling2d, .qu8, [0],
      [1], .outputRange Binary32.negativeInfinity Binary32.infinity, 0⟩] := rfl
  obtain ⟨executable, closed, ran, nodes⟩ :=
    CompileJob.exists_of_isSome (portableJob offsetGraph) {} (by decide +kernel)
  refine ⟨executable, closed, ran, fun step listed => ?_⟩
  have node : step.node ∈ executable.steps.map (·.node) := List.mem_map_of_mem listed
  rw [nodes, graphNodes, List.mem_singleton] at node
  obtain ⟨mean, input, channels, averages, read, given, runs⟩ :=
    pooling_equals_reference _ {} executable closed ran [] step listed (by rw [node])
  rw [node] at averages read runs
  cases read
  cases given
  obtain ⟨takes, delivers⟩ := runs [[1, 2, 1, 2]] [1, 2]
  refine ⟨takes.mpr ⟨1, 2, 1, rfl, rfl⟩, ?_⟩
  cases averages with
  | unsigned codes =>
      obtain ⟨_, found, scale⟩ := codes.input
      obtain ⟨_, foundOutput, scaleOutput, bounded⟩ := codes.output
      cases found
      cases scale
      cases foundOutput
      cases scaleOutput
      have bounds : (⟨5, Binary32.one⟩ : Quantization).codeBounds .quint8 Binary32.negativeInfinity
          Binary32.infinity = .ok (0, 255) := by decide +kernel
      cases bounds.symm.trans bounded
      obtain ⟨ended, means, _⟩ := delivers 1 2 1 rfl rfl (fun _ => by decide) .backwards
        [Buffer.fresh #[102, 90, 104, 110]] (Buffer.fresh #[102, 90, 104, 110])
        (Buffer.fresh #[0, 0]) rfl (by decide) (by decide)
      refine ⟨ended, Except.ok.inj ((means 0 (by decide) 0 (by decide)).symm.trans ?_)⟩
      decide +kernel

end TensorEngine
