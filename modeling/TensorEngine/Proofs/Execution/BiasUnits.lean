import TensorEngine.Proofs.Execution.ProductSums

/-!
Contract: what the accumulated sums of products of codes denote.

Owns:
- `Quantization.real`, the exact number that a code denotes, and `CodeProduct.unit`, that of one
  unit of an accumulated sum;
- the theorem that a sum in words denotes the product of the numbers, plus the codes of the bias in
  units of the sum;
- the theorem that this is the bias itself only where its scale is the unit.

Does not own: how sums are rounded to codes.

Nothing compares the scale of a bias with the scales of input and filter, and packing adds up codes
alone. The scale of a bias therefore has no part in a result.
-/

namespace TensorEngine

open Making TensorEngine.Numeric

/-- The number that a code denotes, without rounding. -/
def Quantization.real (quantization : Quantization) (code : Int) : ℚ :=
  ((code - quantization.zeroPoint.toInt : Int) : ℚ) * Binary32.value quantization.scale

namespace CodeProduct

variable (product : CodeProduct)

/-- The number that one unit of an accumulated sum denotes: that of a product of two codes. -/
def unit : ℚ :=
  Binary32.value product.input.scale * Binary32.value product.filter.scale.scale

/-- The product of the numbers that a row of codes and the weights of an output channel denote. -/
def realProduct (row : Nat → Int8) (output : Nat) : ℚ :=
  ((List.range product.inner).map fun input => product.input.real (row input).toInt *
    product.filter.scale.real (product.weight output input).toInt).sum

/-- The exact sum of a row of codes in an output channel fits a word of 32 bits. -/
def FitsWord (row : Nat → Int8) (output : Nat) : Prop :=
  -2 ^ 31 ≤ product.exactSum row output ∧ product.exactSum row output < 2 ^ 31

variable {product}

/-- The exact sum denotes the product of the numbers, plus the bias in units of the sum. -/
theorem exactSum_mul_unit (symmetric : product.filter.scale.zeroPoint = 0) (row : Nat → Int8)
    (output : Nat) :
    (product.exactSum row output : ℚ) * product.unit =
      product.realProduct row output + (product.biasCode output).toInt * product.unit := by
  have products : ∀ indices : List Nat,
      (((indices.map fun input => ((row input).toInt - product.input.zeroPoint.toInt) *
        (product.weight output input).toInt).sum : Int) : ℚ) * product.unit =
      (indices.map fun input => product.input.real (row input).toInt *
        product.filter.scale.real (product.weight output input).toInt).sum := by
    intro indices
    induction indices with
    | nil => simp
    | cons index indices inductionHypothesis =>
        rw [List.map_cons, List.sum_cons, List.map_cons, List.sum_cons, ← inductionHypothesis]
        unfold Quantization.real unit
        rw [symmetric]
        push_cast
        ring
  unfold exactSum realProduct
  rw [← products]
  push_cast
  ring

/-- A number that fits a word and is congruent to one is that word. -/
theorem FitsWord.eq {row : Nat → Int8} {output : Nat} (fits : product.FitsWord row output)
    {sum : Int32} (congruent : sum.toInt ≡ product.exactSum row output [ZMOD 2 ^ 32]) :
    sum.toInt = product.exactSum row output := by
  have low := sum.le_toInt
  have high := sum.toInt_lt
  obtain ⟨least, most⟩ := fits
  unfold Int.ModEq at congruent
  omega

/-- A sum denotes the product of the numbers plus the number that the bias denotes. -/
def Denotes (product : CodeProduct) (bias : Quantization) (row : Nat → Int8) (output : Nat)
    (sum : Int32) : Prop :=
  (sum.toInt : ℚ) * product.unit =
    product.realProduct row output + bias.real (product.biasCode output).toInt

/-- Sums count the codes of a bias in their own unit: they denote its number only if both units are
the same, or if there is nothing to count. -/
theorem denotes_iff (symmetric : product.filter.scale.zeroPoint = 0) {bias : Quantization}
    (unshifted : bias.zeroPoint = 0) {row : Nat → Int8} {output : Nat} {sum : Int32}
    (exact : sum.toInt = product.exactSum row output) :
    product.Denotes bias row output sum ↔
      product.biasCode output = 0 ∨ Binary32.value bias.scale = product.unit := by
  have code : product.biasCode output = 0 ↔ ((product.biasCode output).toInt : ℚ) = 0 := by
    rw [Int.cast_eq_zero, ← Int32.toInt_zero, Int32.toInt_inj]
  unfold Denotes Quantization.real
  rw [exact, exactSum_mul_unit symmetric, unshifted, Int32.toInt_zero, Int.sub_zero, add_right_inj,
    mul_eq_mul_left_iff, code, or_comm, eq_comm (a := product.unit)]

end CodeProduct

section Bias

variable {node : Node} {values : List Value} {declared : CodeProduct}
  (declares : node.DeclaresProduct values declared)

include declares

theorem Node.DeclaresProduct.exists_tensor {value : Value}
    (found : node.operand? values 2 = some value) :
    ∃ bias, declared.bias = some bias ∧ value.HoldsCodes .qint32 bias := by
  have related := declares.bias
  rw [found] at related
  cases given : declared.bias with
  | none =>
      rw [given] at related
      cases related
  | some bias =>
      rw [given] at related
      cases related with
      | some holds => exact ⟨bias, rfl, holds⟩

theorem Node.DeclaresProduct.exists_value {bias : CodeTensor Int32}
    (given : declared.bias = some bias) :
    ∃ value, node.operand? values 2 = some value := by
  have related := declares.bias
  rw [given] at related
  cases found : node.operand? values 2 with
  | none =>
      rw [found] at related
      cases related
  | some value => exact ⟨value, rfl⟩

end Bias

/-- What accumulated sums denote.

A constructed graph is compiled on a host with any features, after any other compilations with which
it shares a cache of packed weights whose digests tell weights apart. Take any product of codes with
a bias, after any calls on the compiled graph, any shapes that its operator takes, and any run. All
scales are finite and positive. Where the exact sum of a row and an output channel fits a word, the
result is the code of that sum. In units of a product of an input code and a weight, the sum denotes
the product of the numbers that the codes denote, plus the code of the bias in the same units. The
bias itself denotes that only if its code is zero or its scale is the product of the two scales,
which nothing ensures. -/
theorem code_sums_count_bias_codes (start : Workshop) (earlier : List CompileJob)
    (job : CompileJob) (isolated : CompileJob.Isolated start (earlier ++ [job])) :
    ∀ executable closed, (job.run (start.afterJobs earlier)).1 = .ok (executable, closed) →
      ∀ history, ∀ step ∈ ((Session.start executable).afterCalls history).executable.steps,
        step.node.kind = .fullyConnected → step.node.compute = .qs8 →
        ∀ value, step.node.operand? job.graph.values 2 = some value →
        ∃ declared bias, step.node.DeclaresProduct job.graph.values declared ∧
          declared.bias = some bias ∧ value.HoldsCodes .qint32 bias ∧
          step.operator.Delivers declared fun row channel result =>
            declared.FitsWord row channel →
            ∃ sum : Int32, declared.IsCodeOf sum result ∧
              sum.toInt = declared.exactSum row channel ∧
              (sum.toInt : ℚ) * declared.unit =
                declared.realProduct row channel +
                  (declared.biasCode channel).toInt * declared.unit ∧
              (declared.Denotes bias.scale row channel sum ↔
                declared.biasCode channel = 0 ∨
                  Binary32.value bias.scale.scale = declared.unit) := by
  intro executable closed ran history step listed multiply codes value found
  obtain ⟨declared, product, declares, same, realizes⟩ :=
    isolated.realizes ran history listed multiply codes
  obtain ⟨bias, given, holds⟩ := declares.exists_tensor found
  refine ⟨declared, bias, declares, given, holds, ?_⟩
  rw [same]
  refine realizes.delivers.mono fun row channel _ result gives fits => ?_
  obtain ⟨sum, congruent, code⟩ := gives
  have exact := fits.eq congruent
  refine ⟨sum, code, exact, ?_, CodeProduct.denotes_iff declares.symmetric
    (declares.biases bias given).2 exact⟩
  rw [exact]
  exact CodeProduct.exactSum_mul_unit declares.symmetric row channel

/-- The theorem applies to the product with the zero point -3, whose scales are all one: its sum 34
counts a bias of 10 in its own unit. -/
theorem code_sums_count_bias_codes_shifted :
    ∃ executable closed, ((portableJob shiftedGraph).run {}).1 = .ok (executable, closed) ∧
      ∀ step ∈ executable.steps, ∃ ready,
        Operator.setup step.operator [[1, 2], [2, 3], [3]] [1, 3] = (ready, .ok ()) ∧
          ∃ result, (Operator.run ready .sequential [Buffer.fresh #[1, 2]]
            (Buffer.fresh #[0, 0, 0])).written[0]? = some result ∧
          ∃ sum : Int32, sum = 34 ∧ shiftedProduct.IsCodeOf sum result.toInt8 ∧
            shiftedProduct.Denotes ⟨0, Binary32.one⟩
              (fun index => (#[1, 2].getD (0 * 2 + index) (0 : UInt8)).toInt8) 0 sum := by
  obtain ⟨executable, closed, ran, nodes⟩ :=
    CompileJob.exists_of_isSome (portableJob shiftedGraph) {} (by decide +kernel)
  have words : (portableJob shiftedGraph).graph.FiltersInWords := by
    unfold Graph.FiltersInWords
    decide +kernel
  refine ⟨executable, closed, ran, fun step listed => ?_⟩
  obtain ⟨declares, codes⟩ := shiftedGraph_declares (by
    rw [← nodes]
    exact List.mem_map_of_mem listed)
  obtain ⟨value, found⟩ := declares.exists_value rfl
  obtain ⟨declared, bias, declaresToo, given, _, delivers⟩ :=
    code_sums_count_bias_codes {} [] _ (CompileJob.isolated_alone words) executable closed ran []
      step listed declares.multiply codes value found
  cases declares.unique declaresToo
  cases given
  obtain ⟨ready, done, run⟩ :=
    delivers [[1, 2], [2, 3], [3]] [1, 2] [1, 3] rfl (by decide) rfl rfl
  obtain ⟨_, results, _⟩ := run .sequential [Buffer.fresh #[1, 2]] (Buffer.fresh #[1, 2])
    (Buffer.fresh #[0, 0, 0]) rfl (by decide) (by decide) (by decide)
  obtain ⟨result, written, sums⟩ := results 0 (by decide) 0 (by decide)
  obtain ⟨sum, code, exact, _, denotes⟩ := sums (by unfold CodeProduct.FitsWord; decide +kernel)
  refine ⟨ready, done, _, written, sum, ?_, ?_, denotes.mpr (.inr (by decide +kernel))⟩
  · exact Int32.toInt_inj.mp exact
  · exact code

/-- One code, multiplied by one weight, in units of a half, with a bias in units of one. -/
def unevenGraph : List BuildCall :=
  [.quantizedTensor ⟨.qint8, [1, 1], none, some 0, .externalInput⟩
      ⟨0, Float32.ofBits 0x3f000000⟩,
    .quantizedTensor ⟨.qint8, [1, 1], none, some 1, .externalOutput⟩ ⟨0, Binary32.one⟩,
    .quantizedTensor ⟨.qint8, [1, 1], some #[0], none, .none⟩ ⟨0, Float32.ofBits 0x3f000000⟩,
    .quantizedTensor ⟨.qint32, [1], some #[12, 0, 0, 0], none, .none⟩ ⟨0, Binary32.one⟩,
    .node .fullyConnected [0, 2, 3] [1]
      (.outputRange Binary32.negativeInfinity Binary32.infinity) 0]

def unevenProduct : CodeProduct where
  inner := 1
  outputs := 1
  transposed := false
  input := ⟨0, Float32.ofBits 0x3f000000⟩
  filter := ⟨#[0], ⟨0, Float32.ofBits 0x3f000000⟩⟩
  bias := some ⟨#[12], ⟨0, Binary32.one⟩⟩
  output := ⟨0, Binary32.one⟩
  range := (Binary32.negativeInfinity, Binary32.infinity)

theorem unevenGraph_declares {node : Node}
    (listed : node ∈ (portableJob unevenGraph).graph.nodes) :
    node.DeclaresProduct (portableJob unevenGraph).graph.values unevenProduct ∧
      node.compute = .qs8 := by
  have nodes : (portableJob unevenGraph).graph.nodes = [⟨0, .fullyConnected, .qs8, [0, 2, 3], [1],
      .outputRange Binary32.negativeInfinity Binary32.infinity, 0⟩] := rfl
  rw [nodes, List.mem_singleton] at listed
  rw [listed]
  have half : (⟨0, Float32.ofBits 0x3f000000⟩ : Quantization).IsScaled :=
    ⟨by decide, by decide +kernel⟩
  have one : (⟨0, Binary32.one⟩ : Quantization).IsScaled := ⟨by decide, by decide +kernel⟩
  refine ⟨?_, rfl⟩
  exact {
    multiply := rfl
    transposed_eq := by decide
    range_eq := rfl
    input := ⟨_, rfl, rfl, rfl⟩
    scaled := half
    filter := ⟨_, rfl, ⟨rfl, ⟨_, rfl, by decide⟩, rfl, half⟩, rfl⟩
    bias := .some ⟨rfl, ⟨_, rfl, by decide⟩, rfl, one⟩
    output := ⟨_, rfl, rfl, rfl⟩
    entries := rfl
    biases := by
      rintro _ ⟨⟩
      exact ⟨rfl, rfl⟩
    symmetric := rfl }

/-- A bias of twelve is accepted with a scale other than that of the sums, and counts as three: the
result is the code of a sum that does not denote the product of the numbers plus the bias. -/
theorem uneven_bias_miscounted :
    ∃ executable closed, ((portableJob unevenGraph).run {}).1 = .ok (executable, closed) ∧
      ∃ step ∈ executable.steps,
        step.node.DeclaresProduct (portableJob unevenGraph).graph.values unevenProduct ∧
        ∃ ready, Operator.setup step.operator [[1, 1], [1, 1], [1]] [1, 1] = (ready, .ok ()) ∧
          (Operator.run ready .sequential [Buffer.fresh #[0]] (Buffer.fresh #[0])).written[0]? =
            some 3 ∧
          unevenProduct.FitsWord (fun _ => 0) 0 ∧ unevenProduct.exactSum (fun _ => 0) 0 = 12 ∧
          unevenProduct.IsCodeOf 12 3 ∧
          ¬ unevenProduct.Denotes ⟨0, Binary32.one⟩ (fun _ => 0) 0 12 := by
  obtain ⟨executable, closed, ran, nodes⟩ :=
    CompileJob.exists_of_isSome (portableJob unevenGraph) {} (by decide +kernel)
  have words : (portableJob unevenGraph).graph.FiltersInWords := by
    unfold Graph.FiltersInWords
    decide +kernel
  have sum : (12 : Int32).toInt = unevenProduct.exactSum (fun _ => 0) 0 := by decide
  have fits : unevenProduct.FitsWord (fun _ => 0) 0 := by
    unfold CodeProduct.FitsWord
    rw [← sum]
    decide
  have code : unevenProduct.IsCodeOf 12 3 := ⟨(-128, 127), by decide +kernel, by decide +kernel⟩
  have miscounted : ¬ unevenProduct.Denotes ⟨0, Binary32.one⟩ (fun _ => 0) 0 12 := by
    rw [CodeProduct.denotes_iff rfl rfl sum]
    decide +kernel
  have listed : ⟨0, .fullyConnected, .qs8, [0, 2, 3], [1],
      .outputRange Binary32.negativeInfinity Binary32.infinity, 0⟩ ∈
      executable.steps.map (·.node) := by
    rw [nodes]
    exact List.mem_singleton_self _
  obtain ⟨step, among, node⟩ := List.mem_map.mp listed
  have ofGraph : step.node ∈ (portableJob unevenGraph).graph.nodes := by
    rw [← nodes]
    exact List.mem_map_of_mem among
  obtain ⟨declares, codes⟩ := unevenGraph_declares ofGraph
  obtain ⟨declared, product, declaresToo, same, realizes⟩ :=
    (CompileJob.isolated_alone words).realizes ran [] among declares.multiply codes
  cases declares.unique declaresToo
  have delivers := realizes.delivers
  rw [← same] at delivers
  obtain ⟨ready, done, run⟩ :=
    delivers [[1, 1], [1, 1], [1]] [1, 1] [1, 1] rfl (by decide) rfl rfl
  obtain ⟨_, results, _⟩ := run .sequential [Buffer.fresh #[0]] (Buffer.fresh #[0])
    (Buffer.fresh #[0]) rfl (by decide) (by decide) (by decide)
  obtain ⟨result, written, gives⟩ := results 0 (by decide) 0 (by decide)
  cases gives.unique ⟨12, by decide, code⟩
  exact ⟨executable, closed, ran, step, among, declares, ready, done, written, fits, sum.symm, code,
    miscounted⟩

end TensorEngine
