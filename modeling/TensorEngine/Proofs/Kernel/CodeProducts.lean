import TensorEngine.Proofs.Kernel.PanelProducts
import TensorEngine.Proofs.Kernel.SoundCreation

/-!
Contract: products of codes are the exact sums of their nodes, as far as 32 bits tell.

Owns:
- `CodeProduct`, a product of codes as a node declares it, and `CodeProduct.exactSum`, the sum that
  an output is meant to have;
- the theorem that biases with the zero point folded in start that sum, whatever wraps around;
- the theorem that a run of a product writes the code of a 32-bit sum congruent to the exact one.

Does not own: what the sums mean in the units of the tensors.
-/

namespace TensorEngine

open Making TensorEngine.Numeric PackedWeights

/-! ## Sums that wrap around -/

theorem Int32.toInt_add_modEq (x y : Int32) : (x + y).toInt ≡ x.toInt + y.toInt [ZMOD 2 ^ 32] := by
  rw [Int32.toInt_add]
  exact Int.bmod_emod

theorem Int32.toInt_sub_modEq (x y : Int32) : (x - y).toInt ≡ x.toInt - y.toInt [ZMOD 2 ^ 32] := by
  rw [Int32.toInt_sub]
  exact Int.bmod_emod

theorem Int32.toInt_mul_modEq (x y : Int32) : (x * y).toInt ≡ x.toInt * y.toInt [ZMOD 2 ^ 32] := by
  rw [Int32.toInt_mul]
  exact Int.bmod_emod

theorem Int32.toInt_ofInt_modEq (x : Int) : (Int32.ofInt x).toInt ≡ x [ZMOD 2 ^ 32] := by
  rw [Int32.toInt_ofInt]
  exact Int.bmod_emod

/-- The sum of products with codes that are less an offset, taken apart. -/
theorem sum_offset_products {ι : Type} (indices : List ι) (code weight : ι → Int) (offset : Int) :
    (indices.map fun index => (code index - offset) * weight index).sum =
      (indices.map fun index => code index * weight index).sum -
        offset * (indices.map weight).sum := by
  induction indices with
  | nil => simp
  | cons index indices inductionHypothesis =>
      simp only [List.map_cons, List.sum_cons, inductionHypothesis]
      ring

/-! ## Products as nodes declare them -/

/-- The codes of a tensor and what they denote. -/
structure CodeTensor (α : Type) where
  codes : Array α
  scale : Quantization

/-- A product of codes as a node declares it: the input and output channels, the layout of the
filter, the weights, the parameters of all operands, and the range of the results. -/
structure CodeProduct where
  inner : Nat
  outputs : Nat
  transposed : Bool
  input : Quantization
  filter : CodeTensor Int8
  bias : Option (CodeTensor Int32)
  output : Quantization
  range : Float32 × Float32

namespace CodeProduct

variable (product : CodeProduct)

/-- The weight of an output and an input channel. A filter lists its entries by output channel
first, a transposed one by input channel first. -/
def weight (output input : Nat) : Int8 :=
  product.filter.codes.getD
    (if product.transposed then input * product.outputs + output
      else output * product.inner + input) 0

/-- The bias of an output channel, zero for a product without one. -/
def biasCode (output : Nat) : Int32 :=
  (product.bias.elim #[] (·.codes)).getD output 0

/-- The sum that a row of codes is meant to have in an output channel: the bias, and the distances
of the codes from their zero point times the weights. -/
def exactSum (row : Nat → Int8) (output : Nat) : Int :=
  (product.biasCode output).toInt + ((List.range product.inner).map fun input =>
    ((row input).toInt - product.input.zeroPoint.toInt) * (product.weight output input).toInt).sum

/-- The code of a sum: the sum counts products of two codes, and its number is quantized between the
codes of the range. -/
def IsCodeOf (sum : Int32) (result : Int8) : Prop :=
  ∃ bounds, product.output.codeBounds .qint8 product.range.1 product.range.2 = .ok bounds ∧
    product.output.quantize
      (Binary32.ofInt sum.toInt * (product.input.scale * product.filter.scale.scale))
      bounds.1 bounds.2 = .ok result.toInt32

/-- The result of a row of codes in an output channel: the code of a 32-bit sum that is exact up to
`2 ^ 32`. -/
def Gives (row : Nat → Int8) (output : Nat) (result : Int8) : Prop :=
  ∃ sum : Int32, sum.toInt ≡ product.exactSum row output [ZMOD 2 ^ 32] ∧
    product.IsCodeOf sum result

theorem word_ext {sum other : Int32} (congruent : sum.toInt ≡ other.toInt [ZMOD 2 ^ 32]) :
    sum = other := by
  have low := sum.le_toInt
  have high := sum.toInt_lt
  have lowOther := other.le_toInt
  have highOther := other.toInt_lt
  unfold Int.ModEq at congruent
  exact Int32.toInt_inj.mp (by omega)

variable {product} in
theorem Gives.unique {row : Nat → Int8} {output : Nat} {result other : Int8}
    (first : product.Gives row output result) (second : product.Gives row output other) :
    result = other := by
  obtain ⟨sum, exact, bounds, bounded, quantized⟩ := first
  obtain ⟨again, exactAgain, _, boundedAgain, quantizedAgain⟩ := second
  cases word_ext (exact.trans exactAgain.symm)
  cases bounded.symm.trans boundedAgain
  rw [quantized] at quantizedAgain
  rw [← Int8.toInt_inj, ← Int8.toInt_toInt32, Except.ok.inj quantizedAgain, Int8.toInt_toInt32]

/-- The start of an output channel: its bias, with the zero point of the input folded in. -/
def start (output : Nat) : Int32 :=
  product.biasCode output - product.input.zeroPoint * Int32.ofInt
    (weightSum product.filter.codes product.inner product.outputs product.transposed output
      product.inner)

end CodeProduct

structure Value.HoldsCodes {α : Type} [Storage α] (value : Value) (element : ElementType)
    (tensor : CodeTensor α) : Prop where
  element_eq : value.element = element
  contents_eq : ∃ bytes, value.contents = some bytes ∧ decodeAll bytes = tensor.codes
  quantization_eq : value.quantization = some tensor.scale
  scaled : tensor.scale.IsScaled

theorem Value.HoldsCodes.unique {α : Type} [Storage α] {value : Value} {element : ElementType}
    {tensor other : CodeTensor α} (first : value.HoldsCodes element tensor)
    (second : value.HoldsCodes element other) : tensor = other := by
  obtain ⟨codes, scale⟩ := tensor
  obtain ⟨bytes, found, rfl⟩ := first.contents_eq
  obtain ⟨_, foundAgain, decoded⟩ := second.contents_eq
  cases found.symm.trans foundAgain
  cases first.quantization_eq.symm.trans second.quantization_eq
  rw [decoded]

/-- A node declares this product of codes in a table of values. -/
structure Node.DeclaresProduct (node : Node) (values : List Value) (product : CodeProduct) :
    Prop where
  multiply : node.kind = .fullyConnected
  transposed_eq : product.transposed = transposedFilter node.flags
  range_eq : product.range = node.params.range
  input : ∃ value, node.operand? values 0 = some value ∧ value.element = .qint8 ∧
    value.quantization = some product.input
  scaled : product.input.IsScaled
  filter : ∃ value, node.operand? values 1 = some value ∧
    value.HoldsCodes .qint8 product.filter ∧
    value.shape = if product.transposed then [product.inner, product.outputs]
      else [product.outputs, product.inner]
  bias : Option.Rel (fun value tensor => value.HoldsCodes .qint32 tensor)
    (node.operand? values 2) product.bias
  output : ∃ value, node.result? values = some value ∧ value.element = .qint8 ∧
    value.quantization = some product.output
  entries : product.filter.codes.size = product.inner * product.outputs
  biases : ∀ bias, product.bias = some bias →
    bias.codes.size = product.outputs ∧ bias.scale.zeroPoint = 0
  symmetric : product.filter.scale.zeroPoint = 0

theorem Node.DeclaresProduct.unique {node : Node} {values : List Value}
    {product other : CodeProduct} (first : node.DeclaresProduct values product)
    (second : node.DeclaresProduct values other) : product = other := by
  have sameInput : product.input = other.input := by
    obtain ⟨value, found, _, quantized⟩ := first.input
    obtain ⟨_, foundAgain, _, quantizedAgain⟩ := second.input
    cases found.symm.trans foundAgain
    exact Option.some.inj (quantized.symm.trans quantizedAgain)
  have sameOutput : product.output = other.output := by
    obtain ⟨value, found, _, quantized⟩ := first.output
    obtain ⟨_, foundAgain, _, quantizedAgain⟩ := second.output
    cases found.symm.trans foundAgain
    exact Option.some.inj (quantized.symm.trans quantizedAgain)
  have sameLayout := first.transposed_eq.trans second.transposed_eq.symm
  obtain ⟨value, found, held, shape⟩ := first.filter
  obtain ⟨_, foundAgain, heldAgain, shapeAgain⟩ := second.filter
  cases found.symm.trans foundAgain
  have sameChannels : product.inner = other.inner ∧ product.outputs = other.outputs := by
    rw [shape, sameLayout] at shapeAgain
    split at shapeAgain
    · simp only [List.cons.injEq] at shapeAgain
      exact ⟨shapeAgain.1, shapeAgain.2.1⟩
    · simp only [List.cons.injEq] at shapeAgain
      exact ⟨shapeAgain.2.1, shapeAgain.1⟩
  have sameBias : product.bias = other.bias := by
    have given := first.bias
    have givenAgain := second.bias
    generalize node.operand? values 2 = value, product.bias = bias, other.bias = again
      at given givenAgain ⊢
    cases given with
    | none =>
        cases givenAgain
        rfl
    | some held =>
        cases givenAgain with
        | some heldAgain => rw [held.unique heldAgain]
  cases product
  cases other
  simp only [CodeProduct.mk.injEq]
  exact ⟨sameChannels.1, sameChannels.2, sameLayout, sameInput, held.unique heldAgain, sameBias,
    sameOutput, first.range_eq.trans second.range_eq.symm⟩

/-! ## Starts with the zero point folded in -/

section Starts

variable {inner outputs : Nat} {transposed : Bool} {filter : Array Int8}

theorem weightSum_of_foldlM {output count : Nat} {total : Int}
    (ran : (List.range count).foldlM (fun (total : Int) input => do
      let entry ← fetch filter (filterIndex transposed inner outputs output input)
      let total := total + entry.toInt
      if Int32.minValue.toInt ≤ total ∧ total ≤ Int32.maxValue.toInt then pure total
      else throw Breach.overflow) 0 = .ok total) :
    total = weightSum filter inner outputs transposed output count := by
  induction count generalizing total with
  | zero =>
      cases ran
      rfl
  | succ count inductionHypothesis =>
      rw [List.range_succ, List.foldlM_append] at ran
      obtain ⟨before, ranBefore, ran⟩ := bind_eq_ok_iff.mp ran
      obtain ⟨after, ran, same⟩ := bind_eq_ok_iff.mp ran
      cases same
      obtain ⟨entry, found, ran⟩ := bind_eq_ok_iff.mp ran
      rw [weightSum_succ found, ← inductionHypothesis ranBefore]
      dsimp only at ran
      split at ran
      · cases ran
        rfl
      · cases ran

/-- A sum of weights that has been found to fit is the sum of the weights. -/
theorem weightSum_of_channelSum {output : Nat} {sum : Int32}
    (summed : channelSum filter inner outputs transposed output = .ok sum) :
    sum = Int32.ofInt (weightSum filter inner outputs transposed output inner) := by
  obtain ⟨total, ran, summed⟩ := bind_eq_ok_iff.mp summed
  cases summed
  rw [weightSum_of_foldlM ran]

/-- Biases start with the codes of the given contents, less the zero point times the sum of the
weights. -/
theorem getElem?_codeBias_of_contents {bias : Option Value} {given : Option Bytes}
    {zeroPoint : Int32} {starts : Array Int32}
    (holds : Option.Rel (fun value bytes => value.contents = some bytes) bias given)
    (made : codeBias bias filter inner outputs transposed zeroPoint = .ok starts) {output : Nat}
    (inside : output < outputs) :
    starts[output]? = some ((given.elim #[] decodeAll).getD output 0 -
      zeroPoint * Int32.ofInt (weightSum filter inner outputs transposed output inner)) := by
  unfold codeBias at made
  obtain ⟨blank, room, made⟩ := bind_eq_ok_iff.mp made
  extract_lets withGiven at made
  have folds : ∀ codes, withGiven codes = .ok starts →
      starts[output]? = some (codes.getD output 0 -
        zeroPoint * Int32.ofInt (weightSum filter inner outputs transposed output inner)) := by
    intro codes made
    obtain ⟨folded, ran, made⟩ := bind_eq_ok_iff.mp made
    cases made
    have computes := collect_eq_ok_iff.mp (lift_eq_ok_iff.mp ran)
    obtain ⟨start, found, computed⟩ := computes.exists_element inside
    rw [Nat.zero_add] at computed
    obtain ⟨sum, summed, computed⟩ := bind_eq_ok_iff.mp computed
    cases computed
    rw [Array.getElem?_append_left (by rw [computes.size_eq]; exact inside), found,
      weightSum_of_channelSum summed]
  cases holds with
  | none =>
      obtain ⟨codes, same, made⟩ := bind_eq_ok_iff.mp made
      cases same
      rw [folds _ made]
      have lanes := outputs_le_lanes outputs
      rw [← blankBias_size room] at lanes
      rw [Array.getD_eq_getD_getElem?, Array.getElem?_extract, if_pos (by omega), Nat.zero_add,
        getElem?_blankBias room inside]
      rfl
  | some found =>
      obtain ⟨contents, static, made⟩ := bind_eq_ok_iff.mp made
      obtain ⟨elements, viewed, made⟩ := bind_eq_ok_iff.mp made
      obtain ⟨codes, taken, made⟩ := bind_eq_ok_iff.mp made
      rw [folds _ made]
      cases static.symm.trans (staticContents_of_contents found)
      obtain ⟨_, _, same⟩ := view_eq_ok_iff.mp viewed
      obtain ⟨_, part⟩ := front_eq_ok_iff.mp (lift_eq_ok_iff.mp taken)
      have front : output < min outputs elements.size - 0 := by omega
      rw [← part, Array.getD_eq_getD_getElem?, Array.getElem?_extract, if_pos front, Nat.zero_add,
        ← same, Option.elim_some, Array.getD_eq_getD_getElem?]
      rfl

/-- Biases start with the given codes, less the zero point times the sum of the weights. -/
theorem getElem?_codeBias {bias : Option Value} {given : Option (CodeTensor Int32)}
    {zeroPoint : Int32} {starts : Array Int32}
    (holds : Option.Rel (fun value tensor => value.HoldsCodes .qint32 tensor) bias given)
    (made : codeBias bias filter inner outputs transposed zeroPoint = .ok starts) {output : Nat}
    (inside : output < outputs) :
    starts[output]? = some ((given.elim #[] (·.codes)).getD output 0 -
      zeroPoint * Int32.ofInt (weightSum filter inner outputs transposed output inner)) := by
  cases holds with
  | none => exact getElem?_codeBias_of_contents .none made inside
  | some holds =>
      obtain ⟨bytes, found, decoded⟩ := holds.contents_eq
      rw [getElem?_codeBias_of_contents (.some found) made inside, Option.elim_some, decoded]
      rfl

end Starts

/-! ## Sums of products of codes -/

namespace CodeProduct

variable (product : CodeProduct)

/-- One step of a sum of products of codes, which wraps around. -/
def step (sum : Int32) (element weight : Int8) : Int32 := sum + element.toInt32 * weight.toInt32

/-- A sum of products of codes is the exact one up to what wraps around. -/
theorem foldl_step_modEq (row weight : Nat → Int8) (start : Int32) (count : Nat) :
    ((List.range count).foldl (fun sum input => step sum (row input) (weight input)) start).toInt ≡
      start.toInt + ((List.range count).map fun input =>
        (row input).toInt * (weight input).toInt).sum [ZMOD 2 ^ 32] := by
  induction count with
  | zero => simp
  | succ count inductionHypothesis =>
      rw [List.range_succ, List.foldl_append, List.map_append, List.sum_append]
      simp only [List.foldl_cons, List.foldl_nil, List.map_cons, List.map_nil, List.sum_cons,
        List.sum_nil, Int.add_zero]
      rw [← Int.add_assoc]
      have product := Int32.toInt_mul_modEq (row count).toInt32 (weight count).toInt32
      rw [Int8.toInt_toInt32, Int8.toInt_toInt32] at product
      exact (Int32.toInt_add_modEq _ _).trans (inductionHypothesis.add product)

theorem start_modEq (output : Nat) :
    (product.start output).toInt ≡ (product.biasCode output).toInt -
      product.input.zeroPoint.toInt * ((List.range product.inner).map fun input =>
        (product.weight output input).toInt).sum [ZMOD 2 ^ 32] := by
  refine (Int32.toInt_sub_modEq _ _).trans (Int.ModEq.rfl.sub ?_)
  exact (Int32.toInt_mul_modEq _ _).trans (Int.ModEq.rfl.mul (Int32.toInt_ofInt_modEq _))

/-- A product that starts with the zero point folded in is the exact sum up to what wraps
around. -/
theorem rowProduct_modEq (row : Nat → Int8) (output : Nat) :
    (rowProduct step product.inner product.weight product.start row output).toInt ≡
      product.exactSum row output [ZMOD 2 ^ 32] := by
  unfold exactSum
  rw [sum_offset_products]
  refine (foldl_step_modEq row (product.weight output) _ _).trans ?_
  refine ((product.start_modEq output).add_right _).trans ?_
  rw [sub_add_eq_add_sub, add_sub_assoc]

end CodeProduct

/-! ## Packed weights of products of codes -/

theorem exists_of_pack_codes {filter : Value} {bias : Option Value} {flags : UInt32}
    {zeroPoint : Int32} {weights : PackedWeights}
    (packed : pack .qs8 filter bias flags zeroPoint = .ok weights) {inner outputs : Nat}
    (channels : filterChannels filter.shape flags = .ok (inner, outputs)) {bytes : Bytes}
    (contents : filter.contents = some bytes) :
    ∃ panels starts, weights = ⟨inner, outputs, .codes panels starts⟩ ∧
      packPanels (decodeAll bytes) inner outputs (transposedFilter flags) (0 : Int8) id 1 =
        .ok panels ∧
      codeBias bias (decodeAll bytes) inner outputs (transposedFilter flags) zeroPoint =
        .ok starts := by
  obtain ⟨_, same, packed⟩ := bind_eq_ok_iff.mp packed
  cases channels.symm.trans (mapError_eq_ok_iff.mp same)
  obtain ⟨_, static, packed⟩ := bind_eq_ok_iff.mp packed
  cases static.symm.trans (staticContents_of_contents contents)
  obtain ⟨elements, viewed, packed⟩ := bind_eq_ok_iff.mp packed
  obtain ⟨_, _, decoded⟩ := view_eq_ok_iff.mp viewed
  obtain ⟨panels, filled, packed⟩ := bind_eq_ok_iff.mp packed
  obtain ⟨starts, biases, packed⟩ := bind_eq_ok_iff.mp packed
  cases packed
  cases decoded
  exact ⟨panels, starts, rfl, filled, biases⟩

section Declared

variable {node : Node} {values : List Value} {declared : CodeProduct}

theorem Node.DeclaresProduct.inputZeroPoint_eq (declares : node.DeclaresProduct values declared) :
    node.inputZeroPoint values = declared.input.zeroPoint := by
  obtain ⟨value, found, _, scale⟩ := declares.input
  unfold Node.inputZeroPoint
  rw [found, Option.bind_some, scale]
  rfl

/-- What is packed for a node holds the weights that it declares, and starts with the zero point
folded in. -/
theorem Node.DeclaresProduct.holdsChannels (declares : node.DeclaresProduct values declared)
    (codes : node.compute = .qs8) {weights : PackedWeights}
    (alone : node.PackedAlone values weights) :
    ∃ panels starts, weights = ⟨declared.inner, declared.outputs, .codes panels starts⟩ ∧
      HoldsChannels panels starts declared.inner declared.outputs declared.weight
        declared.start := by
  obtain ⟨filter, bias, found, packed⟩ := alone
  obtain ⟨value, foundFilter, holds, shape⟩ := declares.filter
  rw [Node.productWeights?_of_operand declares.multiply foundFilter] at found
  cases found
  rw [codes, declares.inputZeroPoint_eq] at packed
  rw [declares.transposed_eq] at shape
  obtain ⟨bytes, contents, decoded⟩ := holds.contents_eq
  obtain ⟨panels, starts, same, filled, biases⟩ :=
    exists_of_pack_codes packed (filterChannels_eq_ok_iff.mpr shape) contents
  rw [decoded, ← declares.transposed_eq] at filled biases
  refine ⟨panels, starts, same, packPanels_size filled, codeBias_size biases, ?_, ?_⟩
  · intro output outputInside input inputInside
    obtain ⟨entry, found, packed⟩ := getElem?_packPanels filled outputInside inputInside
    rw [packed, CodeProduct.weight, Array.getD_eq_getD_getElem?]
    exact congrArg some (congrArg (Option.getD · 0) found).symm
  · exact fun output inside => getElem?_codeBias declares.bias biases inside

end Declared

/-! ## Declared products -/

section Context

variable {context : CreateContext} {operands : List Value} {output : Value}

theorem Value.HoldsCodes.of_weights {α : Type} [Storage α] {value : Value} {element : ElementType}
    {bytes : Bytes} {scale : Quantization} (sound : value.Sound)
    (weights : value.Weights element bytes) (quantized : value.quantization = some scale) :
    value.HoldsCodes element (⟨decodeAll bytes, scale⟩ : CodeTensor α) :=
  ⟨weights.element_eq, ⟨bytes, weights.contents_eq, rfl⟩, quantized,
    Quantization.isScaled_of_validate (sound.valid scale quantized)⟩

/-- Static contents decode to one element for each position of the shape. -/
theorem Value.Weights.decodeAll_size {α : Type} [Storage α] {value : Value} {element : ElementType}
    {bytes : Bytes} (weights : value.Weights element bytes)
    (width : element.width = Storage.width α) :
    (decodeAll bytes : Array α).size = value.shape.elementCount := by
  obtain ⟨elements, viewed, size⟩ := weights.exists_elements (α := α) width
  obtain ⟨_, _, decoded⟩ := view_eq_ok_iff.mp viewed
  exact (congrArg Array.size decoded).trans size

/-- An admitted product of codes has codes for results. -/
theorem CreateContext.Admits.output_codes (admits : context.Admits operands output)
    (multiply : context.node.kind = .fullyConnected) (codes : context.node.compute = .qs8) :
    output.element = .qint8 := by
  obtain ⟨_, computed⟩ := admits.node.computed (by rw [multiply]; decide)
  rw [codes] at computed
  rcases OpKind.ofElement?_eq_some_iff.mp computed with
    ⟨_, impossible⟩ | ⟨_, impossible⟩ | ⟨element, _⟩ | ⟨_, impossible⟩
  · cases impossible
  · cases impossible
  · exact element
  · cases impossible

section Operands

variable {input filter : Value} {bias : Option Value}
  (given : ProductOperands context.node operands output input filter bias)
  (element : output.element = .qint8)

include given element

theorem ProductOperands.symmetric
    (admitted : context.node.Admitted context.values operands output)
    (multiply : context.node.kind = .fullyConnected) {scale : Quantization}
    (found : filter.quantization = some scale) : scale.zeroPoint = 0 := by
  have checked := admitted.quantization
  rw [multiply, given.operands_eq] at checked
  unfold OpKind.checkQuantization at checked
  dsimp only at checked
  rw [found] at checked
  dsimp only at checked
  split at checked
  · cases checked
  · rename_i symmetric
    by_contra shifted
    exact symmetric ⟨element, shifted⟩

/-- The bias of an admitted product of codes, if there is one, has one code for each channel. -/
theorem ProductOperands.exists_biasCodes (sound : ∀ value, bias = some value → value.Sound)
    {outputs : Nat} (row : ∀ value, bias = some value → value.shape = [outputs]) :
    ∃ tensor : Option (CodeTensor Int32),
      Option.Rel (fun value tensor => value.HoldsCodes .qint32 tensor) bias tensor ∧
        ∀ held, tensor = some held → held.codes.size = outputs ∧ held.scale.zeroPoint = 0 := by
  cases bias with
  | none => exact ⟨none, .none, fun _ none => (nomatch none)⟩
  | some value =>
      obtain ⟨biasElement, static⟩ := given.bias_element value rfl
      rw [element] at biasElement
      obtain ⟨scale, found, valid⟩ :=
        (sound value rfl).exists_quantization (by rw [biasElement]; rfl)
      obtain ⟨bytes, weights⟩ := (sound value rfl).weights static
      rw [biasElement] at weights valid
      refine ⟨some ⟨decodeAll bytes, scale⟩, .some (.of_weights (sound value rfl) weights found),
        ?_⟩
      rintro _ ⟨⟩
      refine ⟨?_, Quantization.zeroPoint_of_validate valid⟩
      rw [weights.decodeAll_size rfl, row value rfl]
      exact Nat.mul_one outputs

end Operands

/-- Every admitted product of codes declares one. -/
theorem CreateContext.Admits.exists_declared (admits : context.Admits operands output)
    (multiply : context.node.kind = .fullyConnected) (codes : context.node.compute = .qs8) :
    ∃ declared, context.node.DeclaresProduct context.values declared := by
  obtain ⟨input, filter, bias, given⟩ := admits.node.exists_productOperands multiply
  have element := admits.output_codes multiply codes
  have operand := admits.node.operand?_eq
  have sound := admits.soundOperands
  rw [given.operands_eq] at operand sound
  rw [List.forall_mem_cons, List.forall_mem_cons] at sound
  obtain ⟨soundInput, soundFilter, soundBias⟩ := sound
  have inputElement := given.input_element.trans element
  have filterElement := given.filter_element.trans element
  obtain ⟨inputScale, foundInput, _⟩ :=
    soundInput.exists_quantization (by rw [inputElement]; rfl)
  obtain ⟨filterScale, foundFilter, _⟩ :=
    soundFilter.exists_quantization (by rw [filterElement]; rfl)
  obtain ⟨outputScale, foundOutput, _⟩ :=
    admits.soundOutput.exists_quantization (by rw [element]; rfl)
  obtain ⟨inner, outputs, channels, _, row, _⟩ := OpKind.productShape_eq_ok_iff.mp given.shape
  obtain ⟨bytes, weights⟩ := soundFilter.weights given.filter_static
  rw [filterElement] at weights
  have biasRow : ∀ value, bias = some value → value.shape = [outputs] :=
    fun value same => row value.shape (by rw [same]; rfl)
  obtain ⟨tensor, related, biases⟩ := given.exists_biasCodes element
    (fun value same => soundBias value (by rw [same]; exact List.mem_cons_self)) biasRow
  exact ⟨{
      inner := inner
      outputs := outputs
      transposed := transposedFilter context.node.flags
      input := inputScale
      filter := ⟨decodeAll bytes, filterScale⟩
      bias := tensor
      output := outputScale
      range := context.node.params.range }, {
      multiply := multiply
      transposed_eq := rfl
      range_eq := rfl
      input := ⟨input, operand 0, inputElement, foundInput⟩
      scaled := Quantization.isScaled_of_validate (soundInput.valid _ foundInput)
      filter := ⟨filter, operand 1, .of_weights soundFilter weights foundFilter,
        filterChannels_eq_ok_iff.mp channels⟩
      bias := by
        rw [operand 2]
        cases bias with
        | none => exact related
        | some value => exact related
      output := ⟨output, CreateContext.output_eq_result?.mp admits.output_eq, element, foundOutput⟩
      entries := (weights.decodeAll_size rfl).trans (elementCount_of_channels channels)
      biases := biases
      symmetric := given.symmetric element admits.node multiply foundFilter }⟩

end Context

/-! ## Codes of sums -/

theorem Quantization.codeBounds_inside {scale : Quantization} {element : ElementType}
    (coded : element.IsByteCode) {low high : Float32} {bounds : Int32 × Int32}
    (bounded : scale.codeBounds element low high = .ok bounds) :
    element.codeRange.1 ≤ bounds.1 ∧ bounds.2 ≤ element.codeRange.2 := by
  have short : |element.codeRange.1.toInt| ≤ 2 ^ 24 ∧ |element.codeRange.2.toInt| ≤ 2 ^ 24 := by
    rcases coded with rfl | rfl <;> decide
  obtain ⟨least, ranLeast, bounded⟩ := bind_eq_ok_iff.mp bounded
  obtain ⟨most, ranMost, bounded⟩ := bind_eq_ok_iff.mp bounded
  cases bounded
  exact ⟨(quantize_inside short.1 short.2 ranLeast).1, (quantize_inside short.1 short.2 ranMost).2⟩

/-- A code of signed bytes is one byte. -/
theorem toInt32_toInt8 {code : Int32} (least : -128 ≤ code.toInt) (most : code.toInt ≤ 127) :
    code.toInt8.toInt32 = code := by
  rw [← Int32.toInt_inj, Int8.toInt_toInt32, Int32.toInt_toInt8]
  exact Int.bmod_eq_of_le (by omega) (by omega)

/-- Sums of products of codes have codes between bounds of signed bytes. -/
theorem Product.codeOfSum_eq (output : Quantization) (scale : Float32) {bounds : Int32 × Int32}
    (least : -128 ≤ bounds.1.toInt) (most : bounds.2.toInt ≤ 127) (ordered : bounds.1 ≤ bounds.2)
    (sum : Int32) : ∃ result, codeOfSum output scale bounds.1 bounds.2 sum = .ok result ∧
      output.quantize (Binary32.ofInt sum.toInt * scale) bounds.1 bounds.2 =
        .ok result.toInt32 := by
  obtain ⟨code, quantized⟩ :=
    output.exists_quantize_between (Binary32.ofInt sum.toInt * scale) ordered
  rw [Int32.le_iff_toInt_le] at ordered
  obtain ⟨low, high⟩ := Quantization.quantize_inside (by rw [abs_le]; omega)
    (by rw [abs_le]; omega) quantized
  rw [Int32.le_iff_toInt_le] at low high
  refine ⟨code.toInt8, bind_eq_ok_iff.mpr ⟨code, quantized, rfl⟩, ?_⟩
  rw [toInt32_toInt8 (by omega) (by omega)]
  exact quantized

/-! ## Operators -/

/-- An operator multiplies as a node declares. -/
structure Product.Realizes (product : Product) (declared : CodeProduct) : Prop where
  body : ∃ bounds, declared.output.codeBounds .qint8 declared.range.1 declared.range.2 =
      .ok bounds ∧ bounds.1 ≤ bounds.2 ∧
    product.body = .codes declared.output (declared.input.scale * declared.filter.scale.scale)
      bounds.1 bounds.2
  weights : ∃ panels starts,
    product.artifact.weights = ⟨declared.inner, declared.outputs, .codes panels starts⟩ ∧
      HoldsChannels panels starts declared.inner declared.outputs declared.weight declared.start

/-- A product that is made for a node of codes makes its results by the parameters of the node. -/
theorem Product.MadeOf.exists_body {context : CreateContext} {product : Product}
    {input filter output result : Value} {operands : List Value} {zeroPoint : Int32}
    (made : product.MadeOf context input filter output zeroPoint)
    (admits : context.Admits operands result) (codes : context.node.compute = .qs8)
    {declared : CodeProduct} (declares : context.node.DeclaresProduct context.values declared) :
    ∃ bounds, declared.output.codeBounds .qint8 declared.range.1 declared.range.2 = .ok bounds ∧
      bounds.1 ≤ bounds.2 ∧
      product.body = .codes declared.output (declared.input.scale * declared.filter.scale.scale)
        bounds.1 bounds.2 := by
  have ordered := OpKind.isOrdered_of_checkParams admits.node.params
  cases admits.output_eq.symm.trans made.foundOutput
  obtain ⟨value, foundInput, _, inputScale⟩ := declares.input
  cases made.found.symm.trans foundInput
  obtain ⟨value, foundFilter, holds, _⟩ := declares.filter
  cases made.foundFilter.symm.trans foundFilter
  obtain ⟨value, foundOutput, element, outputScale⟩ := declares.output
  cases (CreateContext.output_eq_result?.mp made.foundOutput).symm.trans foundOutput
  have body := made.body
  rw [codes] at body
  obtain ⟨⟨coded, zero⟩, chosen, same⟩ := bind_eq_ok_iff.mp body
  cases same
  unfold Product.codeBody at chosen
  rw [inputScale, holds.quantization_eq, outputScale] at chosen
  obtain ⟨bounds, bounded, chosen⟩ := bind_eq_ok_iff.mp chosen
  have inOrder := admits.soundOutput.codes_ordered outputScale ordered (lift_eq_ok_iff.mp bounded)
  rw [← declares.range_eq] at bounded
  refine ⟨bounds, lift_eq_ok_iff.mp bounded, inOrder, ?_⟩
  injection chosen with same
  exact (Prod.mk.inj same).1.symm

/-- A product that is made for a node with its own weights multiplies as the node declares. -/
theorem Product.MadeOf.realizes {context : CreateContext} {product : Product}
    {input filter output result : Value} {operands : List Value} {zeroPoint : Int32}
    (made : product.MadeOf context input filter output zeroPoint)
    (admits : context.Admits operands result) (codes : context.node.compute = .qs8)
    (alone : context.node.PackedAlone context.values product.artifact.weights)
    {declared : CodeProduct} (declares : context.node.DeclaresProduct context.values declared) :
    product.Realizes declared :=
  ⟨made.exists_body admits codes declares, declares.holdsChannels codes alone⟩

namespace Product.Realizes

variable {product : Product} {declared : CodeProduct}

theorem exists_setup (realizes : product.Realizes declared) {shapes : List Shape}
    {input output : Shape} (first : shapes[0]? = some input) (filled : input ≠ [])
    (channels : input.channels = declared.inner)
    (count : output.elementCount = input.batch * declared.outputs) :
    product.setup shapes output = ({ product with rows := input.batch }, .ok ()) := by
  obtain ⟨panels, starts, weights, _⟩ := realizes.weights
  unfold setup
  rw [rowCount_eq_ok_iff.mpr ⟨input, first, filled, by rw [weights]; exact channels,
    by rw [weights]; exact count, rfl⟩]

theorem setRows (realizes : product.Realizes declared) (rows : Nat) :
    Realizes { product with rows := rows } declared :=
  ⟨realizes.body, realizes.weights⟩

/-- A run writes the result of every row of codes in every output channel. -/
theorem contents (realizes : product.Realizes declared) (schedule : Schedule)
    {inputs : List Buffer} {source room : Buffer} (first : inputs[0]? = some source)
    (enough : product.rows * declared.inner ≤ source.size) (short : source.size < 2 ^ 64)
    (fits : product.rows * declared.outputs ≤ room.size) :
    ∃ written : Array Int8, product.contents schedule inputs room =
        .ok (written.map Int8.toUInt8) ∧ written.size = product.rows * declared.outputs ∧
      ∀ row < product.rows, ∀ channel < declared.outputs, ∃ result,
        written[row * declared.outputs + channel]? = some result ∧
        declared.Gives
          (fun input => (source.bytes.getD (row * declared.inner + input) 0).toInt8)
          channel result := by
  obtain ⟨bounds, bounded, ordered, body⟩ := realizes.body
  obtain ⟨panels, starts, weights, holds⟩ := realizes.weights
  obtain ⟨least, most⟩ := Quantization.codeBounds_inside (.inl rfl) bounded
  rw [Int32.le_iff_toInt_le] at least most
  have coded := codeOfSum_eq declared.output (declared.input.scale * declared.filter.scale.scale)
    least most ordered
  have elements : ∀ index < product.rows * declared.inner,
      (source.bytes.map UInt8.toInt8)[index]? = some ((source.bytes.getD index 0).toInt8) := by
    intro index inside
    have bound : index < source.bytes.size := Nat.lt_of_lt_of_le inside enough
    rw [Array.getElem?_map, Array.getD_eq_getD_getElem?, Array.getElem?_eq_getElem bound]
    rfl
  unfold Product.contents codeContents
  rw [body, weights]
  dsimp only
  obtain ⟨written, ran, size, each⟩ := HoldsChannels.multiplyRows_writes
    ⟨declared.inner, declared.outputs, .codes panels starts⟩ holds CodeProduct.step
    (fun sum => (coded sum).imp fun _ both => both.1) schedule product.tileElements
    ⟨source, first, view_codes source⟩ (view_codes room)
    (by rw [Array.size_map]; exact enough) (Nat.lt_of_le_of_lt enough short)
    (by rw [Array.size_map]; exact fits) elements
  rw [encodeAll_codes] at ran
  refine ⟨written, ran, size, fun row rowInside channel inside => ?_⟩
  obtain ⟨result, found, computed⟩ := each row rowInside channel inside
  refine ⟨result, found, _, declared.rowProduct_modEq _ channel, bounds, bounded, ?_⟩
  obtain ⟨value, ran, quantized⟩ := coded (rowProduct CodeProduct.step declared.inner
    declared.weight declared.start
    (fun input => (source.bytes.getD (row * declared.inner + input) 0).toInt8) channel)
  cases ran.symm.trans computed
  exact quantized

end Product.Realizes

end TensorEngine
