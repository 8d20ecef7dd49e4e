import TensorEngine.Proofs.Kernel.Delivery
import TensorEngine.Proofs.Tensor.CodeBounds
import TensorEngine.Proofs.Tensor.Quantization

/-!
Contract: sound operators end without a breach.

Owns:
- `StandardOperator.Sound`, what the body of an operator promises: bounds in order, accepted
  quantizations, whole panels of weights;
- the theorem that a sound operator, set up for shapes, fails on buffers of these shapes for want of
  alignment only.

Does not own: that operators are made sound.
-/

namespace TensorEngine

open TensorEngine.Numeric Conversion

/-! ## Codes -/

/-- Elements that are codes of a storage type. -/
structure Code.Within (α : Type) [Code α] (element : ElementType) : Prop where
  byte : element.IsByteCode
  inside : ∀ code : α, element.codeRange.1.toInt ≤ (Code.toInt32 code).toInt ∧
    (Code.toInt32 code).toInt ≤ element.codeRange.2.toInt

theorem Code.within_signed : Code.Within Int8 (codeElement true) where
  byte := .inl rfl
  inside code := by
    have least := code.le_toInt
    have greatest := code.toInt_lt
    show -128 ≤ code.toInt32.toInt ∧ code.toInt32.toInt ≤ 127
    rw [Int8.toInt_toInt32]
    omega

theorem Code.within_unsigned : Code.Within UInt8 (codeElement false) where
  byte := .inr rfl
  inside code := by
    have short := code.toNat_lt
    show 0 ≤ (Int32.ofNat code.toNat).toInt ∧ (Int32.ofNat code.toNat).toInt ≤ 255
    rw [Int32.toInt_ofNat_of_lt (by omega)]
    omega

theorem ElementType.IsByteCode.range {element : ElementType} (coded : element.IsByteCode) :
    element.codeRange? = some element.codeRange ∧ -128 ≤ element.codeRange.1.toInt ∧
      element.codeRange.1.toInt ≤ 0 ∧ 0 ≤ element.codeRange.2.toInt ∧
      element.codeRange.2.toInt ≤ 255 ∧
      element.codeRange.2.toInt - element.codeRange.1.toInt = 255 := by
  rcases coded with rfl | rfl <;> decide

section Codes

variable {α : Type} [Code α] {element : ElementType} {scale : Quantization}

/-- An accepted zero point of a byte is a code. -/
theorem Code.Within.zeroPoint (within : Code.Within α element)
    (valid : scale.validate element = .ok ()) :
    element.codeRange.1.toInt ≤ scale.zeroPoint.toInt ∧
      scale.zeroPoint.toInt ≤ element.codeRange.2.toInt :=
  Quantization.zeroPoint_inside valid within.byte.range.1

/-- Every code denotes a number by accepted parameters. -/
theorem Code.Within.exists_dequantize (within : Code.Within α element)
    (valid : scale.validate element = .ok ()) (code : α) :
    ∃ number, scale.dequantize (Code.toInt32 code) = .ok number := by
  obtain ⟨least, greatest⟩ := within.inside code
  obtain ⟨lowest, highest⟩ := within.zeroPoint valid
  obtain ⟨_, _, _, _, _, spread⟩ := within.byte.range
  have smallest : Int32.minValue.toInt = -2147483648 := rfl
  have largest : Int32.maxValue.toInt = 2147483647 := rfl
  exact Quantization.exists_dequantize (by omega) (by omega)

end Codes

/-! ## Bodies -/

def MappingBody.Sound : MappingBody → Prop
  | confineCodes _ low high => low ≤ high
  | _ => True

def ConversionBody.Sound : ConversionBody → Prop
  | dequantize signed scale => scale.validate (codeElement signed) = .ok ()
  | _ => True

/-- Codes have accepted parameters, and their bounds are in order. -/
def CombinationBody.Sound : CombinationBody → Prop
  | codes signed left right _ low high =>
      left.validate (codeElement signed) = .ok () ∧
        right.validate (codeElement signed) = .ok () ∧ low ≤ high
  | _ => True

/-- Codes have accepted parameters, and their bounds are in order. -/
def PoolingBody.Sound : PoolingBody → Prop
  | codes signed input _ low high => input.validate (codeElement signed) = .ok () ∧ low ≤ high
  | _ => True

def ProductBody.Sound : ProductBody → Prop
  | codes _ _ low high => low ≤ high
  | _ => True

/-- Panels and biases that are all there. -/
def PackedWeights.Whole (weights : PackedWeights) : Prop :=
  match weights.data with
  | .floats entries bias =>
      entries.size = weights.panels * weights.inner * panelWidth ∧
        bias.size = weights.panels * panelWidth
  | .codes entries bias =>
      entries.size = weights.panels * weights.inner * panelWidth ∧
        bias.size = weights.panels * panelWidth

/-- Packed weights that a body takes: codes for codes, numbers for numbers. -/
def ProductBody.Takes (body : ProductBody) (data : PackedData) : Prop :=
  match body, data with
  | .codes _ _ _ _, .codes _ _ => True
  | .single _ _, .floats _ _ | .half _ _, .floats _ _ => True
  | _, _ => False

namespace StandardOperator

/-- The body of an operator keeps the contracts of the kernels. -/
def SoundBody : StandardOperator → Prop
  | mapping operator => operator.body.Sound
  | conversion operator => operator.body.Sound
  | combination operator => operator.body.Sound
  | pooling operator => operator.body.Sound
  | product operator => operator.body.Sound

/-- The packed weights of an operator, if it has any, are whole and fit its body. -/
def SoundWeights : StandardOperator → Prop
  | product operator =>
      operator.body.Takes operator.artifact.weights.data ∧ operator.artifact.weights.Whole
  | _ => True

/-- An operator that keeps the contracts of the kernels. -/
structure Sound (operator : StandardOperator) : Prop where
  body : operator.SoundBody
  weights : operator.SoundWeights

end StandardOperator

/-! ## Runs of sound operators -/

section Runs

variable {aligned : Prop} {inputs : List Buffer} {input output : Buffer}

theorem Mapping.delivers {mapping : Mapping} (sound : mapping.body.Sound) (schedule : Schedule)
    (first : inputs[0]? = some input)
    (lends : input.Lends aligned mapping.body.width mapping.count)
    (lendsOutput : output.Lends aligned mapping.body.width mapping.count) :
    (mapping.contents schedule inputs output).UnlessMisaligned aligned := by
  have confines : ∀ {α : Type} [Code α] {low high : Int32}, low ≤ high → ∀ code : α,
      ∃ confined, Mapping.confined low high code = .ok confined := by
    intro α _ low high ordered code
    obtain ⟨confined, ran⟩ :
        ∃ confined, confineCode (Code.toInt32 code) low high = .ok confined :=
      exists_confineCode ordered
    exact ⟨_, map_eq_ok_iff.mpr ⟨confined, ran, rfl⟩⟩
  unfold contents
  dsimp only
  cases same : mapping.body with
  | single function =>
      rw [same] at lends lendsOutput
      exact mapElements_delivers (fun _ => ⟨_, rfl⟩) schedule _ _ first lends lendsOutput
  | half function =>
      rw [same] at lends lendsOutput
      exact mapElements_delivers (fun _ => ⟨_, rfl⟩) schedule _ _ first lends lendsOutput
  | copyCodes =>
      rw [same] at lends lendsOutput
      exact mapElements_delivers (fun _ => ⟨_, rfl⟩) schedule _ _ first lends lendsOutput
  | lookUp table =>
      rw [same] at lends lendsOutput
      exact mapElements_delivers (fun _ => ⟨_, rfl⟩) schedule _ _ first lends lendsOutput
  | confineCodes signed low high =>
      rw [same] at lends lendsOutput sound
      cases signed with
      | true => exact mapElements_delivers (confines sound) schedule _ _ first lends lendsOutput
      | false => exact mapElements_delivers (confines sound) schedule _ _ first lends lendsOutput

def ConversionBody.operandWidth : ConversionBody → Nat
  | narrow | quantize _ _ => 4
  | widen => 2
  | dequantize _ _ => 1

theorem Conversion.delivers {conversion : Conversion} (sound : conversion.body.Sound)
    (schedule : Schedule) (first : inputs[0]? = some input)
    (lends : input.Lends aligned conversion.body.operandWidth conversion.count)
    (lendsOutput : output.Lends aligned conversion.body.width conversion.count) :
    (conversion.contents schedule inputs output).UnlessMisaligned aligned := by
  have codes : ∀ {α : Type} [Code α] (signed : Bool) (scale : Quantization) (x : Float32),
      ∃ code : α, toCode signed scale x = .ok code := by
    intro α _ signed scale x
    obtain ⟨code, ran⟩ := scale.exists_quantize (codeElement signed) x
    exact ⟨_, map_eq_ok_iff.mpr ⟨code, ran, rfl⟩⟩
  unfold contents
  dsimp only
  cases same : conversion.body with
  | narrow =>
      rw [same] at lends lendsOutput
      exact mapElements_delivers (fun _ => ⟨_, rfl⟩) schedule _ _ first lends lendsOutput
  | widen =>
      rw [same] at lends lendsOutput
      exact mapElements_delivers (fun _ => ⟨_, rfl⟩) schedule _ _ first lends lendsOutput
  | quantize signed scale =>
      rw [same] at lends lendsOutput
      cases signed with
      | true =>
          exact mapElements_delivers (codes true scale) schedule _ _ first lends lendsOutput
      | false =>
          exact mapElements_delivers (codes false scale) schedule _ _ first lends lendsOutput
  | dequantize signed scale =>
      rw [same] at lends lendsOutput sound
      cases signed with
      | true =>
          exact mapElements_delivers (Code.within_signed.exists_dequantize sound) schedule _ _
            first lends lendsOutput
      | false =>
          exact mapElements_delivers (Code.within_unsigned.exists_dequantize sound) schedule _ _
            first lends lendsOutput

/-- Codes of accepted parameters are combined to codes. -/
theorem Combination.exists_ofCodes {α : Type} [Code α] {element : ElementType}
    (within : Code.Within α element) {left right : Quantization}
    (valid : left.validate element = .ok ()) (validRight : right.validate element = .ok ())
    {low high : Int32} (ordered : low ≤ high) (function : BinaryFunction) (result : Quantization)
    (x y : α) : ∃ code, ofCodes function left right result low high x y = .ok code := by
  obtain ⟨number, denoted⟩ := within.exists_dequantize valid x
  obtain ⟨other, denotedRight⟩ := within.exists_dequantize validRight y
  obtain ⟨code, quantized⟩ :=
    result.exists_quantize_between (function.apply number other) ordered
  exact ⟨_, bind_eq_ok_iff.mpr ⟨number, denoted, bind_eq_ok_iff.mpr ⟨other, denotedRight,
    bind_eq_ok_iff.mpr ⟨code, quantized, rfl⟩⟩⟩⟩

theorem Combination.delivers {combination : Combination} (sound : combination.body.Sound)
    (inside : combination.plan.Inside) (schedule : Schedule) {right : Buffer}
    (first : inputs[0]? = some input) (second : inputs[1]? = some right)
    (lends : input.Lends aligned combination.body.width combination.plan.left.count)
    (lendsRight : right.Lends aligned combination.body.width combination.plan.right.count)
    (lendsOutput : output.Lends aligned combination.body.width combination.plan.count) :
    (combination.contents schedule inputs output).UnlessMisaligned aligned := by
  unfold contents withFunction
  dsimp only
  cases same : combination.body with
  | single =>
      rw [same] at lends lendsRight lendsOutput
      exact combineElements_delivers (fun _ _ => ⟨_, rfl⟩) schedule inside _ _ first second lends
        lendsRight lendsOutput
  | half =>
      rw [same] at lends lendsRight lendsOutput
      exact combineElements_delivers (fun _ _ => ⟨_, rfl⟩) schedule inside _ _ first second lends
        lendsRight lendsOutput
  | codes signed left right result low high =>
      rw [same] at lends lendsRight lendsOutput sound
      obtain ⟨valid, validRight, ordered⟩ := sound
      cases signed with
      | true =>
          exact combineElements_delivers (exists_ofCodes Code.within_signed valid validRight
            ordered combination.function result) schedule inside _ _ first second lends lendsRight
            lendsOutput
      | false =>
          exact combineElements_delivers (exists_ofCodes Code.within_unsigned valid validRight
            ordered combination.function result) schedule inside _ _ first second lends lendsRight
            lendsOutput

theorem signedWord_eq {value : Int} (least : -2 ^ 63 ≤ value) (most : value < 2 ^ 63) :
    signedWord value = .ok value := by
  have smallest : Int64.minValue.toInt = -2 ^ 63 := rfl
  have largest : Int64.maxValue.toInt = 2 ^ 63 - 1 := rfl
  unfold signedWord
  rw [if_pos ⟨by omega, by omega⟩]

/-- The least and the greatest sum of codes of a storage type over a number of positions. -/
def CodeSum (element : ElementType) (positions : Nat) (sum : Int) : Prop :=
  positions * element.codeRange.1.toInt ≤ sum ∧ sum ≤ positions * element.codeRange.2.toInt

/-- Codes of accepted parameters are averaged as long as 255 times the positions fit a word: sums,
the zero point of all positions and their difference all do. -/
theorem Pooling.sumsUp_codes {α : Type} [Code α] {element : ElementType}
    (within : Code.Within α element) {scale : Quantization}
    (valid : scale.validate element = .ok ()) {low high : Int32} (ordered : low ≤ high)
    (result : Quantization) {positions : Nat} (area : 255 * positions < 2 ^ 63) :
    ∃ mean : Int → Checked α,
      meanOfCodes positions scale result low high <$> zeroSum scale positions = .ok mean ∧
        SumsUp positions (0 : Int)
          (fun sum (code : α) => signedWord (sum + (Code.toInt32 code).toInt)) mean
          (CodeSum element) := by
  have zeroPoint := within.zeroPoint valid
  have inside := within.inside
  obtain ⟨_, least, least_nonpos, greatest_nonneg, greatest, spread⟩ := within.byte.range
  unfold CodeSum
  generalize element.codeRange.1.toInt = lowest at *
  generalize element.codeRange.2.toInt = highest at *
  have nonneg : (0 : Int) ≤ positions := Int.natCast_nonneg positions
  have zeroLeast := Int.mul_le_mul_of_nonneg_left zeroPoint.1 nonneg
  have zeroMost := Int.mul_le_mul_of_nonneg_left zeroPoint.2 nonneg
  have lowestLeast := Int.mul_le_mul_of_nonneg_left least nonneg
  have highestMost := Int.mul_le_mul_of_nonneg_left greatest nonneg
  have span : (positions : Int) * highest - positions * lowest = positions * 255 := by
    rw [← Int.mul_sub, spread]
  have zero : zeroSum scale positions = .ok (positions * scale.zeroPoint.toInt) := by
    unfold zeroSum
    rw [Int64.toInt_ofNat_of_lt (by omega), Int.mul_comm]
    exact signedWord_eq (by omega) (by omega)
  refine ⟨_, map_eq_ok_iff.mpr ⟨_, zero, rfl⟩, ⟨by simp, ?_, ?_⟩⟩
  · intro position before sum code held
    obtain ⟨codeLeast, codeMost⟩ := inside code
    have step : ((position + 1 : Nat) : Int) ≤ positions := by omega
    have bounds : ((position + 1 : Nat) : Int) * lowest ≤ sum + (Code.toInt32 code).toInt ∧
        sum + (Code.toInt32 code).toInt ≤ ((position + 1 : Nat) : Int) * highest := by
      push_cast
      rw [Int.add_mul, Int.add_mul]
      omega
    have floor := Int.mul_le_mul_of_nonpos_right step least_nonpos
    have ceiling := Int.mul_le_mul_of_nonneg_right step greatest_nonneg
    exact ⟨_, signedWord_eq (by omega) (by omega), bounds⟩
  · intro sum held
    obtain ⟨code, quantized⟩ := result.exists_quantize_between
      (Binary32.ofInt (sum - positions * scale.zeroPoint.toInt) *
        (scale.scale / divisor positions)) ordered
    exact ⟨_, bind_eq_ok_iff.mpr ⟨_, signedWord_eq (by omega) (by omega),
      bind_eq_ok_iff.mpr ⟨code, quantized, rfl⟩⟩⟩

theorem Pooling.delivers {pooling : Pooling} (sound : pooling.body.Sound) (schedule : Schedule)
    (area : 255 * pooling.positions < 2 ^ 63)
    (short : pooling.images * pooling.positions * pooling.channels < 2 ^ 64)
    (first : inputs[0]? = some input)
    (lends : input.Lends aligned pooling.body.width
      (pooling.images * pooling.positions * pooling.channels))
    (lendsOutput : output.Lends aligned pooling.body.width
      (pooling.images * pooling.channels)) :
    (pooling.contents schedule inputs output).UnlessMisaligned aligned := by
  have numbers : ∀ {α : Type} {add : Float32 → α → Float32} {mean : Float32 → α},
      SumsUp pooling.positions Binary32.zero (fun sum x => .ok (add sum x))
        (fun sum => .ok (mean sum)) (fun _ _ => True) :=
    ⟨trivial, fun _ _ _ _ _ => ⟨_, rfl, trivial⟩, fun _ _ => ⟨_, rfl⟩⟩
  unfold contents
  cases same : pooling.body with
  | single low high =>
      rw [same] at lends lendsOutput
      exact numbers.delivers rfl schedule _ first lends short lendsOutput
  | half low high =>
      rw [same] at lends lendsOutput
      exact numbers.delivers rfl schedule _ first lends short lendsOutput
  | codes signed scale result low high =>
      rw [same] at lends lendsOutput sound
      obtain ⟨valid, ordered⟩ := sound
      cases signed with
      | true =>
          obtain ⟨mean, prepared, sums⟩ :=
            sumsUp_codes Code.within_signed valid ordered result area
          exact sums.delivers prepared schedule _ first lends short lendsOutput
      | false =>
          obtain ⟨mean, prepared, sums⟩ :=
            sumsUp_codes Code.within_unsigned valid ordered result area
          exact sums.delivers prepared schedule _ first lends short lendsOutput

theorem Product.delivers {product : Product} (sound : product.body.Sound)
    (takes : product.body.Takes product.artifact.weights.data)
    (whole : product.artifact.weights.Whole) (schedule : Schedule)
    (short : product.rows * product.artifact.weights.inner < 2 ^ 64)
    (first : inputs[0]? = some input)
    (lends : input.Lends aligned product.body.width
      (product.rows * product.artifact.weights.inner))
    (lendsOutput : output.Lends aligned product.body.width
      (product.rows * product.artifact.weights.outputs)) :
    (product.contents schedule inputs output).UnlessMisaligned aligned := by
  unfold PackedWeights.Whole at whole
  unfold contents floatContents codeContents
  cases same : product.body with
  | single low high =>
      rw [same] at lends lendsOutput takes
      cases packed : product.artifact.weights.data with
      | codes entries bias =>
          rw [packed] at takes
          cases takes
      | floats entries bias =>
          rw [packed] at whole
          exact multiplyRows_delivers whole.1 whole.2 _ (fun _ => ⟨_, rfl⟩) schedule _ first lends
            short lendsOutput
  | half low high =>
      rw [same] at lends lendsOutput takes
      cases packed : product.artifact.weights.data with
      | codes entries bias =>
          rw [packed] at takes
          cases takes
      | floats entries bias =>
          rw [packed] at whole
          exact multiplyRows_delivers whole.1 whole.2 _ (fun _ => ⟨_, rfl⟩) schedule _ first lends
            short lendsOutput
  | codes result scale low high =>
      rw [same] at lends lendsOutput takes sound
      cases packed : product.artifact.weights.data with
      | floats entries bias =>
          rw [packed] at takes
          cases takes
      | codes entries bias =>
          rw [packed] at whole
          refine multiplyRows_delivers whole.1 whole.2 _ (fun sum => ?_) schedule _ first lends
            short lendsOutput
          obtain ⟨code, quantized⟩ :=
            result.exists_quantize_between (Binary32.ofInt sum.toInt * scale) sound
          exact ⟨_, bind_eq_ok_iff.mpr ⟨code, quantized, rfl⟩⟩

end Runs

/-! ## Runs after a set-up -/

/-- Buffers that hold the operands of these shapes which operators read: two at most, as weights
are packed. -/
def LendsOperands (aligned : Prop) (width : Nat) (shapes : List Shape) (inputs : List Buffer) :
    Prop :=
  ∀ index < 2, ∀ shape, shapes[index]? = some shape →
    ∃ buffer, inputs[index]? = some buffer ∧ buffer.Lends aligned width shape.elementCount

def Shape.area : Shape → Nat
  | [_, height, width, _] => height * width
  | _ => 0

theorem exists_of_sharedCount {kind : OpKind} {shapes : List Shape} {output : Shape} {count : Nat}
    (shared : sharedCount kind shapes output = .ok count) :
    ∃ shape, shapes[0]? = some shape ∧ shape.elementCount = count := by
  unfold sharedCount at shared
  obtain ⟨shape, found, shared⟩ := bind_eq_ok_iff.mp shared
  dsimp only at shared
  split at shared
  · cases shared
    exact ⟨shape, operand_eq_ok_iff.mp found, rfl⟩
  · cases shared

theorem exists_of_extent {channels images positions : Nat} {shapes : List Shape} {output : Shape}
    (found : Pooling.extent channels shapes output = .ok (images, positions)) :
    ∃ shape, shapes[0]? = some shape ∧ shape.area = positions ∧
      shape.elementCount = images * positions * channels := by
  obtain ⟨height, width, given, rfl, _⟩ := Pooling.extent_eq_ok_iff.mp found
  refine ⟨_, given, rfl, ?_⟩
  simp only [Shape.elementCount, Nat.mul_one, Nat.mul_assoc]

theorem exists_of_rowCount {weights : PackedWeights} {shapes : List Shape} {output : Shape}
    {rows : Nat} (found : Product.rowCount weights shapes output = .ok rows) :
    ∃ shape, shapes[0]? = some shape ∧ shape.elementCount = rows * weights.inner := by
  obtain ⟨input, given, _, channels, _, rfl⟩ := Product.rowCount_eq_ok_iff.mp found
  exact ⟨input, given, by rw [← channels, Shape.batch_mul_channels]⟩

namespace StandardOperator

def operandWidth : StandardOperator → Nat
  | conversion operator => operator.body.operandWidth
  | operator => operator.elementWidth

/-- A sound operator that has been set up for shapes runs on buffers of these shapes, unless they
are not aligned. Sizes are words, and so is 255 times the area of images that are averaged. -/
theorem Sound.delivers {aligned : Prop} {operator ready : StandardOperator}
    (sound : operator.Sound) {shapes : List Shape} {output : Shape}
    (done : operator.setup shapes output = (ready, .ok ()))
    (short : ∀ shape ∈ shapes, shape.elementCount < 2 ^ 64)
    (area : operator.kind = .globalAveragePooling2d →
      ∀ shape, shapes[0]? = some shape → 255 * shape.area < 2 ^ 63)
    {inputs : List Buffer} {room : Buffer}
    (lends : LendsOperands aligned operator.operandWidth shapes inputs)
    (lendsOutput : room.Lends aligned operator.elementWidth output.elementCount)
    (schedule : Schedule) : (ready.contents schedule inputs room).UnlessMisaligned aligned := by
  rw [← elementCount_setup done] at lendsOutput
  cases operator with
  | mapping mapping =>
      simp only [setup, Mapping.setup] at done
      split at done
      · rename_i count found
        cases done
        obtain ⟨shape, listed, size⟩ := exists_of_sharedCount found
        obtain ⟨buffer, given, whole⟩ := lends 0 (by decide) shape listed
        rw [size] at whole
        exact @Mapping.delivers aligned inputs buffer room { mapping with count := count }
          sound.body schedule given whole lendsOutput
      · cases done
  | conversion conversion =>
      simp only [setup, Conversion.setup] at done
      split at done
      · rename_i count found
        cases done
        obtain ⟨shape, listed, size⟩ := exists_of_sharedCount found
        obtain ⟨buffer, given, whole⟩ := lends 0 (by decide) shape listed
        rw [size] at whole
        exact @Conversion.delivers aligned inputs buffer room { conversion with count := count }
          sound.body schedule given whole lendsOutput
      · cases done
  | combination combination =>
      simp only [setup, Combination.setup] at done
      split at done
      · rename_i plan found
        cases done
        obtain ⟨left, foundLeft, found⟩ := bind_eq_ok_iff.mp found
        obtain ⟨right, foundRight, found⟩ := bind_eq_ok_iff.mp found
        obtain ⟨inside, sizeLeft, sizeRight⟩ := BroadcastPlan.inside_of_make found
        obtain ⟨buffer, given, whole⟩ :=
          lends 0 (by decide) left (operand_eq_ok_iff.mp foundLeft)
        obtain ⟨other, givenRight, wholeRight⟩ :=
          lends 1 (by decide) right (operand_eq_ok_iff.mp foundRight)
        rw [← sizeLeft] at whole
        rw [← sizeRight] at wholeRight
        exact @Combination.delivers aligned inputs buffer room { combination with plan := plan }
          sound.body inside schedule other given givenRight whole wholeRight lendsOutput
      · cases done
  | pooling pooling =>
      simp only [setup, Pooling.setup] at done
      split at done
      · rename_i images positions found
        cases done
        obtain ⟨shape, listed, positions_eq, size⟩ := exists_of_extent found
        obtain ⟨buffer, given, whole⟩ := lends 0 (by decide) shape listed
        have bounded := area rfl shape listed
        have fits := short shape (List.mem_of_getElem? listed)
        rw [positions_eq] at bounded
        rw [size] at whole fits
        exact @Pooling.delivers aligned inputs buffer room
          { pooling with images := images, positions := positions } sound.body schedule
          bounded fits given whole lendsOutput
      · cases done
  | product product =>
      obtain ⟨takes, panels⟩ := sound.weights
      simp only [setup, Product.setup] at done
      split at done
      · rename_i rows found
        cases done
        obtain ⟨shape, listed, size⟩ := exists_of_rowCount found
        obtain ⟨buffer, given, whole⟩ := lends 0 (by decide) shape listed
        have fits := short shape (List.mem_of_getElem? listed)
        rw [size] at whole fits
        exact @Product.delivers aligned inputs buffer room { product with rows := rows }
          sound.body takes panels schedule fits given whole lendsOutput
      · cases done

end StandardOperator

end TensorEngine
