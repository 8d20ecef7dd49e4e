import TensorEngine.Proofs.Kernel.CodeProducts
import TensorEngine.Proofs.Kernel.LookUp
import TensorEngine.Proofs.Kernel.PooledMeans
import TensorEngine.Proofs.Tensor.CodeConfinement

/-!
Contract: kernels narrow 32-bit codes to bytes without loss.

Owns:
- `Code.Narrows`, elements that hold every code of a storage type in a byte;
- what the confinement of a code, the combination of two codes, a mean and a sum of products narrow;
- `StandardOperator.ConfinesCodes`, an operator that confines its results between codes, and the
  theorem that every byte of its contents holds a code between them.

Does not own: from which range of a node the codes come.
-/

namespace TensorEngine

open TensorEngine.Numeric Conversion UnaryFunction

/-! ## Codes in bytes -/

/-- Elements that are the codes of a storage type: a byte holds each, and none of the codes of the
type is lost when it is narrowed. -/
structure Code.Narrows (α : Type) [Code α] (element : ElementType) : Prop where
  byte : element.IsByteCode
  width : Storage.width α = 1
  encode : ∀ code : α, ∃ byte, Storage.encode code = [byte] ∧
    codeOfByte element byte = Code.toInt32 code
  decode : ∀ bytes, Code.toInt32 (Storage.decode bytes : α) = codeOfByte element (bytes.headD 0)
  narrow : ∀ code, element.codeRange.1 ≤ code → code ≤ element.codeRange.2 →
    Code.toInt32 (Code.ofInt32 code : α) = code

theorem Code.narrows_signed : Code.Narrows Int8 (codeElement true) where
  byte := .inl rfl
  width := rfl
  encode code := ⟨code.toUInt8, rfl, congrArg Int8.toInt32 (Int8.toInt8_toUInt8 code)⟩
  decode _ := rfl
  narrow code least most := by
    rw [Int32.le_iff_toInt_le] at least most
    change -128 ≤ code.toInt at least
    change code.toInt ≤ 127 at most
    show (Int8.ofInt (max (-128) (min code.toInt 127))).toInt32 = code
    rw [min_eq_left most, max_eq_right least, ← Int32.toInt_inj, Int8.toInt_toInt32,
      Int8.toInt_ofInt_of_le least (by omega)]

theorem Code.narrows_unsigned : Code.Narrows UInt8 (codeElement false) where
  byte := .inr rfl
  width := rfl
  encode code := ⟨code, rfl, rfl⟩
  decode _ := rfl
  narrow code least most := by
    rw [Int32.le_iff_toInt_le] at least most
    change 0 ≤ code.toInt at least
    change code.toInt ≤ 255 at most
    show Int32.ofNat (min code.toInt 255).toNat.toUInt8.toNat = code
    have short : code.toInt.toNat < 2 ^ 8 := by omega
    rw [min_eq_left most, ← Int32.toInt_inj, UInt8.toNat_ofNat_of_lt' short,
      Int32.toInt_ofNat_of_lt (by omega), Int.toNat_of_nonneg least]

/-! ## Narrowed results -/

/-- Bounds of codes, in order and among the codes of a storage type. -/
structure ElementType.Bounds (element : ElementType) (low high : Int32) : Prop where
  least : element.codeRange.1 ≤ low
  ordered : low ≤ high
  most : high ≤ element.codeRange.2

section Narrowing

variable {α : Type} [Code α] {element : ElementType} (narrows : Code.Narrows α element)
  {low high : Int32} (bounds : element.Bounds low high)

include narrows bounds

/-- A code between bounds is narrowed without loss. -/
theorem Code.Narrows.toInt32_ofInt32 {wide : Int32} (least : low ≤ wide) (most : wide ≤ high) :
    Code.toInt32 (Code.ofInt32 wide : α) = wide :=
  narrows.narrow wide (Int32.le_trans bounds.least least) (Int32.le_trans most bounds.most)

/-- The code of a number is between bounds, and is narrowed without loss. -/
theorem Code.Narrows.of_quantize {scale : Quantization} {x : Float32} {wide : Int32}
    (quantized : scale.quantize x low high = .ok wide) :
    Code.toInt32 (Code.ofInt32 wide : α) = wide ∧ low ≤ wide ∧ wide ≤ high := by
  have short := narrows.byte.short_of_inside bounds.least
    (Int32.le_trans bounds.ordered bounds.most)
  have shortHigh := narrows.byte.short_of_inside (Int32.le_trans bounds.least bounds.ordered)
    bounds.most
  obtain ⟨least, most⟩ := Quantization.quantize_inside (by omega) (by omega) quantized
  exact ⟨narrows.toInt32_ofInt32 bounds least most, least, most⟩

/-- A code that is confined in place is that of the confined 32-bit code. -/
theorem Mapping.confined_eq_ok {code result : α}
    (ran : Mapping.confined low high code = .ok result) :
    confineCode (Code.toInt32 code) low high = .ok (Code.toInt32 result) ∧
      low ≤ Code.toInt32 result ∧ Code.toInt32 result ≤ high := by
  obtain ⟨wide, confined, rfl⟩ := map_eq_ok_iff.mp ran
  obtain ⟨least, most⟩ := confineCode_inside confined
  rw [narrows.toInt32_ofInt32 bounds least most]
  exact ⟨confined, least, most⟩

/-- The result of two codes is the 32-bit code of the function of their numbers. -/
theorem Combination.ofCodes_eq_ok {function : BinaryFunction} {left right scale : Quantization}
    {x y result : α} (ran : ofCodes function left right scale low high x y = .ok result) :
    (∃ number other, left.dequantize (Code.toInt32 x) = .ok number ∧
      right.dequantize (Code.toInt32 y) = .ok other ∧
      scale.quantize (function.apply number other) low high = .ok (Code.toInt32 result)) ∧
      low ≤ Code.toInt32 result ∧ Code.toInt32 result ≤ high := by
  obtain ⟨number, denoted, ran⟩ := bind_eq_ok_iff.mp ran
  obtain ⟨other, denotedRight, ran⟩ := bind_eq_ok_iff.mp ran
  obtain ⟨wide, quantized, ran⟩ := bind_eq_ok_iff.mp ran
  cases ran
  obtain ⟨same, least, most⟩ := narrows.of_quantize bounds quantized
  rw [same]
  exact ⟨⟨number, other, denoted, denotedRight, quantized⟩, least, most⟩

/-- The mean of a sum of codes is the 32-bit code of how far the sum is from the zero point. -/
theorem Pooling.meanOfCodes_eq_ok {positions : Nat} {input scale : Quantization} {zero sum : Int}
    {result : α} (ran : meanOfCodes positions input scale low high zero sum = .ok result) :
    scale.quantize (Binary32.ofInt (sum - zero) * (input.scale / divisor positions)) low high =
        .ok (Code.toInt32 result) ∧
      low ≤ Code.toInt32 result ∧ Code.toInt32 result ≤ high := by
  obtain ⟨distance, fits, ran⟩ := bind_eq_ok_iff.mp ran
  obtain ⟨wide, quantized, ran⟩ := bind_eq_ok_iff.mp ran
  cases ran
  cases signedWord_eq_ok fits
  obtain ⟨same, least, most⟩ := narrows.of_quantize bounds quantized
  rw [same]
  exact ⟨quantized, least, most⟩

end Narrowing

theorem Product.codeOfSum_eq_ok {low high : Int32}
    (bounds : ElementType.Bounds .qint8 low high) {scale : Quantization} {sumScale : Float32}
    {sum : Int32} {result : Int8} (ran : codeOfSum scale sumScale low high sum = .ok result) :
    scale.quantize (Binary32.ofInt sum.toInt * sumScale) low high = .ok (Code.toInt32 result) ∧
      low ≤ Code.toInt32 result ∧ Code.toInt32 result ≤ high := by
  obtain ⟨wide, quantized, ran⟩ := bind_eq_ok_iff.mp ran
  cases ran
  obtain ⟨_, least, most⟩ := Code.narrows_signed.of_quantize bounds quantized
  have leastWord := Int32.le_iff_toInt_le.mp (Int32.le_trans bounds.least least)
  have mostWord := Int32.le_iff_toInt_le.mp (Int32.le_trans most bounds.most)
  change -128 ≤ wide.toInt at leastWord
  change wide.toInt ≤ 127 at mostWord
  rw [show Code.toInt32 wide.toInt8 = wide from toInt32_toInt8 leastWord mostWord]
  exact ⟨quantized, least, most⟩

/-! ## Sums of codes -/

/-- Sums over the positions of an image that are there are, channel by channel, those of the
elements of that channel. -/
theorem spatialSums_eq_ok {α β : Type} {view : RowView α} {image channels positions : Nat}
    {zero : β} {add : β → α → Checked β} {element : (position channel : Nat) → α}
    (rows : ∀ position < positions, ∃ part, view.row (image * positions + position) = .ok part ∧
      ∀ channel < channels, fetch part channel = .ok (element position channel))
    {totals : Array β} (ran : spatialSums view image positions channels zero add = .ok totals)
    {channel : Nat} (among : channel < channels) :
    ∃ total, fetch totals channel = .ok total ∧
      (List.range positions).foldlM
        (fun sum position => add sum (element position channel)) zero = .ok total := by
  unfold spatialSums at ran
  -- the place of an image does not change with the number of its positions that are summed up
  generalize image * positions = start at rows ran
  induction positions generalizing totals with
  | zero =>
      cases ran
      refine ⟨zero, fetch_eq_ok_iff.mpr ?_, rfl⟩
      rw [Array.getElem?_replicate, if_pos among]
  | succ positions inductionHypothesis =>
      rw [List.range_succ, List.foldlM_append] at ran
      obtain ⟨before, summed, last⟩ := bind_eq_ok_iff.mp ran
      rw [List.foldlM_cons] at last
      obtain ⟨after, last, same⟩ := bind_eq_ok_iff.mp last
      cases same
      obtain ⟨sum, found, folded⟩ :=
        inductionHypothesis (fun position within => rows position (by omega)) summed
      obtain ⟨part, row, elements⟩ := rows positions (Nat.lt_succ_self positions)
      obtain ⟨_, rowAgain, collected⟩ := bind_eq_ok_iff.mp last
      cases row.symm.trans rowAgain
      obtain ⟨total, there, added⟩ :=
        (collect_eq_ok_iff.mp collected).exists_element among
      rw [Nat.zero_add, found, elements channel among] at added
      change add sum (element positions channel) = .ok total at added
      refine ⟨total, fetch_eq_ok_iff.mpr there, ?_⟩
      rw [List.range_succ, List.foldlM_append, folded]
      show (add sum (element positions channel) >>= fun next => List.foldlM _ next []) = _
      rw [added]
      rfl

/-- The zero points of all positions are their product, up to the range of words. -/
theorem Pooling.zeroSum_modEq {input : Quantization} {positions : Nat} {zero : Int}
    (ran : zeroSum input positions = .ok zero) :
    zero ≡ input.zeroPoint.toInt * positions [ZMOD 2 ^ 64] := by
  cases signedWord_eq_ok ran
  rw [Int64.toInt_ofNat']
  exact Int.ModEq.mul_left _ Int.bmod_emod

/-! ## Contents between codes -/

/-- An operator that confines its results between codes of a storage type. -/
inductive StandardOperator.ConfinesCodes (element : ElementType) (low high : Int32) :
    StandardOperator → Prop
  | mapping {mapping : Mapping} {signed : Bool} (type : codeElement signed = element)
      (body : mapping.body = .confineCodes signed low high) :
      ConfinesCodes element low high (.mapping mapping)
  | combination {combination : Combination} {signed : Bool} {left right output : Quantization}
      (type : codeElement signed = element)
      (body : combination.body = .codes signed left right output low high) :
      ConfinesCodes element low high (.combination combination)
  | pooling {pooling : Pooling} {signed : Bool} {input output : Quantization}
      (type : codeElement signed = element)
      (body : pooling.body = .codes signed input output low high) :
      ConfinesCodes element low high (.pooling pooling)
  | product {product : Product} {output : Quantization} {scale : Float32}
      (type : .qint8 = element) (body : product.body = .codes output scale low high) :
      ConfinesCodes element low high (.product product)

/-- Each place of an output, up to a number of them, is a byte that holds a code between bounds. -/
def HoldsBetween (element : ElementType) (low high : Int32) (written : Bytes) (count : Nat) :
    Prop :=
  ∀ place < count, ∃ byte, elementBytes written 1 place = [byte] ∧
    low ≤ codeOfByte element byte ∧ codeOfByte element byte ≤ high

theorem elementBytes_one {bytes : Bytes} {place : Nat} {byte : UInt8}
    (found : bytes[place]? = some byte) : elementBytes bytes 1 place = [byte] := by
  obtain ⟨inside, rfl⟩ := Array.getElem?_eq_some_iff.mp found
  unfold elementBytes
  rw [Nat.mul_one, Array.toList_extract, List.extract_eq_take_drop, Nat.add_sub_cancel_left,
    List.drop_eq_getElem_cons inside, List.take_succ_cons, List.take_zero, Array.getElem_toList]

theorem Writes.exists_byte {α : Type} [Code α] {element : ElementType}
    (narrows : Code.Narrows α element) {room : Buffer} {count : Nat} {computed : Nat → Checked α}
    {bytes : Bytes} (writes : Writes room count computed bytes) {place : Nat}
    (within : place < count) :
    ∃ result byte, computed place = .ok result ∧
      elementBytes (overlay room.bytes bytes) 1 place = [byte] ∧
      codeOfByte element byte = Code.toInt32 result := by
  obtain ⟨before, written, viewed, enough, computes, rfl⟩ := writes
  obtain ⟨-, -, rfl⟩ := view_eq_ok_iff.mp viewed
  rw [decodeAll_size, narrows.width, Nat.div_one] at enough
  obtain ⟨result, found, value⟩ := computes.exists_element within
  obtain ⟨byte, encoded, code⟩ := narrows.encode result
  have fits : written.size * Storage.width α ≤ room.bytes.size := by
    rw [computes.size_eq, narrows.width, Nat.mul_one]
    exact enough
  rw [Nat.zero_add] at value
  refine ⟨result, byte, value, ?_, code⟩
  rw [← encoded, ← elementBytes_overlay fits found, narrows.width]

/-- What is written of codes between bounds holds them. -/
theorem Writes.holdsBetween {α : Type} [Code α] {element : ElementType}
    (narrows : Code.Narrows α element) {low high : Int32} {room : Buffer} {count : Nat}
    {computed : Nat → Checked α} {bytes : Bytes} (writes : Writes room count computed bytes)
    (inside : ∀ place result, computed place = .ok result →
      low ≤ Code.toInt32 result ∧ Code.toInt32 result ≤ high) :
    HoldsBetween element low high (overlay room.bytes bytes) count := by
  intro place within
  obtain ⟨result, byte, value, written, code⟩ := writes.exists_byte narrows within
  refine ⟨byte, written, ?_⟩
  rw [code]
  exact inside _ _ value

section Contents

variable {α : Type} [Code α] {element : ElementType} {low high : Int32} {schedule : Schedule}
  {inputs : List Buffer} {room : Buffer} {bytes : Bytes}

theorem mapElements_holdsBetween (narrows : Code.Narrows α element)
    (bounds : element.Bounds low high) {tileElements lanes count : Nat}
    (ran : mapElements (Mapping.confined (α := α) low high) schedule tileElements lanes count inputs
      room = .ok bytes) :
    HoldsBetween element low high (overlay room.bytes bytes) count := by
  obtain ⟨elements, _, _, writes⟩ := mapElements_eq_ok_iff.mp ran
  refine writes.holdsBetween narrows fun place result computed => ?_
  obtain ⟨code, _, computed⟩ := bind_eq_ok_iff.mp computed
  exact (Mapping.confined_eq_ok narrows bounds computed).2

theorem combineElements_holdsBetween (narrows : Code.Narrows α element)
    (bounds : element.Bounds low high) {function : BinaryFunction}
    {left right output : Quantization} {plan : BroadcastPlan} {tileElements lanes : Nat}
    (ran : combineElements (Combination.ofCodes (α := α) function left right output low high)
      schedule plan tileElements lanes inputs room = .ok bytes) :
    HoldsBetween element low high (overlay room.bytes bytes) plan.count := by
  obtain ⟨lefts, rights, _, _, writes⟩ := combineElements_eq_ok_iff.mp ran
  refine writes.holdsBetween narrows fun place result computed => ?_
  -- flat or in rows, an element is the result of some two codes
  unfold combinedElement at computed
  split at computed
  · obtain ⟨x, _, computed⟩ := bind_eq_ok_iff.mp computed
    obtain ⟨y, _, computed⟩ := bind_eq_ok_iff.mp computed
    exact (Combination.ofCodes_eq_ok narrows bounds computed).2
  · obtain ⟨offsets, _, computed⟩ := bind_eq_ok_iff.mp computed
    obtain ⟨x, _, computed⟩ := bind_eq_ok_iff.mp computed
    obtain ⟨y, _, computed⟩ := bind_eq_ok_iff.mp computed
    exact (Combination.ofCodes_eq_ok narrows bounds computed).2

theorem poolCodes_holdsBetween (narrows : Code.Narrows α element)
    (bounds : element.Bounds low high) {pooling : Pooling} {input output : Quantization}
    (ran : pooling.poolCodes α input output low high schedule inputs room = .ok bytes) :
    HoldsBetween element low high (overlay room.bytes bytes)
      (pooling.images * pooling.channels) := by
  obtain ⟨elements, view, mean, _, _, prepared, writes⟩ := poolImages_eq_ok_iff.mp ran
  rcases prepared with none | prepared
  · rw [none]
    exact fun place within => absurd within (Nat.not_lt_zero place)
  · obtain ⟨zero, _, rfl⟩ := map_eq_ok_iff.mp prepared
    refine writes.holdsBetween narrows fun place result computed => ?_
    obtain ⟨sums, _, computed⟩ := bind_eq_ok_iff.mp computed
    obtain ⟨sum, _, computed⟩ := bind_eq_ok_iff.mp computed
    exact (Pooling.meanOfCodes_eq_ok narrows bounds computed).2

/-- Whatever codes are pooled, an element that is written is the 32-bit code of how far the codes of
its image and channel are from the zero point, up to the range of words. -/
theorem poolCodes_eq_ok (narrows : Code.Narrows α element) (bounds : element.Bounds low high)
    {pooling : Pooling} {input output : Quantization} {source : Buffer}
    (ran : pooling.poolCodes α input output low high schedule inputs room = .ok bytes)
    (given : inputs[0]? = some source)
    (fits : source.Fits 1 (pooling.images * pooling.positions * pooling.channels))
    {image channel : Nat} (inside : image < pooling.images) (among : channel < pooling.channels) :
    ∃ byte distance,
      elementBytes (overlay room.bytes bytes) 1 (image * pooling.channels + channel) = [byte] ∧
      distance ≡ ((pooledElements source 1 pooling.positions pooling.channels image channel).map
        fun bytes => (codeOfByte element (bytes.headD 0)).toInt - input.zeroPoint.toInt).sum
          [ZMOD 2 ^ 64] ∧
      output.quantize
          (Binary32.ofInt distance * (input.scale / Pooling.divisor pooling.positions)) low high =
        .ok (codeOfByte element byte) := by
  obtain ⟨elements, view, mean, ⟨_, first, viewed⟩, made, prepared, writes⟩ :=
    poolImages_eq_ok_iff.mp ran
  cases given.symm.trans first
  obtain ⟨-, -, rfl⟩ := view_eq_ok_iff.mp viewed
  obtain ⟨_, madeAgain, rows⟩ := @Buffer.Fits.exists_rows α _ _ _ _ (by
    rw [narrows.width]
    exact fits)
  cases made.symm.trans madeAgain
  have some : 0 < pooling.channels := Nat.zero_lt_of_lt among
  obtain ⟨zero, zeroPoints, rfl⟩ :=
    map_eq_ok_iff.mp (prepared.resolve_left (Nat.pos_iff_ne_zero.mp some))
  have place : pooling.channels * image + channel < pooling.images * pooling.channels :=
    Nat.mul_add_lt_mul_of_lt_of_lt inside among
  rw [Nat.mul_comm pooling.channels] at place
  obtain ⟨result, byte, computed, written, code⟩ := writes.exists_byte narrows place
  obtain ⟨totals, summed, computed⟩ := bind_eq_ok_iff.mp computed
  obtain ⟨sum, found, computed⟩ := bind_eq_ok_iff.mp computed
  rw [Nat.mul_comm image, Nat.mul_add_div some, Nat.div_eq_of_lt among, Nat.add_zero] at summed
  rw [Nat.mul_comm image, Nat.mul_add_mod, Nat.mod_eq_of_lt among] at found
  obtain ⟨total, foundAgain, folded⟩ := spatialSums_eq_ok (fun position within => by
    have row : pooling.positions * image + position < pooling.images * pooling.positions :=
      Nat.mul_add_lt_mul_of_lt_of_lt inside within
    rw [Nat.mul_comm pooling.positions] at row
    obtain ⟨part, read, _, held⟩ := rows _ row
    exact ⟨part, read, held⟩) summed among
  cases found.symm.trans foundAgain
  refine ⟨byte, sum - zero, written, ?_, ?_⟩
  · have folded : ((pooledElements source 1 pooling.positions pooling.channels image channel).map
        (Storage.decode : List UInt8 → α)).foldlM
          (fun sum code => signedWord (sum + (Code.toInt32 code).toInt)) 0 = .ok sum := by
      unfold pooledElements
      rw [List.map_map, List.foldlM_map, ← narrows.width]
      exact folded
    have distances := Pooling.sum_distances input.zeroPoint.toInt folded
    rw [List.map_map, List.length_map, Int.sub_zero] at distances
    simp only [Function.comp_def, narrows.decode] at distances
    rw [distances]
    refine Int.ModEq.sub_left _ (Pooling.zeroSum_modEq zeroPoints |>.trans ?_)
    unfold pooledElements
    rw [List.length_map, List.length_range]
  · rw [code]
    exact (Pooling.meanOfCodes_eq_ok narrows bounds computed).1

/-- A pooling of codes leaves the codes of its means. -/
theorem Pooling.exists_code_of_contents {pooling : Pooling} {signed : Bool}
    {input output : Quantization} (bounds : (codeElement signed).Bounds low high)
    (body : pooling.body = .codes signed input output low high)
    (ran : pooling.contents schedule inputs room = .ok bytes) {source : Buffer}
    (given : inputs[0]? = some source)
    (fits : source.Fits 1 (pooling.images * pooling.positions * pooling.channels))
    {image channel : Nat} (inside : image < pooling.images) (among : channel < pooling.channels) :
    ∃ byte distance,
      elementBytes (overlay room.bytes bytes) 1 (image * pooling.channels + channel) = [byte] ∧
      distance ≡ ((pooledElements source 1 pooling.positions pooling.channels image channel).map
        fun bytes => (codeOfByte (codeElement signed) (bytes.headD 0)).toInt -
          input.zeroPoint.toInt).sum [ZMOD 2 ^ 64] ∧
      output.quantize
          (Binary32.ofInt distance * (input.scale / Pooling.divisor pooling.positions)) low high =
        .ok (codeOfByte (codeElement signed) byte) := by
  unfold contents at ran
  rw [body] at ran
  cases signed with
  | true => exact poolCodes_eq_ok Code.narrows_signed bounds ran given fits inside among
  | false => exact poolCodes_eq_ok Code.narrows_unsigned bounds ran given fits inside among

/-- Whatever weights a product of codes has, an element that is written is the 32-bit code of a
32-bit sum. -/
theorem Product.exists_sum_of_contents (bounds : ElementType.Bounds .qint8 low high)
    {product : Product} {output : Quantization} {scale : Float32}
    (body : product.body = .codes output scale low high)
    (ran : product.contents schedule inputs room = .ok bytes) {place : Nat}
    (inside : place < product.rows * product.artifact.weights.outputs) :
    ∃ byte sum, elementBytes (overlay room.bytes bytes) 1 place = [byte] ∧
      output.quantize (Binary32.ofInt (Int32.toInt sum) * scale) low high =
        .ok (codeOfByte .qint8 byte) ∧
      low ≤ codeOfByte .qint8 byte ∧ codeOfByte .qint8 byte ≤ high := by
  unfold contents at ran
  rw [body] at ran
  change product.codeContents output scale low high schedule inputs room = .ok bytes at ran
  unfold codeContents at ran
  split at ran
  · cases ran
  · obtain ⟨elements, view, _, _, writes⟩ := multiplyRows_eq_ok_iff.mp ran
    obtain ⟨result, byte, computed, written, code⟩ :=
      writes.exists_byte Code.narrows_signed inside
    obtain ⟨row, _, computed⟩ := bind_eq_ok_iff.mp computed
    obtain ⟨sum, _, computed⟩ := bind_eq_ok_iff.mp computed
    refine ⟨byte, sum, written, ?_⟩
    rw [show codeOfByte .qint8 byte = Code.toInt32 result from code]
    exact codeOfSum_eq_ok bounds computed

end Contents

namespace StandardOperator.ConfinesCodes

variable {operator : StandardOperator} {element : ElementType} {low high : Int32}

theorem blank_iff :
    operator.blank.ConfinesCodes element low high ↔ operator.ConfinesCodes element low high := by
  cases operator with
  | mapping mapping =>
      exact ⟨fun (.mapping type body) => .mapping type body,
        fun (.mapping type body) => .mapping type body⟩
  | combination combination =>
      exact ⟨fun (.combination type body) => .combination type body,
        fun (.combination type body) => .combination type body⟩
  | pooling pooling =>
      exact ⟨fun (.pooling type body) => .pooling type body,
        fun (.pooling type body) => .pooling type body⟩
  | product product =>
      exact ⟨fun (.product type body) => .product type body,
        fun (.product type body) => .product type body⟩
  | conversion conversion => exact ⟨nofun, nofun⟩

/-- Whatever an operator reads, what it writes holds codes between its bounds. -/
theorem holdsBetween (confines : operator.ConfinesCodes element low high)
    (bounds : element.Bounds low high) {schedule : Schedule} {inputs : List Buffer}
    {room : Buffer} {bytes : Bytes}
    (ran : operator.contents schedule inputs room = .ok bytes) :
    HoldsBetween element low high (overlay room.bytes bytes) operator.elementCount := by
  cases confines with
  | @mapping mapping signed type body =>
      subst type
      change mapping.contents schedule inputs room = .ok bytes at ran
      unfold Mapping.contents at ran
      rw [body] at ran
      cases signed with
      | true => exact mapElements_holdsBetween Code.narrows_signed bounds ran
      | false => exact mapElements_holdsBetween Code.narrows_unsigned bounds ran
  | @combination combination signed left right output type body =>
      subst type
      change combination.contents schedule inputs room = .ok bytes at ran
      unfold Combination.contents Combination.withFunction at ran
      rw [body] at ran
      cases signed with
      | true => exact combineElements_holdsBetween Code.narrows_signed bounds ran
      | false => exact combineElements_holdsBetween Code.narrows_unsigned bounds ran
  | @pooling pooling signed input output type body =>
      subst type
      change pooling.contents schedule inputs room = .ok bytes at ran
      unfold Pooling.contents at ran
      rw [body] at ran
      cases signed with
      | true => exact poolCodes_holdsBetween Code.narrows_signed bounds ran
      | false => exact poolCodes_holdsBetween Code.narrows_unsigned bounds ran
  | @product product output scale type body =>
      subst type
      intro place inside
      obtain ⟨byte, _, written, _, between⟩ :=
        Product.exists_sum_of_contents bounds body ran inside
      exact ⟨byte, written, between⟩

end StandardOperator.ConfinesCodes

end TensorEngine
