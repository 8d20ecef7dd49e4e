import TensorEngine.Proofs.Execution.ConfinedResults
import TensorEngine.Proofs.Execution.MappedElements
import TensorEngine.Proofs.Execution.PooledElements
import TensorEngine.Proofs.Execution.ProductSums
import TensorEngine.Proofs.Kernel.NarrowedCodes

/-!
Contract: results of codes stay ordered and between the codes of their range.

Owns:
- `Quantization.Confines`, what quantization between two codes does to every number;
- `Node.ConfinesTo`, the codes between which a node confines its results, and why the operators of a
  compiled graph confine theirs to those of their own nodes;
- `Node.Unnarrowed`, the 32-bit code that a node has for each place of its output, and why the bytes
  that runs write hold these codes;
- the theorem on the codes of accepted parameters and on all that runs write.

Does not own: the contents of kernels.
-/

namespace TensorEngine

open Making TensorEngine.Numeric UnaryFunction

/-! ## Numbers between codes -/

/-- Quantization between two codes: every number has a code between them, whether it is a number or
not, larger numbers have no lesser codes, and zero of either sign and what is not a number have the
code of the zero point, confined. -/
structure Quantization.Confines (scale : Quantization) (low high : Int32) : Prop where
  inside : ∀ x, ∃ code, scale.quantize x low high = .ok code ∧ low ≤ code ∧ code ≤ high
  monotone : ∀ x y, x.isNaN = false → y.isNaN = false → x ≤ y → ∀ code other,
    scale.quantize x low high = .ok code → scale.quantize y low high = .ok other → code ≤ other
  zero : ∀ x, x = Binary32.zero ∨ x = -Binary32.zero ∨ x.isNaN = true →
    scale.quantize x low high = confineCode scale.zeroPoint low high

/-- Accepted parameters confine numbers between any bounds of codes. -/
theorem Quantization.confines {scale : Quantization} {element : ElementType}
    (coded : element.IsByteCode) (valid : scale.validate element = .ok ()) {low high : Int32}
    (bounds : element.Bounds low high) : scale.Confines low high where
  inside x := by
    have short := coded.short_of_inside bounds.least (Int32.le_trans bounds.ordered bounds.most)
    have shortHigh := coded.short_of_inside (Int32.le_trans bounds.least bounds.ordered) bounds.most
    obtain ⟨code, quantized⟩ := scale.exists_quantize_between x bounds.ordered
    exact ⟨code, quantized, quantize_inside (by omega) (by omega) quantized⟩
  monotone x y number numberRight less code other quantized quantizedRight :=
    (isScaled_of_validate valid).quantize_mono number numberRight
      ((Binary32.le_iff number numberRight).mp less) bounds.ordered quantized quantizedRight
  zero x none := by
    rcases none with rfl | rfl | noNumber
    · exact quantize_of_value_zero coded valid (by decide) (by decide +kernel) bounds.ordered
        bounds.least bounds.most
    · exact quantize_of_value_zero coded valid (by decide) (by decide +kernel) bounds.ordered
        bounds.least bounds.most
    · exact quantize_of_isNaN noNumber low high

theorem Quantization.exists_bounds {scale : Quantization} {element : ElementType}
    (coded : element.IsByteCode) (valid : scale.validate element = .ok ()) {low high : Float32}
    (number : low.isNaN = false) (numberHigh : high.isNaN = false)
    (ordered : Binary32.value low < Binary32.value high) :
    ∃ lowCode highCode, scale.codeBounds element low high = .ok (lowCode, highCode) ∧
      element.Bounds lowCode highCode := by
  obtain ⟨codes, bounded⟩ := scale.exists_codeBounds element low high
  obtain ⟨least, most⟩ := codeBounds_inside coded bounded
  exact ⟨codes.1, codes.2, bounded, least,
    (isScaled_of_validate valid).codeBounds_ordered number numberHigh ordered.le bounded, most⟩

/-! ## Operators between codes -/

/-- The codes of a storage type between which a node confines its results: those of its range, by
the accepted parameters of its output. -/
structure Node.ConfinesTo (node : Node) (values : List Value) (element : ElementType)
    (scale : Quantization) (low high : Int32) : Prop where
  output : ∃ value, node.result? values = some value ∧ value.element = element ∧
    value.quantization = some scale
  computed : ComputeType.ofElement? element = some node.compute
  coded : element.IsByteCode
  valid : scale.validate element = .ok ()
  bounded : scale.codeBounds element node.params.range.1 node.params.range.2 = .ok (low, high)
  bounds : element.Bounds low high

/-- A run that succeeds, on any buffers, writes nothing but codes between bounds. -/
def StandardOperator.StaysBetween (operator : StandardOperator) (element : ElementType)
    (low high : Int32) : Prop :=
  ∀ (shapes : List Shape) (output : Shape),
    (Operator.setup operator shapes output).2 = .ok () →
    ∀ schedule inputs room,
      let done := Operator.run (Operator.setup operator shapes output).1 schedule inputs room
      done.outcome = .ok () → HoldsBetween element low high done.written output.elementCount

/-- A run that succeeds leaves the contents of its operator. -/
theorem StandardOperator.exists_contents {operator : StandardOperator} {schedule : Schedule}
    {inputs : List Buffer} {room : Buffer}
    (ended : (Operator.run operator schedule inputs room).outcome = .ok ()) :
    ∃ bytes, operator.contents schedule inputs room = .ok bytes ∧
      Operator.run operator schedule inputs room = ⟨overlay room.bytes bytes, .ok ()⟩ := by
  cases ran : operator.contents schedule inputs room with
  | ok bytes => exact ⟨bytes, rfl, run_eq_of_contents ran⟩
  | error fault =>
      change (RunEnd.ofOutcome room (operator.contents schedule inputs room)).outcome = _ at ended
      rw [ran] at ended
      cases ended

theorem StandardOperator.ConfinesCodes.staysBetween {operator : StandardOperator}
    {element : ElementType} {low high : Int32} (confines : operator.ConfinesCodes element low high)
    (bounds : element.Bounds low high) : operator.StaysBetween element low high := by
  intro shapes output taken schedule inputs room done ended
  have setUp : operator.setup shapes output = ((operator.setup shapes output).1, .ok ()) :=
    Prod.ext rfl taken
  -- set-up keeps all of an operator but what follows from the shapes, and no code depends on that
  have ready : (operator.setup shapes output).1.ConfinesCodes element low high := by
    rw [← ConfinesCodes.blank_iff, (setup_blank operator shapes output).1, ConfinesCodes.blank_iff]
    exact confines
  obtain ⟨bytes, ran, leaves⟩ := StandardOperator.exists_contents ended
  rw [show done = _ from leaves, ← elementCount_setup setUp]
  exact ready.holdsBetween bounds ran

section Families

variable {context : CreateContext} {operands : List Value} {output : Value}
  (admits : context.Admits operands output) (notConvert : context.node.kind ≠ .convert)
  (codes : context.node.compute = .qs8 ∨ context.node.compute = .qu8)

include admits notConvert codes

/-- The storage type of a node that computes in codes. -/
theorem CreateContext.Admits.element_of_codes :
    (context.node.compute = .qs8 ∧ output.element = .qint8) ∨
      (context.node.compute = .qu8 ∧ output.element = .quint8) := by
  rcases OpKind.ofElement?_eq_some_iff.mp (admits.computed notConvert).1 with
    ⟨_, compute⟩ | ⟨_, compute⟩ | ⟨element, compute⟩ | ⟨element, compute⟩
  · rw [compute] at codes
    rcases codes with impossible | impossible <;> cases impossible
  · rw [compute] at codes
    rcases codes with impossible | impossible <;> cases impossible
  · exact .inl ⟨compute, element⟩
  · exact .inr ⟨compute, element⟩

theorem CreateContext.Admits.confinesTo {scale : Quantization} {low high : Int32}
    (bounds : context.node.BoundsCodes context.values scale low high) :
    context.node.ConfinesTo context.values output.element scale low high := by
  have result := CreateContext.output_eq_result?.mp admits.output_eq
  have coded : output.element.IsByteCode := by
    rcases admits.element_of_codes notConvert codes with ⟨_, element⟩ | ⟨_, element⟩
    · exact .inl element
    · exact .inr element
  obtain ⟨value, found, quantized, bounded⟩ := bounds.output
  cases result.symm.trans found
  obtain ⟨least, most⟩ := Quantization.codeBounds_inside coded bounded
  exact {
    output := ⟨_, result, rfl, quantized⟩
    computed := (admits.computed notConvert).1
    coded := coded
    valid := admits.soundOutput.valid scale quantized
    bounded := bounded
    bounds := ⟨least, admits.soundOutput.codes_ordered quantized
      (OpKind.isOrdered_of_checkParams admits.node.params) bounded, most⟩ }

/-- An operator confines its results to the codes of the range of a node. -/
def StandardOperator.ConfinesFor (operator : StandardOperator) (context : CreateContext)
    (element : ElementType) : Prop :=
  ∃ scale low high, context.node.BoundsCodes context.values scale low high ∧
    operator.ConfinesCodes element low high

theorem Mapping.factory_confines (clamp : context.node.kind = .clamp) (lanes : Nat) :
    ((factory context.node.compute lanes).create context).Ends
      (fun mapping => (StandardOperator.mapping mapping).ConfinesFor context output.element)
      (fun _ => True) := by
  refine (Ends.of_outcome_ok fun _ chosen => chosen).bind fun function chosen => ?_
  rw [clamp] at chosen
  cases chosen
  have made : (makeBody context context.node.compute
      (.clamp context.node.params.range.1 context.node.params.range.2)).Ends
      (fun body => ∃ scale low high, context.node.BoundsCodes context.values scale low high ∧
        body = .confineCodes (output.element == .qint8) low high) (fun _ => True) := by
    rcases admits.element_of_codes notConvert codes with ⟨compute, _⟩ | ⟨compute, _⟩ <;>
      rw [compute] <;> exact scaledBody_clamps admits.output_eq
  -- the body asks for the type of the output, not for the one in which the node computes
  have type : Conversion.codeElement (output.element == .qint8) = output.element := by
    rcases admits.element_of_codes notConvert codes with ⟨_, element⟩ | ⟨_, element⟩ <;>
      rw [element] <;> rfl
  refine made.bind fun body made => Ends.pure ?_
  obtain ⟨scale, low, high, bounds, rfl⟩ := made
  exact ⟨scale, low, high, bounds, .mapping type rfl⟩

theorem Combination.factory_confines (lanes : Nat) :
    ((factory context.node.compute lanes).create context).Ends
      (fun combination =>
        (StandardOperator.combination combination).ConfinesFor context output.element)
      (fun _ => True) := by
  refine (Ends.of_outcome_ok fun function chosen => chosen).bind fun function chosen => ?_
  refine (Ends.of_outcome_ok fun body made => made).bind fun body made => Ends.pure ?_
  have coded : ∃ signed, Conversion.codeElement signed = output.element ∧
      codeBody context signed = .ok body := by
    rcases admits.element_of_codes notConvert codes with ⟨compute, element⟩ | ⟨compute, element⟩
    · rw [compute] at made
      exact ⟨true, element.symm, made⟩
    · rw [compute] at made
      exact ⟨false, element.symm, made⟩
  obtain ⟨signed, type, made⟩ := coded
  obtain ⟨_, _, scale, low, high, rfl, declared⟩ := codeBody_declared made
  exact ⟨scale, low, high, ⟨declared.output⟩, .combination type rfl⟩

theorem Pooling.factory_confines :
    ((factory context.node.compute).create context).Ends
      (fun pooling => (StandardOperator.pooling pooling).ConfinesFor context output.element)
      (fun _ => True) := by
  refine factory_madeOf.mono fun pooling ⟨input, madeOf⟩ => ?_
  obtain ⟨value, found, made⟩ := madeOf.body
  have coded : ∃ signed, Conversion.codeElement signed = output.element ∧
      codeBody signed input value context.node.params.range.1 context.node.params.range.2 =
        .ok pooling.body := by
    rcases admits.element_of_codes notConvert codes with ⟨compute, element⟩ | ⟨compute, element⟩
    · rw [compute] at made
      exact ⟨true, element.symm, made⟩
    · rw [compute] at made
      exact ⟨false, element.symm, made⟩
  obtain ⟨signed, type, made⟩ := coded
  obtain ⟨_, scale, low, high, body, declared⟩ := codeBody_declared madeOf.read found made
  exact ⟨scale, low, high, ⟨declared.output⟩, .pooling type body⟩

/-- A product of codes confines its results to those of its range. -/
theorem Product.MadeOf.confines {product : Product} {input filter value : Value}
    {zeroPoint : Int32} (madeOf : product.MadeOf context input filter value zeroPoint) :
    (StandardOperator.product product).ConfinesFor context output.element := by
  have made := madeOf.body
  cases admits.output_eq.symm.trans madeOf.foundOutput
  rcases admits.element_of_codes notConvert codes with ⟨compute, element⟩ | ⟨compute, _⟩
  · rw [compute] at made
    obtain ⟨⟨body, zero⟩, chosen, same⟩ := bind_eq_ok_iff.mp made
    cases same
    unfold codeBody at chosen
    split at chosen
    · rename_i _ _ scale _ _ found
      obtain ⟨bounds, bounded, chosen⟩ := bind_eq_ok_iff.mp chosen
      injection chosen with same
      have bounded := lift_eq_ok_iff.mp bounded
      refine ⟨scale, bounds.1, bounds.2, ⟨output,
        CreateContext.output_eq_result?.mp admits.output_eq, found, ?_⟩,
        .product element.symm (Prod.mk.inj same).1.symm⟩
      rw [element]
      exact bounded
    · cases chosen
  · rw [compute] at made
    cases made

end Families

theorem OpKind.Confines.ne_convert {kind : OpKind} (confines : kind.Confines) :
    kind ≠ .convert := by
  rintro rfl
  rcases confines with impossible | impossible | impossible | impossible <;> cases impossible

/-- Every factory that the library offers for a node of codes whose kind confines its results makes
an operator that confines them to the codes of its range. -/
theorem Catalog.Offers.confines {context : CreateContext} {operands : List Value} {output : Value}
    {factory : Factory StandardOperator} (admits : context.Admits operands output)
    (offers : Catalog.Offers context.node.key factory) (kind : context.node.kind.Confines)
    (codes : context.node.compute = .qs8 ∨ context.node.compute = .qu8) :
    (factory.create context).Ends
      (fun operator => operator.ConfinesFor context output.element) (fun _ => True) := by
  have notConvert := kind.ne_convert
  have multiplies := offers.multiplies
  cases offers.family with
  | conversion convert => exact absurd convert notConvert
  | mapping unary notConvert lanes =>
      have clamp : context.node.kind = .clamp := by
        rcases kind with clamp | binary | pool | multiply
        · exact clamp
        · exact absurd unary (OpKind.not_isUnary_of_isBinary binary)
        · rw [show context.node.key.kind = .globalAveragePooling2d from pool] at unary
          cases unary
        · rw [show context.node.key.kind = .fullyConnected from multiply] at unary
          cases unary
      exact (Mapping.factory_confines admits notConvert codes clamp lanes).map fun _ made => made
  | combination binary lanes =>
      exact (Combination.factory_confines admits notConvert codes lanes).map fun _ made => made
  | pooling pool => exact (Pooling.factory_confines admits notConvert codes).map fun _ made => made
  | product multiply =>
      refine multiplies.mono fun operator made => ?_
      obtain ⟨product, input, filter, value, zeroPoint, rfl, madeOf⟩ := made multiply
      exact madeOf.confines admits notConvert codes

section Compiled

variable {job : CompileJob} {workshop : Workshop} {executable : Executable StandardOperator}
  {closed : Graph} (ran : (job.run workshop).1 = .ok (executable, closed))
  (history : List SessionCall) {step : Step StandardOperator}
  (listed : step ∈ ((Session.start executable).afterCalls history).executable.steps)

include ran listed

/-- In a compiled graph, the operator of every node of codes whose kind confines its results
confines them to the codes of the range of its own node, whatever calls have been made. -/
theorem CompileJob.confines (kind : step.node.kind.Confines)
    (codes : step.node.compute = .qs8 ∨ step.node.compute = .qu8) :
    ∃ element scale low high, step.node.ConfinesTo job.graph.values element scale low high ∧
      step.operator.ConfinesCodes element low high := by
  have each := @ensures _ _ _ _ ran (fun node operator => node.kind.Confines →
      (node.compute = .qs8 ∨ node.compute = .qu8) →
      ∃ element scale low high, node.ConfinesTo job.graph.values element scale low high ∧
        operator.ConfinesCodes element low high)
      fun node factory operands output admits offers => by
    by_cases given : node.kind.Confines ∧ (node.compute = .qs8 ∨ node.compute = .qu8)
    · refine (offers.confines admits given.1 given.2).mono fun operator made _ _ => ?_
      obtain ⟨scale, low, high, bounds, confines⟩ := made
      exact ⟨output.element, scale, low, high,
        admits.confinesTo given.1.ne_convert given.2 bounds, confines⟩
    · exact (Ends.somehow _).mono fun _ _ kind codes => absurd ⟨kind, codes⟩ given
  obtain ⟨before, among, _, stays⟩ := exists_made ran history listed
  rw [stays.node_eq] at kind codes ⊢
  obtain ⟨element, scale, low, high, declared, confines⟩ := each before among kind codes
  refine ⟨element, scale, low, high, declared, ?_⟩
  rw [← StandardOperator.ConfinesCodes.blank_iff, stays.blank_eq,
    StandardOperator.ConfinesCodes.blank_iff]
  exact confines

end Compiled

/-! ## Codes before they are narrowed -/

def codeAt (element : ElementType) (source : Buffer) (place : Nat) : Int32 :=
  codeOfByte element ((elementBytes source.bytes 1 place).headD 0)

/-- A 32-bit sum is that of a row of codes in the output channel of a place, exact up to `2 ^ 32`.
-/
def CodeProduct.SumsTo (declared : CodeProduct) (shapes : List Shape) (inputs : List Buffer)
    (place : Nat) (sum : Int32) : Prop :=
  ∃ input source row channel, shapes[0]? = some input ∧ inputs[0]? = some source ∧
    row < input.batch ∧ channel < declared.outputs ∧ row * declared.outputs + channel = place ∧
    sum.toInt ≡ declared.exactSum (fun index =>
      (source.bytes.getD (row * declared.inner + index) 0).toInt8) channel [ZMOD 2 ^ 32]

/-- The 32-bit code that a node has for a place of its output before it is narrowed to a byte, given
the shapes of its operands and of its output and what its inputs hold: for a clamp the code in its
input, confined; for a binary kind the code of the function of two numbers; for a pooling that of
the mean of a channel of an image, whose distance from the zero point is exact up to `2 ^ 64`; and
for a product that of a 32-bit sum, which is its own if the product has its own weights. -/
inductive Node.Unnarrowed (node : Node) (own : Prop) (values : List Value) (element : ElementType)
    (scale : Quantization) (low high : Int32) (shapes : List Shape) (output : Shape)
    (inputs : List Buffer) : OpKind → Nat → Int32 → Prop
  | clamp {source : Buffer} {place : Nat} {code : Int32} (given : inputs[0]? = some source)
      (confined : confineCode (codeAt element source place) low high = .ok code) :
      Unnarrowed node own values element scale low high shapes output inputs .clamp place code
  | combine {kind : OpKind} {function : BinaryFunction} {leftScale rightScale : Quantization}
      {left right : Shape} {first second : Buffer} {index : List Nat} {number other : Float32}
      {code : Int32} (chosen : BinaryFunction.ofKind kind = .ok function)
      (codes : node.CombinesCodes values leftScale rightScale scale low high)
      (shape : shapes[0]? = some left) (shapeRight : shapes[1]? = some right)
      (given : inputs[0]? = some first) (givenRight : inputs[1]? = some second)
      (valid : output.IsIndex index)
      (denoted : leftScale.dequantize
        (codeAt element first (left.position (left.indexWithin index))) = .ok number)
      (denotedRight : rightScale.dequantize
        (codeAt element second (right.position (right.indexWithin index))) = .ok other)
      (quantized : scale.quantize (function.apply number other) low high = .ok code) :
      Unnarrowed node own values element scale low high shapes output inputs kind
        (output.position index) code
  | average {input : Quantization} {images height width channels image channel : Nat}
      {source : Buffer} {elements : List (List UInt8)} {distance : Int} {code : Int32}
      (codes : node.AveragesCodes values input scale low high)
      (shape : shapes[0]? = some [images, height, width, channels])
      (given : inputs[0]? = some source) (inside : image < images) (among : channel < channels)
      (read : channelElements source 1 images height width channels image channel = elements)
      (exact : distance ≡ (elements.map fun bytes =>
        (codeOfByte element (bytes.headD 0)).toInt - input.zeroPoint.toInt).sum [ZMOD 2 ^ 64])
      (quantized : scale.quantize (Binary32.ofInt distance *
        (input.scale / Binary32.ofNat (max elements.length 1))) low high = .ok code) :
      Unnarrowed node own values element scale low high shapes output inputs .globalAveragePooling2d
        (image * channels + channel) code
  | fold {declared : CodeProduct} {place : Nat} {sum code : Int32}
      (declares : node.DeclaresProduct values declared)
      (exact : own → declared.SumsTo shapes inputs place sum)
      (quantized : scale.quantize
        (Binary32.ofInt sum.toInt * (declared.input.scale * declared.filter.scale.scale)) low high =
          .ok code) :
      Unnarrowed node own values element scale low high shapes output inputs .fullyConnected place
        code

theorem Node.Unnarrowed.of_clamp {node : Node} {own : Prop} {values : List Value}
    {element : ElementType} {scale : Quantization} {low high : Int32} {shapes : List Shape}
    {output : Shape} {inputs : List Buffer} {place : Nat} {code : Int32}
    (has : node.Unnarrowed own values element scale low high shapes output inputs .clamp place
      code) :
    ∃ source, inputs[0]? = some source ∧
      confineCode (codeAt element source place) low high = .ok code := by
  cases has with
  | clamp given confined => exact ⟨_, given, confined⟩
  | combine chosen => cases chosen

/-- An operator leaves the codes of a node as they are. Set up for any shapes that it takes, each of
its runs on buffers that are large enough succeeds, in any order of its tiles, if it has its own
weights and the sums of images fit a word. Whenever one succeeds, it has written to every place of
the output a byte that holds the 32-bit code which the node has for it. -/
def StandardOperator.LeavesCodes (operator : StandardOperator) (own : Prop) (node : Node)
    (values : List Value) (element : ElementType) (scale : Quantization) (low high : Int32) :
    Prop :=
  ∀ (shapes : List Shape) (output : Shape),
    (Operator.setup operator shapes output).2 = .ok () →
    ∀ schedule inputs room, FitsOperands node.kind 1 shapes inputs →
      room.Fits 1 output.elementCount →
      let done := Operator.run (Operator.setup operator shapes output).1 schedule inputs room
      (own → (∀ shape, node.kind = .globalAveragePooling2d → shapes[0]? = some shape →
        255 * shape.area < 2 ^ 63) → done.outcome = .ok ()) ∧
      (done.outcome = .ok () → ∀ place < output.elementCount, ∃ byte,
        elementBytes done.written 1 place = [byte] ∧
        node.Unnarrowed own values element scale low high shapes output inputs node.kind place
          (codeOfByte element byte))

theorem Node.ConfinesTo.unique {node : Node} {values : List Value} {element : ElementType}
    {scale other : Quantization} {low high least most : Int32}
    (confines : node.ConfinesTo values element scale low high)
    (output : ∃ value, node.result? values = some value ∧ value.quantization = some other ∧
      other.codeBounds value.element node.params.range.1 node.params.range.2 = .ok (least, most)) :
    other = scale ∧ least = low ∧ most = high := by
  obtain ⟨value, found, rfl, quantized⟩ := confines.output
  obtain ⟨_, foundOther, quantizedOther, bounded⟩ := output
  cases found.symm.trans foundOther
  cases quantized.symm.trans quantizedOther
  cases confines.bounded.symm.trans bounded
  exact ⟨rfl, rfl, rfl⟩

section Exact

variable {α : Type} [Code α] {own : Prop} {node : Node} {values : List Value}
  {element : ElementType} {scale : Quantization} {low high : Int32}
  (narrows : Code.Narrows α element) (bounds : element.Bounds low high)

include narrows bounds

/-- A clamp leaves the confined codes of its input. -/
theorem StandardOperator.Maps.leavesCodes {operator : StandardOperator}
    (maps : operator.Maps (.of (Mapping.confined (α := α) low high)))
    (clamp : node.kind = .clamp) :
    operator.LeavesCodes own node values element scale low high := by
  intro shapes output taken schedule inputs room lends fitsRoom
  obtain ⟨takes, runs⟩ := maps shapes output
  obtain ⟨input, first, count⟩ := takes.mp taken
  obtain ⟨source, given, fits⟩ := lends.exists_first first
  rw [count] at fits
  have one : (ElementMap.of (Mapping.confined (α := α) low high)).sourceWidth = 1 := narrows.width
  have oneRoom : (ElementMap.of (Mapping.confined (α := α) low high)).width = 1 := narrows.width
  obtain ⟨ended, fills⟩ := runs taken schedule inputs source room given (by rw [one]; exact fits)
    (by rw [oneRoom]; exact fitsRoom)
  refine ⟨fun _ _ => ended, fun _ place inside => ?_⟩
  have written := fills.element place inside
  rw [one, oneRoom] at written
  obtain ⟨result, confined, encoded⟩ := map_eq_ok_iff.mp written
  obtain ⟨byte, same, code⟩ := narrows.encode result
  refine ⟨byte, encoded.symm.trans same, ?_⟩
  rw [clamp, code]
  refine .clamp given ?_
  rw [codeAt, ← narrows.decode]
  exact (Mapping.confined_eq_ok narrows bounds confined).1

theorem Combination.leavesCodes {combination : Combination} (sound : combination.body.Sound)
    (binary : node.kind.isBinary = true) {function : BinaryFunction}
    (chosen : BinaryFunction.ofKind node.kind = .ok function) {left right : Quantization}
    (codes : node.CombinesCodes values left right scale low high)
    (scalar : combination.scalar = .of (ofCodes (α := α) function left right scale low high)) :
    (StandardOperator.combination combination).LeavesCodes own node values element scale low
      high := by
  intro shapes output taken schedule inputs room lends fitsRoom
  have one : combination.scalar.width = 1 := by
    rw [scalar]
    exact narrows.width
  rw [← one] at lends fitsRoom
  obtain ⟨leftShape, rightShape, first, second, writes, shape, shapeRight, given, givenRight, ended,
    broadcasts⟩ := run_broadcasts sound binary taken schedule lends fitsRoom
  refine ⟨fun _ _ => ended, fun _ place within => ?_⟩
  obtain ⟨index, valid, rfl⟩ := Shape.exists_isIndex within
  have written := broadcasts.element index valid
  rw [one, scalar] at written
  obtain ⟨result, combined, encoded⟩ := map_eq_ok_iff.mp written
  obtain ⟨byte, same, code⟩ := narrows.encode result
  obtain ⟨⟨number, other, denoted, denotedRight, quantized⟩, _⟩ :=
    ofCodes_eq_ok narrows bounds combined
  rw [narrows.decode] at denoted denotedRight
  refine ⟨byte, encoded.symm.trans same, ?_⟩
  rw [code]
  exact .combine chosen codes shape shapeRight given givenRight valid denoted denotedRight quantized

end Exact

theorem Pooling.leavesCodes {pooling : Pooling} (sound : pooling.body.Sound) {own : Prop}
    {node : Node} {values : List Value} {signed : Bool} {input scale : Quantization}
    {low high : Int32}
    (bounds : (Conversion.codeElement signed).Bounds low high)
    (body : pooling.body = .codes signed input scale low high)
    (pool : node.kind = .globalAveragePooling2d)
    (codes : node.AveragesCodes values input scale low high) :
    (StandardOperator.pooling pooling).LeavesCodes own node values (Conversion.codeElement signed)
      scale low high := by
  intro shapes output taken schedule inputs room lends fitsRoom done
  obtain ⟨takes, delivers⟩ :=
    @exists_averages _ sound True (fun _ _ _ _ _ _ => trivial) shapes output
  obtain ⟨images, height, width, shape, count⟩ := takes.mp taken
  obtain ⟨source, given, fits⟩ := lends.exists_first shape
  have one : pooling.mean.width = 1 := by
    unfold mean
    rw [body]
    cases signed <;> rfl
  -- only success needs sums that fit a word: what is written is read off the contents of the run
  refine ⟨fun _ area => (delivers images height width shape count (fun _ => area _ pool shape)
    schedule inputs source room given (by rw [one]; exact fits) (by rw [one]; exact fitsRoom)).1,
    fun ended place inside => ?_⟩
  have ready : (Operator.setup (StandardOperator.pooling pooling) shapes output).1 =
      .pooling { pooling with images := images, positions := height * width } := by
    show ((pooling.setup shapes output).map StandardOperator.pooling id).1 = _
    unfold setup
    rw [extent_eq_ok_iff.mpr ⟨height, width, shape, rfl, count⟩]
    rfl
  obtain ⟨bytes, ran, leaves⟩ := StandardOperator.exists_contents ended
  rw [show done = _ from leaves]
  rw [ready] at ran
  rw [count] at inside
  obtain ⟨image, imageInside, channel, channelInside, rfl⟩ := exists_row_column inside
  have elements : Shape.elementCount [images, height, width, pooling.channels] =
      images * (height * width) * pooling.channels := by
    simp only [Shape.elementCount]
    ring
  rw [elements] at fits
  obtain ⟨byte, distance, written, exact, quantized⟩ :=
    @exists_code_of_contents _ _ _ _ _ _
      { pooling with images := images, positions := height * width } _ _ _ bounds body ran _ given
      fits _ _ imageInside channelInside
  have has : node.Unnarrowed own values (Conversion.codeElement signed) scale low high shapes output
      inputs .globalAveragePooling2d (image * pooling.channels + channel)
      (codeOfByte (Conversion.codeElement signed) byte) := by
    refine .average codes shape given imageInside channelInside (channelElements_eq ..) exact ?_
    rw [pooledElements, List.length_map, List.length_range]
    exact quantized
  rw [← pool] at has
  exact ⟨byte, written, has⟩

/-- With its own weights, a product of codes leaves the codes of its own sums. -/
theorem Product.Realizes.leaves {product : Product} {declared : CodeProduct}
    (realizes : product.Realizes declared) {low high : Int32}
    (bounded : declared.output.codeBounds .qint8 declared.range.1 declared.range.2 =
      .ok (low, high)) {shapes : List Shape} {output : Shape}
    (taken : (Operator.setup (StandardOperator.product product) shapes output).2 = .ok ())
    (schedule : Schedule) {inputs : List Buffer} {room : Buffer}
    (lends : FitsOperands .fullyConnected 1 shapes inputs)
    (fitsRoom : room.Fits 1 output.elementCount) :
    let done := Operator.run (Operator.setup (StandardOperator.product product) shapes output).1
      schedule inputs room
    done.outcome = .ok () ∧ ∀ place < output.elementCount, ∃ byte sum,
      elementBytes done.written 1 place = [byte] ∧ declared.SumsTo shapes inputs place sum ∧
      declared.output.quantize
        (Binary32.ofInt sum.toInt * (declared.input.scale * declared.filter.scale.scale)) low high =
          .ok (codeOfByte .qint8 byte) := by
  obtain ⟨input, shape, filled, channels, count⟩ := exists_of_setup taken
  obtain ⟨panels, starts, weights, _⟩ := realizes.weights
  rw [weights] at channels count
  obtain ⟨source, given, fits⟩ := lends.exists_first shape
  obtain ⟨ready, done, runs⟩ := realizes.delivers shapes input output shape filled channels count
  have enough := fits.enough
  have enoughRoom := fitsRoom.enough
  rw [Nat.mul_one] at enough enoughRoom
  obtain ⟨ended, results, _⟩ := runs schedule inputs source room given enough fits.short enoughRoom
  rw [done]
  refine ⟨ended, fun place inside => ?_⟩
  rw [count] at inside
  obtain ⟨row, rowInside, channel, channelInside, rfl⟩ := exists_row_column inside
  obtain ⟨result, written, sum, exact, bounds, boundedAgain, quantized⟩ :=
    results row rowInside channel channelInside
  cases bounded.symm.trans boundedAgain
  have code : codeOfByte .qint8 result.toUInt8 = result.toInt32 :=
    congrArg Int8.toInt32 (Int8.toInt8_toUInt8 result)
  rw [← code] at quantized
  exact ⟨result.toUInt8, sum, elementBytes_one written,
    ⟨input, source, _, _, shape, given, rowInside, channelInside, rfl, exact⟩, quantized⟩

/-- A product of codes leaves the codes of 32-bit sums, which are its own if it has its own
weights. -/
theorem Product.leavesCodes {product : Product} {declared : CodeProduct} {own : Prop}
    (realizes : own → product.Realizes declared) {node : Node} {values : List Value}
    {low high : Int32} (declares : node.DeclaresProduct values declared)
    (bounds : ElementType.Bounds .qint8 low high)
    (bounded : declared.output.codeBounds .qint8 declared.range.1 declared.range.2 =
      .ok (low, high))
    (body : product.body = .codes declared.output
      (declared.input.scale * declared.filter.scale.scale) low high) :
    (StandardOperator.product product).LeavesCodes own node values .qint8 declared.output low
      high := by
  intro shapes output taken schedule inputs room lends fitsRoom done
  rw [declares.multiply] at lends ⊢
  -- sums over the weights of another product are not its own, but they are narrowed alike
  by_cases alone : own
  · obtain ⟨ended, each⟩ := (realizes alone).leaves bounded taken schedule lends fitsRoom
    refine ⟨fun _ _ => ended, fun _ place inside => ?_⟩
    obtain ⟨byte, sum, written, exact, quantized⟩ := each place inside
    exact ⟨byte, written, .fold declares (fun _ => exact) quantized⟩
  · refine ⟨fun own => absurd own alone, fun ended place inside => ?_⟩
    have setUp : (StandardOperator.product product).setup shapes output =
        (((StandardOperator.product product).setup shapes output).1, .ok ()) := Prod.ext rfl taken
    obtain ⟨ready, same, sameBody, _⟩ := StandardOperator.exists_product_of_blank
      (StandardOperator.setup_blank (StandardOperator.product product) shapes output).1
    obtain ⟨bytes, ran, leaves⟩ := StandardOperator.exists_contents ended
    rw [show done = _ from leaves]
    rw [← StandardOperator.elementCount_setup setUp, same] at inside
    rw [show (Operator.setup (StandardOperator.product product) shapes output).1 = _ from same]
      at ran
    obtain ⟨byte, sum, written, quantized, _⟩ :=
      exists_sum_of_contents bounds (sameBody.trans body) ran inside
    exact ⟨byte, written, .fold declares (fun own => absurd own alone) quantized⟩

section Products

variable {job : CompileJob} {workshop : Workshop} {executable : Executable StandardOperator}
  {closed : Graph} (ran : (job.run workshop).1 = .ok (executable, closed))
  (history : List SessionCall) {step : Step StandardOperator}
  (listed : step ∈ ((Session.start executable).afterCalls history).executable.steps)
  (multiply : step.node.kind = .fullyConnected)

include ran listed multiply

/-- In a compiled graph, every operator of a fully connected node is a product with the body of one
that is made for its own node, whatever calls have been made. -/
theorem CompileJob.exists_bodyOf : ∃ operands result input filter output zeroPoint made product,
    (job.context step.node).Admits operands result ∧
      Product.MadeOf made (job.context step.node) input filter output zeroPoint ∧
      step.operator = .product product ∧ product.body = made.body := by
  obtain ⟨before, among, node, stays⟩ := exists_made ran history listed
  rw [stays.node_eq] at multiply ⊢
  obtain ⟨operands, result, admits⟩ := job.exists_admits node _ _
  obtain ⟨made, input, filter, output, zeroPoint, same, madeOf⟩ :=
    ensures ran (fun _ _ _ _ _ offers => offers.multiplies) before among multiply
  have blank := stays.blank_eq
  rw [same] at blank
  obtain ⟨product, found, sameBody, _⟩ := StandardOperator.exists_product_of_blank blank
  exact ⟨operands, result, input, filter, output, zeroPoint, made, product, admits, madeOf, found,
    sameBody⟩

/-- In a compiled graph, every product of codes makes its results by the parameters of its own node,
whatever calls have been made. -/
theorem CompileJob.exists_codeProduct (codes : step.node.compute = .qs8) :
    ∃ declared product bounds, step.node.DeclaresProduct job.graph.values declared ∧
      step.operator = .product product ∧
      declared.output.codeBounds .qint8 declared.range.1 declared.range.2 = .ok bounds ∧
      product.body = .codes declared.output (declared.input.scale * declared.filter.scale.scale)
        bounds.1 bounds.2 := by
  obtain ⟨_, _, _, _, _, _, made, product, admits, madeOf, found, sameBody⟩ :=
    exists_bodyOf ran history listed multiply
  obtain ⟨declared, declares⟩ := admits.exists_declared multiply codes
  obtain ⟨bounds, bounded, _, body⟩ := madeOf.exists_body admits codes declares
  exact ⟨declared, product, bounds, declares, found, bounded, sameBody.trans body⟩

end Products

/-- In a compiled graph, the operator of every node of codes whose kind confines its results leaves
the codes of its own node as they are, whatever calls have been made. -/
theorem CompileJob.leavesCodes {start : Workshop} {earlier : List CompileJob} {job : CompileJob}
    {executable : Executable StandardOperator} {closed : Graph}
    (ran : (job.run (start.afterJobs earlier)).1 = .ok (executable, closed))
    (history : List SessionCall) {step : Step StandardOperator}
    (listed : step ∈ ((Session.start executable).afterCalls history).executable.steps)
    (kind : step.node.kind.Confines) {element : ElementType} {scale : Quantization}
    {low high : Int32} (confines : step.node.ConfinesTo job.graph.values element scale low high)
    (between : step.operator.ConfinesCodes element low high) :
    step.operator.LeavesCodes
      (step.node.kind = .fullyConnected → Isolated start (earlier ++ [job])) step.node
      job.graph.values element scale low high := by
  have type : (element = .qint8 ∧ step.node.compute = .qs8) ∨
      (element = .quint8 ∧ step.node.compute = .qu8) := by
    rcases confines.coded with rfl | rfl
    · exact .inl ⟨rfl, (Option.some.inj confines.computed).symm⟩
    · exact .inr ⟨rfl, (Option.some.inj confines.computed).symm⟩
  rcases kind with clamp | binary | pool | multiply
  · obtain ⟨map, declared, maps⟩ := maps ran history listed (.inl clamp)
    rw [clamp] at declared
    rcases type with ⟨rfl, compute⟩ | ⟨rfl, compute⟩ <;> rw [compute] at declared
    · cases declared with
      | clampSigned codes =>
          obtain ⟨rfl, rfl, rfl⟩ := confines.unique codes.output
          exact maps.leavesCodes Code.narrows_signed confines.bounds clamp
    · cases declared with
      | clampUnsigned codes =>
          obtain ⟨rfl, rfl, rfl⟩ := confines.unique codes.output
          exact maps.leavesCodes Code.narrows_unsigned confines.bounds clamp
  · obtain ⟨combination, same, sound, function, chosen, declared⟩ :=
      combines ran history listed binary
    rw [same]
    rcases type with ⟨rfl, compute⟩ | ⟨rfl, compute⟩ <;> rw [compute] at declared
    · generalize scalar : combination.scalar = applied at declared
      cases declared with
      | signed codes =>
          obtain ⟨rfl, rfl, rfl⟩ := confines.unique codes.output
          exact Combination.leavesCodes Code.narrows_signed confines.bounds sound binary chosen
            codes scalar
    · generalize scalar : combination.scalar = applied at declared
      cases declared with
      | unsigned codes =>
          obtain ⟨rfl, rfl, rfl⟩ := confines.unique codes.output
          exact Combination.leavesCodes Code.narrows_unsigned confines.bounds sound binary chosen
            codes scalar
  · obtain ⟨pooling, input, same, sound, made⟩ := averages ran history listed pool
    rw [same]
    obtain ⟨value, found, body⟩ := made.body
    rcases type with ⟨rfl, compute⟩ | ⟨rfl, compute⟩ <;> rw [compute] at body
    · obtain ⟨_, _, _, _, chosen, codes⟩ := Pooling.codeBody_declared made.read found body
      obtain ⟨rfl, rfl, rfl⟩ := confines.unique codes.output
      exact @Pooling.leavesCodes _ sound _ _ _ true _ _ _ _ confines.bounds chosen pool codes
    · obtain ⟨_, _, _, _, chosen, codes⟩ := Pooling.codeBody_declared made.read found body
      obtain ⟨rfl, rfl, rfl⟩ := confines.unique codes.output
      exact @Pooling.leavesCodes _ sound _ _ _ false _ _ _ _ confines.bounds chosen pool codes
  · rcases type with ⟨rfl, compute⟩ | ⟨rfl, compute⟩
    · obtain ⟨declared, product, bounds, declares, same, bounded, body⟩ :=
        exists_codeProduct ran history listed multiply compute
      obtain ⟨value, found, valueElement, quantized⟩ := declares.output
      obtain ⟨rfl, rfl, rfl⟩ := confines.unique ⟨value, found, quantized, by
        rw [valueElement, ← declares.range_eq]
        exact bounded⟩
      rw [same]
      refine Product.leavesCodes (fun isolated => ?_) declares confines.bounds bounded body
      obtain ⟨other, _, declaresToo, sameToo, realizes⟩ :=
        (isolated multiply).realizes ran history listed multiply compute
      cases declares.unique declaresToo
      cases same.symm.trans sameToo
      exact realizes
    · -- no product is of unsigned bytes
      obtain ⟨_, _, _, _, _, _, _, _, _, _, same, _⟩ := exists_bodyOf ran history listed multiply
      rw [same] at between
      nomatch between

/-- Results of codes stay ordered and between the codes of their range.

Take any parameters that are accepted for signed or unsigned bytes, and any two bounds that are
numbers, infinite or not, in order. The bounds have codes, which are in order and among those of the
type. Between them, quantization gives every number a code between them, also what is infinite and
what is not a number; it is monotone; and zero of either sign and what is not a number have the code
of the zero point, confined.

Hence, in any constructed graph that has been compiled on a host with any features and any settings,
take a clamp, a sum, a difference, a product, a maximum, a minimum, a pooling or a fully connected
node that computes in signed or unsigned bytes, after any calls on the compiled graph. It confines
to the codes of its range by the accepted parameters of its output. A run of its operator, set up
for any shapes that it takes, writes nothing but codes between them whenever it succeeds, whatever
its buffers hold. On buffers that are large enough, each byte that it writes holds the 32-bit code
that the node has for its place: narrowing to a byte changes no value. There it succeeds, as long as
the sums of images fit a word; a fully connected node does, and has its own sums, provided that the
digests in a shared cache tell weights apart. -/
theorem quantized_results_stay_between_codes :
    (∀ (scale : Quantization) (element : ElementType), element.IsByteCode →
      scale.validate element = .ok () →
      ∀ least most : Float32, least.isNaN = false → most.isNaN = false → least < most →
        ∃ low high, scale.codeBounds element least most = .ok (low, high) ∧
          element.Bounds low high ∧ scale.Confines low high) ∧
    ∀ (start : Workshop) (earlier : List CompileJob) (job : CompileJob)
      (executable : Executable StandardOperator) (closed : Graph),
      (job.run (start.afterJobs earlier)).1 = .ok (executable, closed) →
      ∀ history, ∀ step ∈ ((Session.start executable).afterCalls history).executable.steps,
        step.node.kind.Confines → (step.node.compute = .qs8 ∨ step.node.compute = .qu8) →
        ∃ element scale low high,
          step.node.ConfinesTo job.graph.values element scale low high ∧
          step.operator.StaysBetween element low high ∧
          step.operator.LeavesCodes
            (step.node.kind = .fullyConnected → CompileJob.Isolated start (earlier ++ [job]))
            step.node job.graph.values element scale low high := by
  constructor
  · intro scale element coded valid least most number numberMost ordered
    obtain ⟨low, high, bounded, bounds⟩ := Quantization.exists_bounds coded valid number numberMost
      ((Binary32.lt_iff number numberMost).mp ordered)
    exact ⟨low, high, bounded, bounds, Quantization.confines coded valid bounds⟩
  · intro start earlier job executable closed ran history step listed kind codes
    obtain ⟨element, scale, low, high, declared, confines⟩ :=
      CompileJob.confines ran history listed kind codes
    exact ⟨element, scale, low, high, declared, confines.staysBetween declared.bounds,
      CompileJob.leavesCodes ran history listed kind declared confines⟩

/-- A clamp of codes that stand for themselves, to the numbers from -3 to 5. -/
def confinedGraph : List BuildCall :=
  [.quantizedTensor ⟨.qint8, [2], none, some 0, .externalInput⟩ ⟨0, Binary32.one⟩,
    .quantizedTensor ⟨.qint8, [2], none, some 1, .externalOutput⟩ ⟨0, Binary32.one⟩,
    .node .clamp [0] [1] (.outputRange (Float32.ofBits 0xc0400000) (Float32.ofBits 0x40a00000)) 0]

/-- The theorem applies to the codes -6 and 9, which a clamp to the range from -3 to 5 confines to
the codes -3 and 5. -/
theorem quantized_results_stay_between_codes_clamp :
    (∃ low high, (⟨0, Binary32.one⟩ : Quantization).codeBounds .qint8 (Float32.ofBits 0xc0400000)
        (Float32.ofBits 0x40a00000) = .ok (low, high) ∧ ElementType.Bounds .qint8 low high ∧
      (⟨0, Binary32.one⟩ : Quantization).Confines low high) ∧
    ∃ executable closed, ((portableJob confinedGraph).run {}).1 = .ok (executable, closed) ∧
      ∀ step ∈ executable.steps, step.node.kind.Confines ∧ step.node.compute = .qs8 ∧
        (Operator.setup step.operator [[2]] [2]).2 = .ok () ∧
        let done := Operator.run (Operator.setup step.operator [[2]] [2]).1 .backwards
          [Buffer.fresh #[250, 9]] (Buffer.fresh #[0, 0])
        done.outcome = .ok () ∧ HoldsBetween .qint8 (-3) 5 done.written 2 ∧
          elementBytes done.written 1 0 = [253] ∧ elementBytes done.written 1 1 = [5] := by
  have less : (Float32.ofBits 0xc0400000 : Float32) < Float32.ofBits 0x40a00000 :=
    (Binary32.lt_iff (by decide) (by decide)).mpr (by decide +kernel)
  have valid : (⟨0, Binary32.one⟩ : Quantization).validate .qint8 = .ok () := by
    unfold Quantization.validate
    rw [if_neg (by decide +kernel)]
    rfl
  refine ⟨quantized_results_stay_between_codes.1 ⟨0, Binary32.one⟩ .qint8 (.inl rfl) valid _ _
    (by decide) (by decide) less, ?_⟩
  have graphNodes : (portableJob confinedGraph).graph.nodes = [⟨0, .clamp, .qs8, [0], [1],
      .outputRange (Float32.ofBits 0xc0400000) (Float32.ofBits 0x40a00000), 0⟩] := rfl
  obtain ⟨executable, closed, ran, nodes⟩ :=
    CompileJob.exists_of_isSome (portableJob confinedGraph) {} (by decide +kernel)
  refine ⟨executable, closed, ran, fun step listed => ?_⟩
  have node : step.node ∈ executable.steps.map (·.node) := List.mem_map_of_mem listed
  rw [nodes, graphNodes, List.mem_singleton] at node
  have kind : step.node.kind = .clamp := by rw [node]
  have codes : step.node.compute = .qs8 := by rw [node]
  obtain ⟨element, scale, low, high, confines, between, leaves⟩ :=
    quantized_results_stay_between_codes.2 {} [] _ executable closed ran [] step listed (.inl kind)
      (.inl codes)
  obtain ⟨rfl, rfl, rfl⟩ : element = .qint8 ∧ low = -3 ∧ high = 5 := by
    have bounded := confines.bounded
    obtain ⟨value, found, rfl, quantized⟩ := confines.output
    rw [node] at found bounded
    cases found
    cases quantized
    have same : (⟨0, Binary32.one⟩ : Quantization).codeBounds .qint8 (Float32.ofBits 0xc0400000)
        (Float32.ofBits 0x40a00000) = .ok (-3, 5) := by decide +kernel
    cases same.symm.trans bounded
    exact ⟨rfl, rfl, rfl⟩
  have taken : (Operator.setup step.operator [[2]] [2]).2 = .ok () := by
    obtain ⟨map, _, maps⟩ := CompileJob.maps ran [] listed (.inl kind)
    exact (maps [[2]] [2]).1.mpr ⟨[2], rfl, rfl⟩
  obtain ⟨ended, results⟩ := leaves [[2]] [2] taken .backwards [Buffer.fresh #[250, 9]]
    (Buffer.fresh #[0, 0]) (by rw [kind]; decide) (by decide)
  have ended := ended (by rw [kind]; intro multiply; cases multiply)
    (by rw [kind]; intro _ pool; cases pool)
  have results := results ended
  have holds := between [[2]] [2] taken .backwards [Buffer.fresh #[250, 9]] (Buffer.fresh #[0, 0])
    ended
  refine ⟨.inl kind, codes, taken, ended, holds, ?_, ?_⟩
  · obtain ⟨byte, written, has⟩ := results 0 (by decide)
    rw [kind] at has
    obtain ⟨_, given, confined⟩ := has.of_clamp
    cases given
    have code : confineCode (codeAt .qint8 (Buffer.fresh #[250, 9]) 0) (-3) 5 =
        .ok (codeOfByte .qint8 253) := by decide +kernel
    cases codeOfByte_injective confines.coded (Except.ok.inj (code.symm.trans confined))
    exact written
  · obtain ⟨byte, written, has⟩ := results 1 (by decide)
    rw [kind] at has
    obtain ⟨_, given, confined⟩ := has.of_clamp
    cases given
    have code : confineCode (codeAt .qint8 (Buffer.fresh #[250, 9]) 1) (-3) 5 =
        .ok (codeOfByte .qint8 5) := by decide +kernel
    cases codeOfByte_injective confines.coded (Except.ok.inj (code.symm.trans confined))
    exact written

end TensorEngine
