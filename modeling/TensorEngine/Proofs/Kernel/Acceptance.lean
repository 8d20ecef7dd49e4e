import TensorEngine.Proofs.Graph.Admission
import TensorEngine.Proofs.Kernel.Creation
import TensorEngine.Proofs.Kernel.Packing
import TensorEngine.Proofs.Tensor.Quantization

/-!
Contract: every factory of the library accepts every node that a graph admits.

Owns:
- `CreateContext.Admits`, a context whose node has passed all checks, on sound tensors;
- `Node.GrantsRoom` and `Node.RefusesRoom`, what comes of asking for the room of its weights;
- the theorem that a factory that a catalog offers for such a node makes an operator unless that
  room is refused.

Does not own: that a catalog offers a factory.
-/

namespace TensorEngine

open Making

/-! ## Contexts of admitted nodes -/

theorem Value.Sound.weights {value : Value} (sound : value.Sound)
    (static : value.isStatic = true) : ∃ bytes, value.Weights value.element bytes := by
  obtain ⟨bytes, found⟩ := Option.isSome_iff_exists.mp static
  exact ⟨bytes, rfl, found, sound.filled bytes found⟩

theorem Node.Admitted.operand?_eq {values operands : List Value} {node : Node} {output : Value}
    (admitted : node.Admitted values operands output) (index : Nat) :
    node.operand? values index = operands[index]? := by
  cases listed : operands[index]? with
  | some operand =>
      obtain ⟨id, read, found⟩ := getElem?_of_forall₂ admitted.found.flip listed
      exact Option.bind_eq_some_iff.mpr ⟨id, read, found⟩
  | none =>
      have short := List.getElem?_eq_none_iff.mp listed
      rw [admitted.operands_length] at short
      unfold Node.operand?
      rw [List.getElem?_eq_none short]
      rfl

/-- A context whose node has passed all checks, on sound tensors. -/
structure CreateContext.Admits (context : CreateContext) (operands : List Value)
    (output : Value) : Prop where
  node : context.node.Admitted context.values operands output
  soundOperands : ∀ operand ∈ operands, operand.Sound
  soundOutput : output.Sound

namespace CreateContext.Admits

variable {context : CreateContext} {operands : List Value} {output : Value}

theorem input_eq (admits : context.Admits operands output) {index : Nat} {operand : Value}
    (listed : operands[index]? = some operand) : context.input index = .ok operand :=
  input_eq_operand?.mpr ((admits.node.operand?_eq index).trans listed)

theorem output_eq (admits : context.Admits operands output) : context.output = .ok output := by
  obtain ⟨id, outputs, found⟩ := admits.node.written
  exact output_eq_ok_iff.mpr ⟨id, by rw [outputs, List.head?_cons], found⟩

end CreateContext.Admits

/-! ## Mappings -/

/-- Each kind that maps elements has a function, and only two kinds have one without a kernel for
codes. -/
theorem UnaryFunction.exists_ofNode {kind : OpKind} {params : OpParams}
    (unary : kind.isUnary = true) (notConvert : kind ≠ .convert)
    (checked : kind.checkParams params = .ok ()) :
    ∃ function, UnaryFunction.ofNode kind params = .ok function ∧
      (kind ≠ .abs → kind ≠ .negate → function ≠ .abs ∧ function ≠ .negate) := by
  cases kind with
  | abs => exact ⟨_, rfl, fun other => absurd rfl other⟩
  | negate => exact ⟨_, rfl, fun _ other => absurd rfl other⟩
  | clamp => exact ⟨_, rfl, fun _ _ => ⟨nofun, nofun⟩⟩
  | sigmoid => exact ⟨_, rfl, fun _ _ => ⟨nofun, nofun⟩⟩
  | tanh => exact ⟨_, rfl, fun _ _ => ⟨nofun, nofun⟩⟩
  | copy => exact ⟨_, rfl, fun _ _ => ⟨nofun, nofun⟩⟩
  | convert => exact absurd rfl notConvert
  | leakyRelu =>
      -- a slope is checked to be there
      cases params with
      | negativeSlope slope => exact ⟨_, rfl, fun _ _ => ⟨nofun, nofun⟩⟩
      | none => cases checked
      | outputRange low high => cases checked
  | _ => cases unary

theorem ComputeType.isByteCode_of_quantized {element : ElementType} {compute : ComputeType}
    (computed : ofElement? element = some compute) (coded : element.isQuantized = true) :
    element.IsByteCode := by
  rcases OpKind.ofElement?_eq_some_iff.mp computed with
    ⟨rfl, _⟩ | ⟨rfl, _⟩ | ⟨rfl, _⟩ | ⟨rfl, _⟩
  · cases coded
  · cases coded
  · exact .inl rfl
  · exact .inr rfl

section Bodies

variable {context : CreateContext} {compute : ComputeType} {input output : Value}
  {fails : Fault → Prop}

theorem Mapping.codeBody_accepts {function : UnaryFunction} {element : ElementType}
    {scale result : Quantization} (kernel : function ≠ .abs ∧ function ≠ .negate)
    (coded : element.IsByteCode) (valid : scale.validate element = .ok ()) :
    (Mapping.codeBody context compute function element scale result).Ends (fun _ => True)
      fails := by
  obtain ⟨table, tabulated⟩ := function.exists_tabulate coded valid result
  have looked : ∀ key : TableKey, (do
      return MappingBody.lookUp
        (← Workshop.table key fun _ => function.tabulate element scale result) :
      Making MappingBody).Ends (fun _ => True) fails := by
    intro key
    refine (Ends.table fun fault failed => ?_).bind fun _ _ => Ends.pure trivial
    rw [tabulated] at failed
    cases failed
  unfold Mapping.codeBody
  cases function with
  | copy => exact Ends.pure trivial
  | clamp low high =>
      obtain ⟨codes, bounded⟩ := result.exists_codeBounds element low high
      exact (Ends.known (lift_eq_ok_iff.mpr bounded)).bind fun _ _ => Ends.pure trivial
  | sigmoid => exact looked _
  | tanh => exact looked _
  | leakyRelu slope => exact looked _
  | abs => exact absurd rfl kernel.1
  | negate => exact absurd rfl kernel.2

theorem Mapping.makeBody_accepts {function : UnaryFunction}
    (readInput : context.input 0 = .ok input) (readOutput : context.output = .ok output)
    (same : input.element = output.element) (soundInput : input.Sound)
    (soundOutput : output.Sound)
    (computed : ComputeType.ofElement? output.element = some compute)
    (kernel : output.element.isQuantized = true → function ≠ .abs ∧ function ≠ .negate) :
    (Mapping.makeBody context compute function).Ends (fun _ => True) fails := by
  have codes : output.element.isQuantized = true →
      (Mapping.scaledBody context compute function).Ends (fun _ => True) fails := by
    intro coded
    obtain ⟨scale, foundScale, valid⟩ := soundInput.exists_quantization (by rw [same]; exact coded)
    obtain ⟨result, foundResult, _⟩ := soundOutput.exists_quantization coded
    unfold Mapping.scaledBody
    apply (Ends.known readInput).bind
    rintro _ rfl
    apply (Ends.known readOutput).bind
    rintro _ rfl
    simp only [foundScale, foundResult]
    rw [same] at valid
    exact Mapping.codeBody_accepts (kernel coded)
      (ComputeType.isByteCode_of_quantized computed coded) valid
  rcases OpKind.ofElement?_eq_some_iff.mp computed with
    ⟨_, rfl⟩ | ⟨_, rfl⟩ | ⟨element, rfl⟩ | ⟨element, rfl⟩
  · exact Ends.pure trivial
  · exact Ends.pure trivial
  · rw [makeBody_qs8]
    exact codes (by rw [element]; rfl)
  · rw [makeBody_qu8]
    exact codes (by rw [element]; rfl)

theorem Mapping.factory_accepts {operands : List Value} (admits : context.Admits operands output)
    (unary : context.node.kind.isUnary = true) (notConvert : context.node.kind ≠ .convert)
    (lanes : Nat) :
    ((Mapping.factory context.node.compute lanes).create context).Ends (fun _ => True) fails := by
  obtain ⟨function, chosen, kernel⟩ :=
    UnaryFunction.exists_ofNode unary notConvert admits.node.params
  obtain ⟨input, rest, rfl⟩ := admits.node.exists_operand
  obtain ⟨listed, computed⟩ := admits.node.computed notConvert
  have notProduct : context.node.kind ≠ .fullyConnected := by
    intro multiply
    rw [multiply] at unary
    cases unary
  have coded : output.element.isQuantized = true → function ≠ .abs ∧ function ≠ .negate := by
    intro quantized
    -- the kinds without a kernel for codes take numbers only
    have numbers : ∀ element ∈ OpKind.abs.elements, element.isQuantized = false := by decide
    refine kernel (fun abs => ?_) (fun negate => ?_)
    · rw [abs] at listed
      rw [numbers _ listed] at quantized
      cases quantized
    · rw [negate] at listed
      rw [numbers _ listed] at quantized
      cases quantized
  apply (Ends.known chosen).bind
  rintro _ rfl
  refine (Mapping.makeBody_accepts (admits.input_eq rfl) admits.output_eq
    (admits.node.element_eq notConvert notProduct input List.mem_cons_self)
    (admits.soundOperands input List.mem_cons_self) admits.soundOutput computed coded).bind
    fun _ _ => ?_
  exact Ends.pure trivial

/-! ## Conversions -/

theorem Conversion.exists_scaleOf {value : Value} (sound : value.Sound)
    (coded : value.element.isQuantized = true) (operand : String) :
    ∃ scale, Conversion.scaleOf value operand = .ok scale := by
  obtain ⟨scale, found, _⟩ := sound.exists_quantization coded
  refine ⟨scale, ?_⟩
  unfold Conversion.scaleOf
  rw [found]

/-- Every pair of storage types between which a conversion exists has a body. -/
theorem Conversion.exists_makeBody
    (listed : (input.element, output.element, compute) ∈ ComputeType.conversions)
    (soundInput : input.Sound) (soundOutput : output.Sound) :
    ∃ body, Conversion.makeBody compute input output = .ok body := by
  have scaleInput := fun coded => Conversion.exists_scaleOf soundInput coded "input"
  have scaleOutput := fun coded => Conversion.exists_scaleOf soundOutput coded "output"
  simp only [ComputeType.conversions, List.mem_cons, Prod.mk.injEq, List.not_mem_nil,
    or_false] at listed
  rcases listed with ⟨_, _, rfl⟩ | ⟨_, _, rfl⟩ | ⟨_, target, rfl⟩ | ⟨_, target, rfl⟩ |
    ⟨source, _, rfl⟩ | ⟨source, _, rfl⟩
  · exact ⟨_, rfl⟩
  · exact ⟨_, rfl⟩
  · obtain ⟨scale, found⟩ := scaleOutput (by rw [target]; rfl)
    exact ⟨_, map_eq_ok_iff.mpr ⟨scale, found, rfl⟩⟩
  · obtain ⟨scale, found⟩ := scaleOutput (by rw [target]; rfl)
    exact ⟨_, map_eq_ok_iff.mpr ⟨scale, found, rfl⟩⟩
  · obtain ⟨scale, found⟩ := scaleInput (by rw [source]; rfl)
    exact ⟨_, map_eq_ok_iff.mpr ⟨scale, found, rfl⟩⟩
  · obtain ⟨scale, found⟩ := scaleInput (by rw [source]; rfl)
    exact ⟨_, map_eq_ok_iff.mpr ⟨scale, found, rfl⟩⟩

theorem Conversion.factory_accepts {operands : List Value}
    (admits : context.Admits operands output) (convert : context.node.kind = .convert) :
    ((Conversion.factory context.node.compute).create context).Ends (fun _ => True) fails := by
  obtain ⟨input, rest, rfl⟩ := admits.node.exists_operand
  have checked := admits.node.elements
  rw [convert] at checked
  have listed := OpKind.mem_conversions (OpKind.checkConversion_eq_ok_iff.mp checked)
  obtain ⟨body, made⟩ := Conversion.exists_makeBody listed
    (admits.soundOperands input List.mem_cons_self) admits.soundOutput
  apply (Ends.known (admits.input_eq rfl)).bind
  rintro _ rfl
  apply (Ends.known admits.output_eq).bind
  rintro _ rfl
  exact (Ends.known made).bind fun _ _ => Ends.pure trivial

/-! ## Combinations -/

theorem OpKind.inputArity_of_isBinary {kind : OpKind} (binary : kind.isBinary = true) :
    kind.inputArity = .exactly 2 := by
  cases kind <;> first | rfl | cases binary

theorem BinaryFunction.exists_ofKind {kind : OpKind} (binary : kind.isBinary = true) :
    ∃ function, BinaryFunction.ofKind kind = .ok function := by
  cases kind <;> first | exact ⟨_, rfl⟩ | cases binary

theorem Combination.exists_codeBody {left right : Value} (readLeft : context.input 0 = .ok left)
    (readRight : context.input 1 = .ok right) (readOutput : context.output = .ok output)
    (soundLeft : left.Sound) (soundRight : right.Sound) (soundOutput : output.Sound)
    (sameLeft : left.element = output.element) (sameRight : right.element = output.element)
    (coded : output.element.isQuantized = true) (signed : Bool) :
    ∃ body, Combination.codeBody context signed = .ok body := by
  obtain ⟨leftScale, foundLeft, _⟩ := soundLeft.exists_quantization (by rw [sameLeft]; exact coded)
  obtain ⟨rightScale, foundRight, _⟩ :=
    soundRight.exists_quantization (by rw [sameRight]; exact coded)
  obtain ⟨scale, found, _⟩ := soundOutput.exists_quantization coded
  obtain ⟨codes, bounded⟩ := scale.exists_codeBounds output.element context.node.params.range.1
    context.node.params.range.2
  refine ⟨.codes signed leftScale rightScale scale codes.1 codes.2, ?_⟩
  unfold Combination.codeBody
  refine bind_eq_ok_iff.mpr ⟨left, readLeft, ?_⟩
  refine bind_eq_ok_iff.mpr ⟨right, readRight, ?_⟩
  refine bind_eq_ok_iff.mpr ⟨output, readOutput, ?_⟩
  simp only [foundLeft, foundRight, found]
  exact bind_eq_ok_iff.mpr ⟨codes, lift_eq_ok_iff.mpr bounded, rfl⟩

theorem Combination.exists_makeBody {left right : Value} (readLeft : context.input 0 = .ok left)
    (readRight : context.input 1 = .ok right) (readOutput : context.output = .ok output)
    (soundLeft : left.Sound) (soundRight : right.Sound) (soundOutput : output.Sound)
    (sameLeft : left.element = output.element) (sameRight : right.element = output.element)
    (computed : ComputeType.ofElement? output.element = some compute) :
    ∃ body, Combination.makeBody context compute = .ok body := by
  have codes := Combination.exists_codeBody readLeft readRight readOutput soundLeft soundRight
    soundOutput sameLeft sameRight
  rcases OpKind.ofElement?_eq_some_iff.mp computed with
    ⟨_, rfl⟩ | ⟨_, rfl⟩ | ⟨element, rfl⟩ | ⟨element, rfl⟩
  · exact ⟨_, rfl⟩
  · exact ⟨_, rfl⟩
  · exact codes (by rw [element]; rfl) true
  · exact codes (by rw [element]; rfl) false

theorem Combination.factory_accepts {operands : List Value}
    (admits : context.Admits operands output) (binary : context.node.kind.isBinary = true)
    (lanes : Nat) :
    ((Combination.factory context.node.compute lanes).create context).Ends (fun _ => True)
      fails := by
  obtain ⟨function, chosen⟩ := BinaryFunction.exists_ofKind binary
  obtain ⟨notConvert, notProduct⟩ := OpKind.ne_of_isBinary binary
  have two : operands.length = 2 := by
    have allowed := admits.node.arity
    rw [← admits.node.operands_length, OpKind.inputArity_of_isBinary binary] at allowed
    exact beq_iff_eq.mp allowed
  obtain ⟨left, right, rfl⟩ := List.length_eq_two.mp two
  have same := admits.node.element_eq notConvert notProduct
  have sound := admits.soundOperands
  rw [List.forall_mem_cons, List.forall_mem_cons] at same sound
  obtain ⟨_, computed⟩ := admits.node.computed notConvert
  obtain ⟨body, made⟩ := Combination.exists_makeBody (admits.input_eq rfl) (admits.input_eq rfl)
    admits.output_eq sound.1 sound.2.1 admits.soundOutput same.1 same.2.1 computed
  apply (Ends.known chosen).bind
  rintro _ rfl
  exact (Ends.known made).bind fun _ _ => Ends.pure trivial

/-! ## Poolings -/

theorem Pooling.exists_codeBody (soundInput : input.Sound) (soundOutput : output.Sound)
    (same : input.element = output.element) (coded : output.element.isQuantized = true)
    (signed : Bool) (low high : Float32) :
    ∃ body, Pooling.codeBody signed input output low high = .ok body := by
  obtain ⟨inputScale, foundInput, _⟩ :=
    soundInput.exists_quantization (by rw [same]; exact coded)
  obtain ⟨scale, found, _⟩ := soundOutput.exists_quantization coded
  obtain ⟨codes, bounded⟩ := scale.exists_codeBounds output.element low high
  refine ⟨.codes signed inputScale scale codes.1 codes.2, ?_⟩
  unfold Pooling.codeBody
  simp only [foundInput, found]
  exact bind_eq_ok_iff.mpr ⟨codes, lift_eq_ok_iff.mpr bounded, rfl⟩

theorem Pooling.exists_makeBody (soundInput : input.Sound) (soundOutput : output.Sound)
    (same : input.element = output.element)
    (computed : ComputeType.ofElement? output.element = some compute) (low high : Float32) :
    ∃ body, Pooling.makeBody compute input output low high = .ok body := by
  have codes := Pooling.exists_codeBody soundInput soundOutput same
  rcases OpKind.ofElement?_eq_some_iff.mp computed with
    ⟨_, rfl⟩ | ⟨_, rfl⟩ | ⟨element, rfl⟩ | ⟨element, rfl⟩
  · exact ⟨_, rfl⟩
  · exact ⟨_, rfl⟩
  · exact codes (by rw [element]; rfl) true low high
  · exact codes (by rw [element]; rfl) false low high

theorem Pooling.factory_accepts {operands : List Value} (admits : context.Admits operands output)
    (pool : context.node.kind = .globalAveragePooling2d) :
    ((Pooling.factory context.node.compute).create context).Ends (fun _ => True) fails := by
  obtain ⟨input, rest, rfl⟩ := admits.node.exists_operand
  have notConvert : context.node.kind ≠ .convert := by rw [pool]; decide
  have same := admits.node.element_eq notConvert (by rw [pool]; decide) input List.mem_cons_self
  obtain ⟨_, computed⟩ := admits.node.computed notConvert
  have shape := admits.node.shape
  rw [pool] at shape
  obtain ⟨images, height, width, channels, batch, _⟩ :=
    OpKind.pooledShape_eq_ok_iff.mp (show OpKind.pooledShape input.shape _ = _ from shape)
  obtain ⟨body, made⟩ := Pooling.exists_makeBody
    (admits.soundOperands input List.mem_cons_self) admits.soundOutput same computed
    context.node.params.range.1 context.node.params.range.2
  have counted : Pooling.imageChannels input.shape = .ok channels := by
    rw [batch]
    rfl
  apply (Ends.known (admits.input_eq rfl)).bind
  rintro _ rfl
  apply (Ends.known admits.output_eq).bind
  rintro _ rfl
  apply (Ends.known made).bind
  intro _ _
  exact (Ends.known counted).bind fun _ _ => Ends.pure trivial

/-! ## Products -/

theorem Product.exists_makeBody {filter : Value} (soundInput : input.Sound)
    (soundFilter : filter.Sound) (soundOutput : output.Sound)
    (sameInput : input.element = output.element) (sameFilter : filter.element = output.element)
    (listed : output.element ∈ OpKind.fullyConnected.elements)
    (computed : ComputeType.ofElement? output.element = some compute) (low high : Float32) :
    ∃ body zeroPoint, Product.makeBody compute input filter output low high =
      .ok (some body, zeroPoint) := by
  rcases OpKind.ofElement?_eq_some_iff.mp computed with
    ⟨_, rfl⟩ | ⟨_, rfl⟩ | ⟨element, rfl⟩ | ⟨element, rfl⟩
  · exact ⟨_, _, rfl⟩
  · exact ⟨_, _, rfl⟩
  · obtain ⟨inputScale, foundInput, _⟩ :=
      soundInput.exists_quantization (by rw [sameInput, element]; rfl)
    obtain ⟨filterScale, foundFilter, _⟩ :=
      soundFilter.exists_quantization (by rw [sameFilter, element]; rfl)
    obtain ⟨scale, found, _⟩ := soundOutput.exists_quantization (by rw [element]; rfl)
    obtain ⟨codes, bounded⟩ := scale.exists_codeBounds .qint8 low high
    refine ⟨.codes scale (inputScale.scale * filterScale.scale) codes.1 codes.2,
      inputScale.zeroPoint, ?_⟩
    unfold Product.makeBody Product.codeBody
    simp only [foundInput, foundFilter, found]
    exact bind_eq_ok_iff.mpr ⟨_, bind_eq_ok_iff.mpr ⟨codes, lift_eq_ok_iff.mpr bounded, rfl⟩, rfl⟩
  · -- products have no unsigned codes
    rw [element] at listed
    simp [OpKind.elements] at listed

/-- The sizes of the packed weights of a node fit their words, if it is a product. -/
def Node.PacksInBounds (values : List Value) (node : Node) : Prop :=
  node.kind = .fullyConnected →
    ∀ (id : Nat) (filter : Value) (inner outputs : Nat), node.inputs[1]? = some id →
      values[id]? = some filter → filterChannels filter.shape node.flags = .ok (inner, outputs) →
      PackedWeights.Fits node.compute inner outputs

/-- A product whose filter has these input and output channels. -/
structure Node.Multiplies (node : Node) (values : List Value) (inner outputs : Nat) : Prop where
  kind_eq : node.kind = .fullyConnected
  channels : ∃ filter, node.operand? values 1 = some filter ∧
    filterChannels filter.shape node.flags = .ok (inner, outputs)

/-- Room for the weights of a node is refused with this fault. The node is a product. -/
def Node.RefusesRoom (node : Node) (values : List Value) (fault : Fault) : Prop :=
  ∃ inner outputs, node.Multiplies values inner outputs ∧
    PackedWeights.Refuses node.compute inner outputs fault

/-- Room for the weights of a node is granted, if it is a product. -/
def Node.GrantsRoom (node : Node) (values : List Value) : Prop :=
  ∀ inner outputs, node.Multiplies values inner outputs →
    PackedWeights.Granted node.compute inner outputs

theorem Node.PacksInBounds.fits {values : List Value} {node : Node} {inner outputs : Nat}
    (packs : node.PacksInBounds values) (multiplies : node.Multiplies values inner outputs) :
    PackedWeights.Fits node.compute inner outputs := by
  obtain ⟨filter, found, channels⟩ := multiplies.channels
  obtain ⟨id, read, held⟩ := Option.bind_eq_some_iff.mp found
  exact packs multiplies.kind_eq id filter inner outputs read held channels

/-- A refusal of room is a want of memory as long as the sizes of the weights fit their words. -/
theorem Node.RefusesRoom.outOfMemory {values : List Value} {node : Node} {fault : Fault}
    (refused : node.RefusesRoom values fault) (packs : node.PacksInBounds values) :
    fault.OutOfMemory := by
  obtain ⟨inner, outputs, multiplies, refused⟩ := refused
  exact refused.outOfMemory (packs.fits multiplies)

theorem Node.GrantsRoom.not_refusesRoom {values : List Value} {node : Node}
    (grants : node.GrantsRoom values) (fault : Fault) : ¬ node.RefusesRoom values fault := by
  rintro ⟨inner, outputs, multiplies, refused⟩
  exact (grants inner outputs multiplies).not_refuses fault refused

theorem Product.factory_accepts {operands : List Value} (admits : context.Admits operands output)
    (multiply : context.node.kind = .fullyConnected)
    (packs : context.node.PacksInBounds context.values) :
    ((Product.factory context.node.compute).create context).Ends (fun _ => True)
      (context.node.RefusesRoom context.values) := by
  obtain ⟨input, filter, bias, given⟩ := admits.node.exists_productOperands multiply
  obtain rfl := given.operands_eq
  obtain ⟨listed, computed⟩ := admits.node.computed (by rw [multiply]; decide)
  rw [multiply] at listed
  obtain ⟨inner, outputs, channels, _, biasShape, _⟩ :=
    OpKind.productShape_eq_ok_iff.mp given.shape
  have readFilter : context.input 1 = .ok filter := admits.input_eq rfl
  have multiplies : context.node.Multiplies context.values inner outputs :=
    ⟨multiply, filter, CreateContext.input_eq_operand?.mp readFilter, channels⟩
  have soundFilter := admits.soundOperands filter (by simp)
  obtain ⟨bytes, weights⟩ := soundFilter.weights given.filter_static
  rw [given.filter_element] at weights
  have biased : PackedWeights.IsBias bias (OpKind.biasElement output.element) outputs := by
    rintro value rfl
    obtain ⟨element, static⟩ := given.bias_element value rfl
    obtain ⟨bytes, weights⟩ := (admits.soundOperands value (by simp)).weights static
    rw [element] at weights
    exact ⟨biasShape _ rfl, bytes, weights⟩
  obtain ⟨body, zeroPoint, made⟩ := Product.exists_makeBody
    (admits.soundOperands input List.mem_cons_self) soundFilter admits.soundOutput
    given.input_element given.filter_element listed computed context.node.params.range.1
    context.node.params.range.2
  apply (Ends.known (admits.input_eq rfl)).bind
  rintro _ rfl
  apply (Ends.known readFilter).bind
  rintro _ rfl
  extract_lets flags withBias
  have rest : (withBias bias).Ends (fun _ => True) (context.node.RefusesRoom context.values) := by
    apply (Ends.known admits.output_eq).bind
    rintro _ rfl
    apply (Ends.known made).bind
    rintro _ rfl
    have packed := PackedWeights.pack_failsOnly listed computed channels
      (PackedWeights.reserves_refuses (packs.fits multiplies).sums) weights biased zeroPoint
    refine Ends.bind (Ends.packed fun fault failed =>
      ⟨inner, outputs, multiplies, packed fault failed⟩) fun _ _ => ?_
    exact Ends.pure trivial
  -- the bias is read exactly when it is there
  have count := admits.node.operands_length
  cases bias with
  | none =>
      rw [if_neg (by rw [← count]; simp)]
      exact rest
  | some value =>
      rw [if_pos (by rw [← count]; simp)]
      have readBias : Ends (some <$> (liftM (context.input 2) : Making Value))
          (fun given => given = some value) (context.node.RefusesRoom context.values) :=
        (Ends.known (admits.input_eq rfl)).map fun _ same => congrArg some same
      apply readBias.bind
      rintro _ rfl
      exact rest

end Bodies

/-! ## Every offer -/

/-- Every factory that the library offers for an admitted node makes an operator unless room for
its weights is refused. -/
theorem Catalog.Offers.accepts {context : CreateContext} {factory : Factory StandardOperator}
    (offers : Catalog.Offers context.node.key factory) {operands : List Value} {output : Value}
    (admits : context.Admits operands output)
    (packs : context.node.PacksInBounds context.values) :
    (factory.create context).Ends (fun _ => True)
      (context.node.RefusesRoom context.values) := by
  have embedded : ∀ {Made : Type} {embed : Made → StandardOperator} {made : Making Made},
      made.Ends (fun _ => True) (context.node.RefusesRoom context.values) →
      (embed <$> made).Ends (fun _ => True) (context.node.RefusesRoom context.values) :=
    fun ends => ends.map fun _ _ => trivial
  cases offers.family with
  | conversion convert => exact embedded (Conversion.factory_accepts admits convert)
  | pooling pool => exact embedded (Pooling.factory_accepts admits pool)
  | product multiply => exact embedded (Product.factory_accepts admits multiply packs)
  | combination binary lanes => exact embedded (Combination.factory_accepts admits binary lanes)
  | mapping unary notConvert lanes =>
      exact embedded (Mapping.factory_accepts admits unary notConvert lanes)

end TensorEngine
