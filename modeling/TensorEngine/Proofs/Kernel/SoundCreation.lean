import TensorEngine.Proofs.Kernel.Acceptance
import TensorEngine.Proofs.Kernel.Soundness

/-!
Contract: the operators that are made for admitted nodes have sound bodies.

Owns:
- `StandardOperator.SoundFor`, an operator with a sound body that reads operands of the storage
  type of its node;
- the theorem that every factory that a catalog offers makes only such operators.

Does not own: packed weights.
-/

namespace TensorEngine

open Making TensorEngine.Numeric

/-! ## Bodies -/

/-- Bytes of an element of the operands that a compute type reads. -/
def ComputeType.operandWidth : ComputeType → Nat
  | fp32 | fp32ToFp16 | fp32ToQs8 | fp32ToQu8 => 4
  | fp16 | fp16ToFp32 => 2
  | qs8 | qu8 | qs8ToFp32 | qu8ToFp32 => 1

/-- Compute types of a storage type read what they write. -/
theorem ComputeType.operandWidth_eq {element : ElementType} {compute : ComputeType}
    (computed : ofElement? element = some compute) :
    compute.operandWidth = element.width ∧ compute.resultWidth = element.width := by
  rcases OpKind.ofElement?_eq_some_iff.mp computed with
    ⟨rfl, rfl⟩ | ⟨rfl, rfl⟩ | ⟨rfl, rfl⟩ | ⟨rfl, rfl⟩
  all_goals exact ⟨rfl, rfl⟩

/-- The operands that operators read, two at most, have the storage type of the compute type. -/
theorem Node.Admitted.operandWidth {values operands : List Value} {node : Node} {output : Value}
    (admitted : node.Admitted values operands output) {index : Nat} (read : index < 2)
    {operand : Value} (listed : operands[index]? = some operand) :
    operand.element.width = node.compute.operandWidth := by
  by_cases convert : node.kind = .convert
  · obtain ⟨input, rest, rfl⟩ := admitted.exists_operand
    have checked := admitted.elements
    rw [convert] at checked
    have listedPair := OpKind.mem_conversions (OpKind.checkConversion_eq_ok_iff.mp checked)
    have pairs : ∀ pair ∈ ComputeType.conversions, pair.1.width = pair.2.2.operandWidth := by
      decide
    have single := admitted.arity
    rw [← admitted.operands_length, convert] at single
    have alone : rest.length + 1 = 1 := beq_iff_eq.mp single
    cases index with
    | zero =>
        cases listed
        exact pairs _ listedPair
    | succ index =>
        rw [List.getElem?_cons_succ, List.getElem?_eq_none (by omega)] at listed
        cases listed
  · obtain ⟨_, computed⟩ := admitted.computed convert
    rw [(ComputeType.operandWidth_eq computed).1]
    congr 1
    by_cases multiply : node.kind = .fullyConnected
    · obtain ⟨input, filter, bias, given⟩ := admitted.exists_productOperands multiply
      rw [given.operands_eq] at listed
      match index, read with
      | 0, _ =>
          cases listed
          exact given.input_element
      | 1, _ =>
          cases listed
          exact given.filter_element
    · exact admitted.element_eq convert multiply operand (List.mem_of_getElem? listed)

/-- The codes of a checked output range are in order. -/
theorem Value.Sound.codes_ordered {value : Value} (sound : value.Sound) {scale : Quantization}
    (found : value.quantization = some scale) {params : OpParams} (ordered : params.IsOrdered)
    {element : ElementType} {codes : Int32 × Int32}
    (bounded : scale.codeBounds element params.range.1 params.range.2 = .ok codes) :
    codes.1 ≤ codes.2 :=
  (Quantization.isScaled_of_validate (sound.valid scale found)).codeBounds_ordered ordered.low
    ordered.high ordered.ordered bounded

theorem UnaryFunction.range_of_ofNode {kind : OpKind} {params : OpParams} {low high : Float32}
    (chosen : ofNode kind params = .ok (clamp low high)) : params.range = (low, high) := by
  unfold ofNode at chosen
  split at chosen <;> cases chosen
  rfl

section Bodies

variable {context : CreateContext} {compute : ComputeType} {input output : Value}

theorem Mapping.makeBody_sound {function : UnaryFunction}
    (readOutput : context.output = .ok output) (soundOutput : output.Sound)
    (ordered : context.node.params.IsOrdered)
    (chosen : UnaryFunction.ofNode context.node.kind context.node.params = .ok function) :
    (Mapping.makeBody context compute function).Ends MappingBody.Sound (fun _ => True) := by
  have confined : ∀ scale result, output.quantization = some result →
      (Mapping.codeBody context compute function output.element scale result).Ends
        MappingBody.Sound (fun _ => True) := by
    intro scale result found
    unfold Mapping.codeBody
    cases function with
    | copy => exact Ends.pure trivial
    | clamp low high =>
        refine (Ends.of_outcome_ok fun codes given => lift_eq_ok_iff.mp given).bind
          fun codes bounded => Ends.pure ?_
        have range := UnaryFunction.range_of_ofNode chosen
        exact @Value.Sound.codes_ordered _ soundOutput _ found _ ordered output.element codes
          (by rw [range]; exact bounded)
    | sigmoid => exact (Ends.somehow _).bind fun _ _ => Ends.pure trivial
    | tanh => exact (Ends.somehow _).bind fun _ _ => Ends.pure trivial
    | leakyRelu slope => exact (Ends.somehow _).bind fun _ _ => Ends.pure trivial
    | abs => exact Ends.ofOutcome trivial
    | negate => exact Ends.ofOutcome trivial
  have codes : (Mapping.scaledBody context compute function).Ends MappingBody.Sound
      (fun _ => True) := by
    refine (Ends.somehow _).bind fun input _ => (Ends.known readOutput).bind ?_
    rintro _ rfl
    split
    · exact confined _ _ (by assumption)
    · exact Ends.ofOutcome trivial
  cases compute
  case fp32 => exact Ends.pure trivial
  case fp16 => exact Ends.pure trivial
  case qs8 => rw [makeBody_qs8]; exact codes
  case qu8 => rw [makeBody_qu8]; exact codes
  all_goals exact Ends.ofOutcome trivial

/-- A conversion from codes has the parameters of its input. -/
theorem Conversion.makeBody_sound
    (listed : (input.element, output.element, compute) ∈ ComputeType.conversions)
    (soundInput : input.Sound) {body : ConversionBody}
    (made : Conversion.makeBody compute input output = .ok body) :
    body.Sound ∧ body.operandWidth = compute.operandWidth := by
  have scaled : ∀ {scale}, Conversion.scaleOf input "input" = .ok scale →
      scale.validate input.element = .ok () := by
    intro scale found
    unfold Conversion.scaleOf at found
    split at found
    · rename_i quantized
      cases found
      exact soundInput.valid scale quantized
    · cases found
  simp only [ComputeType.conversions, List.mem_cons, Prod.mk.injEq, List.not_mem_nil,
    or_false] at listed
  rcases listed with ⟨_, _, rfl⟩ | ⟨_, _, rfl⟩ | ⟨_, _, rfl⟩ | ⟨_, _, rfl⟩ |
    ⟨source, _, rfl⟩ | ⟨source, _, rfl⟩ <;>
    simp only [Conversion.makeBody, map_eq_ok_iff, Except.ok.injEq] at made
  · rw [← made]
    exact ⟨trivial, rfl⟩
  · rw [← made]
    exact ⟨trivial, rfl⟩
  · obtain ⟨scale, _, rfl⟩ := made
    exact ⟨trivial, rfl⟩
  · obtain ⟨scale, _, rfl⟩ := made
    exact ⟨trivial, rfl⟩
  · obtain ⟨scale, found, rfl⟩ := made
    have valid := scaled found
    rw [source] at valid
    exact ⟨valid, rfl⟩
  · obtain ⟨scale, found, rfl⟩ := made
    have valid := scaled found
    rw [source] at valid
    exact ⟨valid, rfl⟩

/-- Every value that is read from a context of an admitted node is sound, and it has the storage
type of the output unless the node converts or multiplies. -/
theorem CreateContext.Admits.reads {operands : List Value}
    (admits : context.Admits operands output) (notConvert : context.node.kind ≠ .convert)
    (notProduct : context.node.kind ≠ .fullyConnected) {index : Nat} {value : Value}
    (read : context.input index = .ok value) :
    value.Sound ∧ value.element = output.element := by
  obtain ⟨id, listed, found⟩ := CreateContext.input_eq_ok_iff.mp read
  obtain ⟨operand, among, foundOperand⟩ := getElem?_of_forall₂ admits.node.found listed
  cases found.symm.trans foundOperand
  have among := List.mem_of_getElem? among
  exact ⟨admits.soundOperands _ among, admits.node.element_eq notConvert notProduct _ among⟩

section SameElement

variable (reads : ∀ index value, context.input index = .ok value →
    value.Sound ∧ value.element = output.element)
  (soundOutput : output.Sound) (ordered : context.node.params.IsOrdered)
  (computed : ComputeType.ofElement? output.element = some compute)

include reads soundOutput ordered computed

theorem Combination.makeBody_sound (readOutput : context.output = .ok output)
    {body : CombinationBody} (made : Combination.makeBody context compute = .ok body) :
    body.Sound := by
  have codes : ∀ signed, output.element = Conversion.codeElement signed →
      Combination.codeBody context signed = .ok body → body.Sound := by
    intro signed element made
    unfold Combination.codeBody at made
    obtain ⟨left, readLeft, made⟩ := bind_eq_ok_iff.mp made
    obtain ⟨right, readRight, made⟩ := bind_eq_ok_iff.mp made
    obtain ⟨result, readResult, made⟩ := bind_eq_ok_iff.mp made
    cases readOutput.symm.trans readResult
    obtain ⟨soundLeft, sameLeft⟩ := reads 0 left readLeft
    obtain ⟨soundRight, sameRight⟩ := reads 1 right readRight
    split at made
    · rename_i foundLeft foundRight found
      obtain ⟨codes, bounded, made⟩ := bind_eq_ok_iff.mp made
      cases made
      have valid := soundLeft.valid _ foundLeft
      have validRight := soundRight.valid _ foundRight
      rw [sameLeft, element] at valid
      rw [sameRight, element] at validRight
      exact ⟨valid, validRight,
        soundOutput.codes_ordered found ordered (lift_eq_ok_iff.mp bounded)⟩
    · cases made
  rcases OpKind.ofElement?_eq_some_iff.mp computed with
    ⟨_, rfl⟩ | ⟨_, rfl⟩ | ⟨element, rfl⟩ | ⟨element, rfl⟩
  · cases made
    exact trivial
  · cases made
    exact trivial
  · exact codes true element made
  · exact codes false element made

theorem Pooling.makeBody_sound (read : context.input 0 = .ok input) {body : PoolingBody}
    (made : Pooling.makeBody compute input output context.node.params.range.1
      context.node.params.range.2 = .ok body) : body.Sound := by
  obtain ⟨soundInput, same⟩ := reads 0 input read
  have codes : ∀ signed, output.element = Conversion.codeElement signed →
      Pooling.codeBody signed input output context.node.params.range.1
        context.node.params.range.2 = .ok body → body.Sound := by
    intro signed element made
    unfold Pooling.codeBody at made
    split at made
    · rename_i foundInput found
      obtain ⟨codes, bounded, made⟩ := bind_eq_ok_iff.mp made
      cases made
      have valid := soundInput.valid _ foundInput
      rw [same, element] at valid
      exact ⟨valid, soundOutput.codes_ordered found ordered (lift_eq_ok_iff.mp bounded)⟩
    · cases made
  rcases OpKind.ofElement?_eq_some_iff.mp computed with
    ⟨_, rfl⟩ | ⟨_, rfl⟩ | ⟨element, rfl⟩ | ⟨element, rfl⟩
  · cases made
    exact trivial
  · cases made
    exact trivial
  · exact codes true element made
  · exact codes false element made

end SameElement

theorem Product.makeBody_sound {filter : Value} (soundOutput : output.Sound)
    (ordered : context.node.params.IsOrdered) {body : ProductBody} {zeroPoint : Int32}
    (made : Product.makeBody compute input filter output context.node.params.range.1
      context.node.params.range.2 = .ok (some body, zeroPoint)) : body.Sound := by
  cases compute <;> simp only [Product.makeBody, Except.ok.injEq, Prod.mk.injEq, Option.some.injEq,
    reduceCtorEq, false_and] at made
  case fp32 => rw [← made.1]; exact trivial
  case fp16 => rw [← made.1]; exact trivial
  case qs8 =>
    obtain ⟨⟨coded, zero⟩, codes, same⟩ := bind_eq_ok_iff.mp made
    cases same
    unfold Product.codeBody at codes
    split at codes
    · rename_i found
      obtain ⟨bounds, bounded, codes⟩ := bind_eq_ok_iff.mp codes
      cases codes
      exact soundOutput.codes_ordered found ordered (lift_eq_ok_iff.mp bounded)
    · cases codes

/-! ## Factories -/

variable {operands : List Value}

/-- An operator with a sound body that reads operands of the storage type of its node. -/
structure StandardOperator.SoundFor (operator : StandardOperator) (compute : ComputeType) :
    Prop where
  body : operator.SoundBody
  width_eq : operator.operandWidth = compute.operandWidth

section Families

variable (admits : context.Admits operands output)

include admits

theorem Conversion.factory_sound (convert : context.node.kind = .convert) :
    ((Conversion.factory context.node.compute).create context).Ends
      (fun conversion => (StandardOperator.conversion conversion).SoundFor context.node.compute)
      (fun _ => True) := by
  obtain ⟨input, rest, rfl⟩ := admits.node.exists_operand
  have checked := admits.node.elements
  rw [convert] at checked
  have listed := OpKind.mem_conversions (OpKind.checkConversion_eq_ok_iff.mp checked)
  have soundInput := admits.soundOperands input List.mem_cons_self
  apply (Ends.known (admits.input_eq rfl)).bind
  rintro _ rfl
  apply (Ends.known admits.output_eq).bind
  rintro _ rfl
  refine (Ends.of_outcome_ok fun body made => made).bind fun body made => Ends.pure ?_
  obtain ⟨sound, width⟩ := Conversion.makeBody_sound listed soundInput made
  exact ⟨sound, width⟩

variable (notConvert : context.node.kind ≠ .convert)

include notConvert

/-- The compute type of a node that converts nothing is that of its output. -/
theorem CreateContext.Admits.computed :
    ComputeType.ofElement? output.element = some context.node.compute ∧
      context.node.compute.resultWidth = context.node.compute.operandWidth := by
  obtain ⟨_, computed⟩ := admits.node.computed notConvert
  obtain ⟨reads, writes⟩ := ComputeType.operandWidth_eq computed
  exact ⟨computed, writes.trans reads.symm⟩

theorem Mapping.factory_sound (lanes : Nat) :
    ((Mapping.factory context.node.compute lanes).create context).Ends
      (fun mapping => (StandardOperator.mapping mapping).SoundFor context.node.compute)
      (fun _ => True) := by
  obtain ⟨_, width⟩ := admits.computed notConvert
  refine (Ends.of_outcome_ok fun _ chosen => chosen).bind fun function chosen => ?_
  have sound := @Mapping.makeBody_sound context context.node.compute output function
    admits.output_eq admits.soundOutput (OpKind.isOrdered_of_checkParams admits.node.params) chosen
  exact (sound.and Mapping.makeBody_width).bind fun body made =>
    Ends.pure ⟨made.1, made.2.trans width⟩

theorem Product.factory_sound :
    ((Product.factory context.node.compute).create context).Ends
      (fun product => (StandardOperator.product product).SoundFor context.node.compute)
      (fun _ => True) := by
  obtain ⟨_, width⟩ := admits.computed notConvert
  have ordered := OpKind.isOrdered_of_checkParams admits.node.params
  refine Product.factory_ends fun made => ?_
  cases admits.output_eq.symm.trans made.foundOutput
  exact ⟨Product.makeBody_sound admits.soundOutput ordered made.body,
    (Product.makeBody_width made.body).trans width⟩

variable (notProduct : context.node.kind ≠ .fullyConnected)

include notProduct

theorem Combination.factory_sound (lanes : Nat) :
    ((Combination.factory context.node.compute lanes).create context).Ends
      (fun combination => (StandardOperator.combination combination).SoundFor
        context.node.compute) (fun _ => True) := by
  obtain ⟨computed, width⟩ := admits.computed notConvert
  have ordered := OpKind.isOrdered_of_checkParams admits.node.params
  refine (Ends.somehow _).bind fun function _ => ?_
  refine (Ends.of_outcome_ok fun body made => made).bind fun body made => ?_
  have sound := Combination.makeBody_sound
    (fun _ _ read => admits.reads notConvert notProduct read) admits.soundOutput ordered computed
    admits.output_eq made
  exact Ends.pure ⟨sound, (Combination.makeBody_width made).trans width⟩

theorem Pooling.factory_sound :
    ((Pooling.factory context.node.compute).create context).Ends
      (fun pooling => (StandardOperator.pooling pooling).SoundFor context.node.compute)
      (fun _ => True) := by
  obtain ⟨computed, width⟩ := admits.computed notConvert
  have ordered := OpKind.isOrdered_of_checkParams admits.node.params
  refine (Ends.of_outcome_ok fun input read => read).bind fun input read => ?_
  apply (Ends.known admits.output_eq).bind
  rintro _ rfl
  refine (Ends.of_outcome_ok fun body made => made).bind fun body made => ?_
  have sound := Pooling.makeBody_sound
    (fun _ _ read => admits.reads notConvert notProduct read) admits.soundOutput ordered computed
    read made
  exact (Ends.somehow _).bind fun channels _ =>
    Ends.pure ⟨sound, (Pooling.makeBody_width made).trans width⟩

end Families

/-- Every factory that the library offers for an admitted node makes operators with a sound body
for it, if any. -/
theorem Catalog.Offers.sound {factory : Factory StandardOperator}
    (offers : Catalog.Offers context.node.key factory) (admits : context.Admits operands output) :
    (factory.create context).Ends (fun operator => operator.SoundFor context.node.compute)
      (fun _ => True) := by
  have embedded : ∀ {Made : Type} {embed : Made → StandardOperator} {made : Making Made},
      made.Ends (fun result => (embed result).SoundFor context.node.compute) (fun _ => True) →
      (embed <$> made).Ends (fun operator => operator.SoundFor context.node.compute)
        (fun _ => True) :=
    fun ends => ends.map fun _ holds => holds
  cases offers.family with
  | conversion convert => exact embedded (Conversion.factory_sound admits convert)
  | pooling pool =>
      have kind : context.node.kind = .globalAveragePooling2d := pool
      exact embedded (Pooling.factory_sound admits (by rw [kind]; decide) (by rw [kind]; decide))
  | product multiply =>
      have kind : context.node.kind = .fullyConnected := multiply
      exact embedded (Product.factory_sound admits (by rw [kind]; decide))
  | combination binary lanes =>
      obtain ⟨notConvert, notProduct⟩ := OpKind.ne_of_isBinary binary
      exact embedded (Combination.factory_sound admits notConvert notProduct lanes)
  | mapping _ notConvert lanes => exact embedded (Mapping.factory_sound admits notConvert lanes)

end Bodies

end TensorEngine
