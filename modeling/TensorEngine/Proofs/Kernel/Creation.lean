import TensorEngine.Proofs.Cache.Keeping
import TensorEngine.Proofs.Catalog.Standard
import TensorEngine.Proofs.Kernel.Contents

/-!
Contract: what the factories of the library make for a node.

Owns:
- `StandardOperator.MadeFor`, an operator that no set-up has changed yet, of the kind and the
  datatype of its node;
- `Product.MadeOf`, a product made from the operands of its node, and what the factory of products
  keeps of the caches;
- the theorem that every factory that a catalog offers makes only such operators.

Does not own: whether a factory makes an operator at all.
-/

namespace TensorEngine

open Making

/-- Bytes of an element of the output of a compute type. -/
def ComputeType.resultWidth : ComputeType → Nat
  | fp32 | fp16ToFp32 | qs8ToFp32 | qu8ToFp32 => 4
  | fp16 | fp32ToFp16 => 2
  | qs8 | qu8 | fp32ToQs8 | fp32ToQu8 => 1

/-- An operator as a factory makes it for a node: nothing is set up, and the channels of a pooling
are those of its input. -/
structure StandardOperator.MadeFor (operator : StandardOperator) (node : Node)
    (values : List Value) : Prop where
  kind_eq : operator.kind = node.kind
  width_eq : operator.elementWidth = node.compute.resultWidth
  blank_eq : operator.blank = operator
  channels_eq : ∀ pooling, operator = .pooling pooling → ∃ (id : Nat) (input : Value),
    node.inputs[0]? = some id ∧ values[id]? = some input ∧
      Pooling.imageChannels input.shape = .ok pooling.channels

/-! ## Look-ups in a context -/

def Node.operand? (node : Node) (values : List Value) (index : Nat) : Option Value :=
  node.inputs[index]?.bind fun id => values[id]?

def Node.result? (node : Node) (values : List Value) : Option Value :=
  node.outputs.head?.bind fun id => values[id]?

namespace CreateContext

variable {context : CreateContext} {value : Value}

theorem value_eq_ok_iff {id : Nat} :
    context.value id = .ok value ↔ context.values[id]? = some value := by
  unfold CreateContext.value
  cases context.values[id]? <;> simp [Outcome.invalidParameter]

theorem input_eq_ok_iff {index : Nat} :
    context.input index = .ok value ↔
      ∃ id : Nat, context.node.inputs[index]? = some id ∧ context.values[id]? = some value := by
  unfold CreateContext.input
  cases context.node.inputs[index]? with
  | none => simp [Outcome.invalidParameter]
  | some id => simp [value_eq_ok_iff]

theorem input_eq_operand? {index : Nat} :
    context.input index = .ok value ↔
      context.node.operand? context.values index = some value := by
  unfold Node.operand?
  rw [input_eq_ok_iff, Option.bind_eq_some_iff]

theorem output_eq_ok_iff :
    context.output = .ok value ↔
      ∃ id : Nat, context.node.outputs.head? = some id ∧ context.values[id]? = some value := by
  unfold CreateContext.output
  cases context.node.outputs.head? with
  | none => simp [Outcome.invalidParameter]
  | some id => simp [value_eq_ok_iff]

theorem output_eq_result? :
    context.output = .ok value ↔ context.node.result? context.values = some value := by
  unfold Node.result?
  rw [output_eq_ok_iff, Option.bind_eq_some_iff]

end CreateContext

/-! ## Factories -/

theorem Mapping.codeBody_width {context : CreateContext} {compute : ComputeType}
    {function : UnaryFunction} {element : ElementType} {input output : Quantization} :
    (Mapping.codeBody context compute function element input output).Ends
      (fun body => body.width = 1) (fun _ => True) := by
  unfold Mapping.codeBody
  cases function with
  | copy => exact Ends.pure rfl
  | clamp low high =>
      apply (Ends.somehow _).bind
      intro codes _
      exact Ends.pure rfl
  | sigmoid => exact (Ends.somehow _).bind fun table _ => Ends.pure rfl
  | tanh => exact (Ends.somehow _).bind fun table _ => Ends.pure rfl
  | leakyRelu slope => exact (Ends.somehow _).bind fun table _ => Ends.pure rfl
  | abs => exact Ends.ofOutcome trivial
  | negate => exact Ends.ofOutcome trivial

def Mapping.scaledBody (context : CreateContext) (compute : ComputeType)
    (function : UnaryFunction) : Making MappingBody := do
  let input ← context.input 0
  let output ← context.output
  match input.quantization, output.quantization with
  | some inputScale, some outputScale =>
      Mapping.codeBody context compute function output.element inputScale outputScale
  | _, _ => Making.ofOutcome (Outcome.invalidParameter (.operandsUnquantized context.node.kind))

theorem Mapping.makeBody_qs8 (context : CreateContext) (function : UnaryFunction) :
    Mapping.makeBody context .qs8 function = Mapping.scaledBody context .qs8 function := rfl

theorem Mapping.makeBody_qu8 (context : CreateContext) (function : UnaryFunction) :
    Mapping.makeBody context .qu8 function = Mapping.scaledBody context .qu8 function := rfl

theorem Mapping.scaledBody_width {context : CreateContext} {compute : ComputeType}
    {function : UnaryFunction} :
    (Mapping.scaledBody context compute function).Ends (fun body => body.width = 1)
      (fun _ => True) := by
  unfold Mapping.scaledBody
  apply (Ends.somehow _).bind
  intro input _
  apply (Ends.somehow _).bind
  intro output _
  split
  · exact Mapping.codeBody_width
  · exact Ends.ofOutcome trivial

theorem Mapping.makeBody_width {context : CreateContext} {compute : ComputeType}
    {function : UnaryFunction} :
    (Mapping.makeBody context compute function).Ends
      (fun body => body.width = compute.resultWidth) (fun _ => True) := by
  cases compute
  case fp32 => exact Ends.pure rfl
  case fp16 => exact Ends.pure rfl
  case qs8 => rw [makeBody_qs8]; exact Mapping.scaledBody_width
  case qu8 => rw [makeBody_qu8]; exact Mapping.scaledBody_width
  all_goals exact Ends.ofOutcome trivial

theorem Mapping.factory_makes (lanes : Nat) (context : CreateContext) :
    ((Mapping.factory context.node.compute lanes).create context).Ends
      (fun mapping => (StandardOperator.mapping mapping).MadeFor context.node context.values)
      (fun _ => True) := by
  apply (Ends.somehow _).bind
  intro function _
  apply Mapping.makeBody_width.bind
  intro body width
  exact Ends.pure ⟨rfl, width, rfl, fun _ different => (nomatch different)⟩

theorem Conversion.makeBody_width {compute : ComputeType} {input output : Value}
    {body : ConversionBody} (made : Conversion.makeBody compute input output = .ok body) :
    body.width = compute.resultWidth := by
  cases compute <;> simp only [Conversion.makeBody, map_eq_ok_iff, Except.ok.injEq] at made
  case fp32ToFp16 => rw [← made]; rfl
  case fp16ToFp32 => rw [← made]; rfl
  case fp32ToQs8 => obtain ⟨scale, _, rfl⟩ := made; rfl
  case fp32ToQu8 => obtain ⟨scale, _, rfl⟩ := made; rfl
  case qs8ToFp32 => obtain ⟨scale, _, rfl⟩ := made; rfl
  case qu8ToFp32 => obtain ⟨scale, _, rfl⟩ := made; rfl
  all_goals cases made

theorem Conversion.factory_makes {context : CreateContext}
    (convert : context.node.kind = .convert) :
    ((Conversion.factory context.node.compute).create context).Ends
      (fun conversion => (StandardOperator.conversion conversion).MadeFor context.node
        context.values) (fun _ => True) := by
  apply (Ends.somehow _).bind
  intro input _
  apply (Ends.somehow _).bind
  intro output _
  refine (Ends.of_outcome_ok fun body => Conversion.makeBody_width).bind fun body width => ?_
  exact Ends.pure ⟨convert.symm, width, rfl, fun _ different => (nomatch different)⟩

theorem Combination.codeBody_width {context : CreateContext} {signed : Bool}
    {body : CombinationBody} (made : Combination.codeBody context signed = .ok body) :
    body.width = 1 := by
  unfold Combination.codeBody at made
  obtain ⟨left, _, made⟩ := bind_eq_ok_iff.mp made
  obtain ⟨right, _, made⟩ := bind_eq_ok_iff.mp made
  obtain ⟨output, _, made⟩ := bind_eq_ok_iff.mp made
  split at made
  · obtain ⟨codes, _, made⟩ := bind_eq_ok_iff.mp made
    cases made
    rfl
  · cases made

theorem Combination.makeBody_width {context : CreateContext} {compute : ComputeType}
    {body : CombinationBody} (made : Combination.makeBody context compute = .ok body) :
    body.width = compute.resultWidth := by
  cases compute <;> simp only [Combination.makeBody, Except.ok.injEq] at made
  case fp32 => rw [← made]; rfl
  case fp16 => rw [← made]; rfl
  case qs8 => exact Combination.codeBody_width made
  case qu8 => exact Combination.codeBody_width made
  all_goals cases made

theorem Combination.factory_makes (lanes : Nat) (context : CreateContext) :
    ((Combination.factory context.node.compute lanes).create context).Ends
      (fun combination => (StandardOperator.combination combination).MadeFor context.node
        context.values) (fun _ => True) := by
  apply (Ends.somehow _).bind
  intro function _
  refine (Ends.of_outcome_ok fun body => Combination.makeBody_width).bind fun body width => ?_
  exact Ends.pure ⟨rfl, width, rfl, fun _ different => (nomatch different)⟩

theorem Pooling.codeBody_width {signed : Bool} {input output : Value} {low high : Float32}
    {body : PoolingBody} (made : Pooling.codeBody signed input output low high = .ok body) :
    body.width = 1 := by
  unfold Pooling.codeBody at made
  split at made
  · obtain ⟨codes, _, made⟩ := bind_eq_ok_iff.mp made
    cases made
    rfl
  · cases made

theorem Pooling.makeBody_width {compute : ComputeType} {input output : Value}
    {low high : Float32} {body : PoolingBody}
    (made : Pooling.makeBody compute input output low high = .ok body) :
    body.width = compute.resultWidth := by
  cases compute <;> simp only [Pooling.makeBody, Except.ok.injEq] at made
  case fp32 => rw [← made]; rfl
  case fp16 => rw [← made]; rfl
  case qs8 => exact Pooling.codeBody_width made
  case qu8 => exact Pooling.codeBody_width made
  all_goals cases made

theorem Pooling.factory_makes {context : CreateContext}
    (pool : context.node.kind = .globalAveragePooling2d) :
    ((Pooling.factory context.node.compute).create context).Ends
      (fun pooling => (StandardOperator.pooling pooling).MadeFor context.node context.values)
      (fun _ => True) := by
  refine (Ends.of_outcome_ok fun input => CreateContext.input_eq_ok_iff.mp).bind
    fun input found => ?_
  apply (Ends.somehow _).bind
  intro output _
  refine (Ends.of_outcome_ok fun body => Pooling.makeBody_width).bind fun body width => ?_
  refine (Ends.of_outcome_ok fun channels given => given).bind fun channels given => ?_
  refine Ends.pure ⟨pool.symm, width, rfl, ?_⟩
  intro pooling same
  cases same
  obtain ⟨id, read, foundInput⟩ := found
  exact ⟨id, input, read, foundInput, given⟩

theorem Product.makeBody_width {compute : ComputeType} {input filter output : Value}
    {low high : Float32} {body : ProductBody} {zeroPoint : Int32}
    (made : Product.makeBody compute input filter output low high = .ok (some body, zeroPoint)) :
    body.width = compute.resultWidth := by
  cases compute <;> simp only [Product.makeBody, Except.ok.injEq, Prod.mk.injEq, Option.some.injEq,
    reduceCtorEq, false_and] at made
  case fp32 => rw [← made.1]; rfl
  case fp16 => rw [← made.1]; rfl
  case qs8 =>
    obtain ⟨⟨coded, zero⟩, codes, same⟩ := bind_eq_ok_iff.mp made
    cases same
    unfold Product.codeBody at codes
    split at codes
    · obtain ⟨bounds, _, codes⟩ := bind_eq_ok_iff.mp codes
      cases codes
      rfl
    · cases codes

/-- A product as its factory makes it from these operands, its weights left open. -/
structure Product.MadeOf (product : Product) (context : CreateContext)
    (input filter output : Value) (zeroPoint : Int32) : Prop where
  found : context.node.operand? context.values 0 = some input
  foundFilter : context.node.operand? context.values 1 = some filter
  foundBias : 2 < context.node.inputs.length →
    (context.node.operand? context.values 2).isSome = true
  foundOutput : context.output = .ok output
  body : Product.makeBody context.node.compute input filter output context.node.params.range.1
    context.node.params.range.2 = .ok (some product.body, zeroPoint)
  tileElements_eq : product.tileElements = context.tileElements
  rows_eq : product.rows = 0

/-- What the packing of the weights of a node keeps and ensures, the factory of products does. -/
theorem Product.factory_keeps {context : CreateContext}
    {invariant : Option PackingCache → Option CodeCache → Prop}
    {ensured : Value → Int32 → PackedArtifact → Prop}
    (packs : ∀ filter zeroPoint, context.node.operand? context.values 1 = some filter →
      (Workshop.packed (Product.packingKey context.node.compute filter
          (context.node.operand? context.values 2) context.node.flags zeroPoint) fun _ =>
        PackedWeights.pack context.node.compute filter (context.node.operand? context.values 2)
          context.node.flags zeroPoint).Keeps invariant (ensured filter zeroPoint)) :
    ((Product.factory context.node.compute).create context).Keeps invariant
      (fun product => ∃ input filter output zeroPoint,
        product.MadeOf context input filter output zeroPoint ∧
          ensured filter zeroPoint product.artifact) := by
  refine (Keeps.ofOutcome fun input => CreateContext.input_eq_operand?.mp).bind
    fun input foundInput => ?_
  refine (Keeps.ofOutcome fun filter => CreateContext.input_eq_operand?.mp).bind
    fun filter foundFilter => ?_
  extract_lets flags withBias
  have rest : ∀ bias, context.node.operand? context.values 2 = bias →
      (2 < context.node.inputs.length → bias.isSome = true) →
      (withBias bias).Keeps invariant (fun product => ∃ input filter output zeroPoint,
        product.MadeOf context input filter output zeroPoint ∧
          ensured filter zeroPoint product.artifact) := by
    rintro _ rfl foundBias
    refine (Keeps.ofOutcome fun output found => found).bind fun output foundOutput => ?_
    refine (Keeps.ofOutcome fun made given => given).bind fun made given => ?_
    obtain ⟨body, zeroPoint⟩ := made
    refine (packs filter zeroPoint foundFilter).bind fun artifact packed => ?_
    cases body with
    | none => exact Keeps.ofOutcome fun product failed => (nomatch failed)
    | some body =>
        exact Keeps.pure ⟨input, filter, output, zeroPoint,
          ⟨foundInput, foundFilter, foundBias, foundOutput, given, rfl, rfl⟩, packed⟩
  split
  · have readBias : (some <$> (liftM (context.input 2) : Making Value)).Keeps invariant
        (fun bias => context.node.operand? context.values 2 = bias ∧ bias.isSome = true) :=
      (Keeps.ofOutcome fun bias => CreateContext.input_eq_operand?.mp).map
        fun _ found => ⟨found, rfl⟩
    exact readBias.bind fun bias found => rest bias found.1 fun _ => found.2
  · rename_i short
    refine (Keeps.pure rfl).bind fun bias same => rest bias ?_ fun long => absurd long short
    rw [← same]
    unfold Node.operand?
    rw [List.getElem?_eq_none (Nat.le_of_not_lt short)]
    rfl

/-- What holds of every product made from the operands of a node, the factory of products
ensures. -/
theorem Product.factory_ends {context : CreateContext} {post : Product → Prop}
    (holds : ∀ {product input filter output zeroPoint},
      product.MadeOf context input filter output zeroPoint → post product) :
    ((Product.factory context.node.compute).create context).Ends post (fun _ => True) := by
  refine Keeps.to_ends ((Product.factory_keeps fun _ _ _ => Keeps.packed_apart _ _).mono ?_)
  rintro product ⟨input, filter, output, zeroPoint, made, -⟩
  exact holds made

theorem Product.factory_makes {context : CreateContext}
    (multiply : context.node.kind = .fullyConnected) :
    ((Product.factory context.node.compute).create context).Ends
      (fun product => (StandardOperator.product product).MadeFor context.node context.values)
      (fun _ => True) := by
  refine Product.factory_ends fun {product} _ _ _ _ made => ?_
  have blank : { product with rows := 0 } = product := by rw [← made.rows_eq]
  exact ⟨multiply.symm, Product.makeBody_width made.body,
    congrArg StandardOperator.product blank, fun _ different => (nomatch different)⟩

/-- Every factory that the library offers for a node makes an operator for it, if any. -/
theorem Catalog.Offers.makes {context : CreateContext} {factory : Factory StandardOperator}
    (offers : Catalog.Offers context.node.key factory) :
    (factory.create context).Ends
      (fun operator => operator.MadeFor context.node context.values) (fun _ => True) := by
  have embedded : ∀ {Made : Type} {embed : Made → StandardOperator} {made : Making Made},
      made.Ends (fun result => (embed result).MadeFor context.node context.values)
        (fun _ => True) →
      (embed <$> made).Ends (fun operator => operator.MadeFor context.node context.values)
        (fun _ => True) :=
    fun ends => ends.map fun _ holds => holds
  cases offers.family with
  | conversion convert => exact embedded (Conversion.factory_makes convert)
  | pooling pool => exact embedded (Pooling.factory_makes pool)
  | product multiply => exact embedded (Product.factory_makes multiply)
  | combination _ lanes => exact embedded (Combination.factory_makes lanes context)
  | mapping _ _ lanes => exact embedded (Mapping.factory_makes lanes context)

end TensorEngine
