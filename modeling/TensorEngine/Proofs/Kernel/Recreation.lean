import TensorEngine.Proofs.Execution.Reshape
import TensorEngine.Proofs.Kernel.Creation

/-!
Contract: factories make the same operator again when values have got other shapes.

Owns:
- `CreateContext.withValues`, a context with another table of values;
- `StandardOperator.Remade`, an operator that is made again: its weights may be stamped with
  another number, and a pooling may have other channels;
- the theorem for each factory that it makes its operator again.

Does not own: what becomes of other channels at the set-up of a pooling.
-/

namespace TensorEngine

open Making

/-- An operator that is made again for a node whose operands have got other shapes. -/
inductive StandardOperator.Remade : StandardOperator → StandardOperator → Prop where
  | unstamped {operator repeated : StandardOperator}
      (same : repeated.unstamped = operator.unstamped) : Remade operator repeated
  | channels (pooling : Pooling) (channels : Nat) :
      Remade (.pooling pooling) (.pooling { pooling with channels := channels })

def CreateContext.withValues (context : CreateContext) (values : List Value) : CreateContext :=
  { context with values := values }

section Recreation

variable {context : CreateContext} {news : List Value}

/-- What reads no operand is done again. -/
theorem Making.Repeats.same {α : Type} (outcome : Outcome α) :
    Repeats (liftM outcome) (liftM outcome) (fun result repeated => repeated = result) :=
  Repeats.ofOutcome fun result given => ⟨result, given, rfl⟩

theorem CreateContext.input_repeats (table : ReshapedTable context.values news) {index : Nat}
    {value : Value} (found : context.input index = .ok value) :
    ∃ again, (context.withValues news).input index = .ok again ∧ value.Reshaped again := by
  obtain ⟨id, read, foundOld⟩ := input_eq_ok_iff.mp found
  obtain ⟨again, foundNew, reshaped⟩ := table.exists_new foundOld
  exact ⟨again, input_eq_ok_iff.mpr ⟨id, read, foundNew⟩, reshaped⟩

theorem CreateContext.output_repeats (table : ReshapedTable context.values news) {value : Value}
    (found : context.output = .ok value) :
    ∃ again, (context.withValues news).output = .ok again ∧ value.Reshaped again := by
  obtain ⟨id, written, foundOld⟩ := output_eq_ok_iff.mp found
  obtain ⟨again, foundNew, reshaped⟩ := table.exists_new foundOld
  exact ⟨again, output_eq_ok_iff.mpr ⟨id, written, foundNew⟩, reshaped⟩

theorem Value.Reshaped.quantization_eq {old new : Value} (reshaped : old.Reshaped new) :
    new.quantization = old.quantization := by
  have same := congrArg Value.quantization reshaped.same
  exact same

theorem Value.Reshaped.element_eq {old new : Value} (reshaped : old.Reshaped new) :
    new.element = old.element := by
  have same := congrArg Value.element reshaped.same
  exact same

theorem Value.Reshaped.eq_of_isStatic {old new : Value} (reshaped : old.Reshaped new)
    (static : old.isStatic = true) : new = old := by
  have same := congrArg (fun value : Value => { value with shape := new.shape }) reshaped.same
  change new = { old with shape := new.shape } at same
  rw [same, reshaped.fixed (.inl static)]

theorem Mapping.codeBody_repeats {compute : ComputeType} {function : UnaryFunction}
    {element : ElementType} {input output : Quantization} :
    Repeats (Mapping.codeBody context compute function element input output)
      (Mapping.codeBody (context.withValues news) compute function element input output)
      (fun body repeated => repeated = body) := by
  have tabulated : ∀ (key : TableKey) (fill : Unit → Outcome LookupTable),
      Repeats (do return .lookUp (← Workshop.table key fill) : Making MappingBody)
        (do return .lookUp (← Workshop.table key fill)) (fun body repeated => repeated = body) := by
    intro key fill
    apply (Repeats.table key fill).bind
    intro table again same
    rw [same]
    exact Repeats.pure rfl
  unfold Mapping.codeBody
  cases function with
  | copy => exact Repeats.pure rfl
  | clamp low high =>
      apply (Repeats.same _).bind
      intro codes again same
      rw [same]
      exact Repeats.pure rfl
  | sigmoid => exact tabulated _ _
  | tanh => exact tabulated _ _
  | leakyRelu slope => exact tabulated _ _
  | abs => exact Repeats.same _
  | negate => exact Repeats.same _

theorem Mapping.makeBody_repeats (table : ReshapedTable context.values news)
    {compute : ComputeType} {function : UnaryFunction} :
    Repeats (Mapping.makeBody context compute function)
      (Mapping.makeBody (context.withValues news) compute function)
      (fun body repeated => repeated = body) := by
  have codes : Repeats (Mapping.scaledBody context compute function)
      (Mapping.scaledBody (context.withValues news) compute function)
      (fun body repeated => repeated = body) := by
    refine (Repeats.ofOutcome fun _ => CreateContext.input_repeats table).bind
      fun input inputAgain sameInput => ?_
    refine (Repeats.ofOutcome fun _ => CreateContext.output_repeats table).bind
      fun output outputAgain sameOutput => ?_
    rw [sameInput.quantization_eq, sameOutput.quantization_eq, sameOutput.element_eq]
    split
    · exact Mapping.codeBody_repeats
    · exact Repeats.same _
  cases compute
  case fp32 => exact Repeats.pure rfl
  case fp16 => exact Repeats.pure rfl
  case qs8 => rw [makeBody_qs8, makeBody_qs8]; exact codes
  case qu8 => rw [makeBody_qu8, makeBody_qu8]; exact codes
  all_goals exact Repeats.same _

theorem Mapping.factory_repeats (table : ReshapedTable context.values news)
    (compute : ComputeType) (lanes : Nat) :
    Repeats ((Mapping.factory compute lanes).create context)
      ((Mapping.factory compute lanes).create (context.withValues news))
      (fun mapping repeated => repeated = mapping) := by
  apply (Repeats.same _).bind
  intro function again same
  rw [same]
  apply (Mapping.makeBody_repeats table).bind
  intro body bodyAgain sameBody
  rw [sameBody]
  exact Repeats.pure rfl

theorem Conversion.makeBody_reshaped {compute : ComputeType} {input output inputAgain
    outputAgain : Value} (sameInput : input.Reshaped inputAgain)
    (sameOutput : output.Reshaped outputAgain) :
    Conversion.makeBody compute inputAgain outputAgain =
      Conversion.makeBody compute input output := by
  unfold Conversion.makeBody Conversion.scaleOf
  rw [sameInput.quantization_eq, sameOutput.quantization_eq]

theorem Conversion.factory_repeats (table : ReshapedTable context.values news)
    (compute : ComputeType) :
    Repeats ((Conversion.factory compute).create context)
      ((Conversion.factory compute).create (context.withValues news))
      (fun conversion repeated => repeated = conversion) := by
  refine (Repeats.ofOutcome fun _ => CreateContext.input_repeats table).bind
    fun input inputAgain sameInput => ?_
  refine (Repeats.ofOutcome fun _ => CreateContext.output_repeats table).bind
    fun output outputAgain sameOutput => ?_
  rw [Conversion.makeBody_reshaped sameInput sameOutput]
  apply (Repeats.same _).bind
  intro body again same
  rw [same]
  exact Repeats.pure rfl

theorem Combination.codeBody_repeats (table : ReshapedTable context.values news) {signed : Bool}
    {body : CombinationBody} (made : Combination.codeBody context signed = .ok body) :
    Combination.codeBody (context.withValues news) signed = .ok body := by
  unfold Combination.codeBody at made ⊢
  obtain ⟨left, foundLeft, made⟩ := bind_eq_ok_iff.mp made
  obtain ⟨right, foundRight, made⟩ := bind_eq_ok_iff.mp made
  obtain ⟨output, foundOutput, made⟩ := bind_eq_ok_iff.mp made
  obtain ⟨leftAgain, foundLeftAgain, sameLeft⟩ := CreateContext.input_repeats table foundLeft
  obtain ⟨rightAgain, foundRightAgain, sameRight⟩ := CreateContext.input_repeats table foundRight
  obtain ⟨outputAgain, foundOutputAgain, sameOutput⟩ :=
    CreateContext.output_repeats table foundOutput
  refine bind_eq_ok_iff.mpr ⟨leftAgain, foundLeftAgain, bind_eq_ok_iff.mpr ⟨rightAgain,
    foundRightAgain, bind_eq_ok_iff.mpr ⟨outputAgain, foundOutputAgain, ?_⟩⟩⟩
  rw [sameLeft.quantization_eq, sameRight.quantization_eq, sameOutput.quantization_eq,
    sameOutput.element_eq]
  exact made

theorem Combination.makeBody_repeats (table : ReshapedTable context.values news)
    {compute : ComputeType} {body : CombinationBody}
    (made : Combination.makeBody context compute = .ok body) :
    Combination.makeBody (context.withValues news) compute = .ok body := by
  unfold Combination.makeBody at made ⊢
  cases compute
  case qs8 => exact Combination.codeBody_repeats table made
  case qu8 => exact Combination.codeBody_repeats table made
  all_goals exact made

theorem Combination.factory_repeats (table : ReshapedTable context.values news)
    (compute : ComputeType) (lanes : Nat) :
    Repeats ((Combination.factory compute lanes).create context)
      ((Combination.factory compute lanes).create (context.withValues news))
      (fun combination repeated => repeated = combination) := by
  apply (Repeats.same _).bind
  intro function again same
  rw [same]
  refine (Repeats.ofOutcome fun body made =>
    ⟨body, Combination.makeBody_repeats table made, rfl⟩).bind fun body bodyAgain sameBody => ?_
  rw [← sameBody]
  exact Repeats.pure rfl

theorem Pooling.makeBody_reshaped {compute : ComputeType} {input output inputAgain
    outputAgain : Value} {low high : Float32} (sameInput : input.Reshaped inputAgain)
    (sameOutput : output.Reshaped outputAgain) :
    Pooling.makeBody compute inputAgain outputAgain low high =
      Pooling.makeBody compute input output low high := by
  unfold Pooling.makeBody Pooling.codeBody
  rw [sameInput.quantization_eq, sameOutput.quantization_eq, sameOutput.element_eq]

theorem Pooling.imageChannels_of_rank {shape other : Shape} (rank : other.length = shape.length)
    {channels : Nat} (given : Pooling.imageChannels shape = .ok channels) :
    ∃ others, Pooling.imageChannels other = .ok others := by
  unfold Pooling.imageChannels at given
  split at given
  · obtain ⟨images, height, width, others, rfl⟩ := List.length_eq_four.mp rank
    exact ⟨others, rfl⟩
  · cases given

theorem Pooling.factory_repeats (table : ReshapedTable context.values news)
    (compute : ComputeType) :
    Repeats ((Pooling.factory compute).create context)
      ((Pooling.factory compute).create (context.withValues news))
      (fun pooling repeated => ∃ channels, repeated = { pooling with channels := channels }) := by
  refine (Repeats.ofOutcome fun _ => CreateContext.input_repeats table).bind
    fun input inputAgain sameInput => ?_
  refine (Repeats.ofOutcome fun _ => CreateContext.output_repeats table).bind
    fun output outputAgain sameOutput => ?_
  dsimp only
  rw [Pooling.makeBody_reshaped sameInput sameOutput]
  apply (Repeats.same _).bind
  intro body again same
  rw [same]
  refine @Repeats.bind _ _ _ _ (fun _ _ => True) _ _ _
    (Repeats.ofOutcome fun channels given => ?_) fun channels channelsAgain _ => ?_
  · obtain ⟨others, givenAgain⟩ := Pooling.imageChannels_of_rank sameInput.rank given
    exact ⟨others, givenAgain, trivial⟩
  · exact Repeats.pure ⟨channelsAgain, rfl⟩

theorem Product.makeBody_reshaped {compute : ComputeType} {input filter output inputAgain
    outputAgain : Value} {low high : Float32} (sameInput : input.Reshaped inputAgain)
    (sameOutput : output.Reshaped outputAgain) :
    Product.makeBody compute inputAgain filter outputAgain low high =
      Product.makeBody compute input filter output low high := by
  unfold Product.makeBody Product.codeBody
  rw [sameInput.quantization_eq, sameOutput.quantization_eq]

def CreateContext.HasStaticWeights (context : CreateContext) : Prop :=
  ∀ (index : Nat) (value : Value), 0 < index → context.input index = .ok value →
    value.isStatic = true

theorem CreateContext.weights_repeat (table : ReshapedTable context.values news)
    (static : context.HasStaticWeights) {index : Nat} (weight : 0 < index) {value : Value}
    (found : context.input index = .ok value) :
    (context.withValues news).input index = .ok value := by
  obtain ⟨again, foundAgain, reshaped⟩ := input_repeats table found
  rw [reshaped.eq_of_isStatic (static index value weight found)] at foundAgain
  exact foundAgain

theorem Product.factory_repeats (table : ReshapedTable context.values news)
    (static : context.HasStaticWeights) (compute : ComputeType) :
    Repeats ((Product.factory compute).create context)
      ((Product.factory compute).create (context.withValues news))
      (fun product repeated => (StandardOperator.product repeated).unstamped =
        (StandardOperator.product product).unstamped) := by
  refine (Repeats.ofOutcome fun _ => CreateContext.input_repeats table).bind
    fun input inputAgain sameInput => ?_
  refine (Repeats.ofOutcome fun filter found =>
    ⟨filter, CreateContext.weights_repeat table static Nat.one_pos found, rfl⟩).bind
    fun filter filterAgain sameFilter => ?_
  rw [← sameFilter]
  extract_lets flags withBias flagsAgain withBiasAgain
  have rest : ∀ bias : Option Value, Repeats (withBias bias) (withBiasAgain bias)
      (fun product repeated => (StandardOperator.product repeated).unstamped =
        (StandardOperator.product product).unstamped) := by
    intro bias
    refine (Repeats.ofOutcome fun _ => CreateContext.output_repeats table).bind
      fun output outputAgain sameOutput => ?_
    dsimp only
    rw [Product.makeBody_reshaped sameInput sameOutput]
    apply (Repeats.same _).bind
    intro made again same
    rw [same]
    apply (Repeats.packed _ _).bind
    intro artifact artifactAgain sameWeights
    obtain ⟨body, zeroPoint⟩ := made
    cases body with
    | none => exact fun _ _ _ failed => (nomatch failed)
    | some body =>
        apply Repeats.pure
        unfold StandardOperator.unstamped
        dsimp only
        rw [sameWeights]
        rfl
  show Repeats (if 2 < context.node.inputs.length then _ else _)
    (if 2 < context.node.inputs.length then _ else _) _
  split
  · have biases : Repeats (some <$> liftM (context.input 2) : Making (Option Value))
        (some <$> liftM ((context.withValues news).input 2)) (fun bias again => again = bias) := by
      refine @Repeats.map _ _ _ _ (fun bias again => again = bias) _ _ _ ?_ ?_
      · exact Repeats.ofOutcome fun bias found =>
          ⟨bias, CreateContext.weights_repeat table static Nat.two_pos found, rfl⟩
      · exact fun bias again same => congrArg some same
    apply biases.bind
    intro bias again same
    rw [same]
    exact rest bias
  · exact rest none

/-- Every factory that the library offers for a node makes its operator again. -/
theorem Catalog.Offers.repeats {factory : Factory StandardOperator}
    (offers : Catalog.Offers context.node.key factory)
    (table : ReshapedTable context.values news)
    (static : context.node.kind = .fullyConnected → context.HasStaticWeights) :
    Repeats (factory.create context) (factory.create (context.withValues news))
      StandardOperator.Remade := by
  have embedded : ∀ {Made : Type} {embed : Made → StandardOperator} {first second : Making Made},
      Repeats first second (fun made repeated => repeated = made) →
      Repeats (embed <$> first) (embed <$> second) StandardOperator.Remade := by
    intro Made embed first second same
    apply same.map
    intro made repeated same
    rw [same]
    exact .unstamped rfl
  cases offers.family with
  | conversion _ => exact embedded (Conversion.factory_repeats table _)
  | pooling _ =>
      apply (Pooling.factory_repeats table _).map
      intro pooling repeated same
      obtain ⟨channels, rfl⟩ := same
      exact .channels pooling channels
  | product multiply =>
      exact (Product.factory_repeats table (static multiply) _).map
        fun product repeated same => .unstamped same
  | combination _ lanes => exact embedded (Combination.factory_repeats table _ lanes)
  | mapping _ _ lanes => exact embedded (Mapping.factory_repeats table _ lanes)

end Recreation

end TensorEngine
