import TensorEngine.Proofs.Execution.Binding
import TensorEngine.Proofs.Execution.Dataflow
import TensorEngine.Proofs.Kernel.MappedElements
import TensorEngine.Proofs.Kernel.SoundCreation

/-!
Contract: compiled clamps and conversions map the functions of their nodes.

Owns:
- `Node.BoundsCodes`, the codes between which a node confines its results;
- `Node.Maps`, the function of one element that a clamp or a conversion declares;
- `StandardOperator.Maps`, the shapes that such an operator takes and the results of its runs, and
  the theorem that every clamp and every conversion of a compiled graph maps as its node declares.

Does not own: other functions of one element, and codes that are looked up.
-/

namespace TensorEngine

open Making TensorEngine.Numeric

/-! ## Functions of nodes -/

/-- A node confines its results between these codes: those of its range, by the parameters of its
output. -/
structure Node.BoundsCodes (node : Node) (values : List Value) (scale : Quantization)
    (low high : Int32) : Prop where
  output : ∃ value, node.result? values = some value ∧ value.quantization = some scale ∧
    scale.codeBounds value.element node.params.range.1 node.params.range.2 = .ok (low, high)

/-- The parameters by which a node makes the codes of its output. -/
def Node.MakesCodes (node : Node) (values : List Value) (scale : Quantization) : Prop :=
  ∃ value, node.result? values = some value ∧ value.quantization = some scale

/-- The parameters by which a node reads the codes of its first operand. -/
def Node.ReadsCodes (node : Node) (values : List Value) (scale : Quantization) : Prop :=
  ∃ value, node.operand? values 0 = some value ∧ value.quantization = some scale

/-- The function that a clamp or a conversion declares for each type that it can compute in: a clamp
confines numbers to its range and codes to those of its range, and a conversion changes the storage
type. -/
inductive Node.Maps (node : Node) (values : List Value) :
    OpKind → ComputeType → ElementMap → Prop
  | clampSingle : Maps node values .clamp .fp32 (.of fun x : Float32 =>
      .ok (Binary32.bounded node.params.range.1 node.params.range.2 x))
  | clampHalf : Maps node values .clamp .fp16 (.of fun x : Half => .ok (Half.ofFloat32
      (Binary32.bounded node.params.range.1 node.params.range.2 x.toFloat32)))
  | clampSigned {scale : Quantization} {low high : Int32}
      (codes : node.BoundsCodes values scale low high) :
      Maps node values .clamp .qs8 (.of (Mapping.confined (α := Int8) low high))
  | clampUnsigned {scale : Quantization} {low high : Int32}
      (codes : node.BoundsCodes values scale low high) :
      Maps node values .clamp .qu8 (.of (Mapping.confined (α := UInt8) low high))
  | narrow : Maps node values .convert .fp32ToFp16 (.of fun x : Float32 => .ok (Half.ofFloat32 x))
  | widen : Maps node values .convert .fp16ToFp32 (.of fun x : Half => .ok x.toFloat32)
  | quantizeSigned {scale : Quantization} (made : node.MakesCodes values scale) :
      Maps node values .convert .fp32ToQs8 (.of (Conversion.toCode (α := Int8) true scale))
  | quantizeUnsigned {scale : Quantization} (made : node.MakesCodes values scale) :
      Maps node values .convert .fp32ToQu8 (.of (Conversion.toCode (α := UInt8) false scale))
  | dequantizeSigned {scale : Quantization} (read : node.ReadsCodes values scale) :
      Maps node values .convert .qs8ToFp32 (.of (Conversion.ofCode (α := Int8) scale))
  | dequantizeUnsigned {scale : Quantization} (read : node.ReadsCodes values scale) :
      Maps node values .convert .qu8ToFp32 (.of (Conversion.ofCode (α := UInt8) scale))

namespace StandardOperator

/-- The function of one element that an operator applies, if it applies one. -/
def map? : StandardOperator → Option ElementMap
  | mapping operator => some operator.body.map
  | conversion operator => some operator.body.map
  | _ => none

theorem map?_blank (operator : StandardOperator) : operator.blank.map? = operator.map? := by
  cases operator <;> rfl

/-- An operator that applies the function of a node, should that be a clamp or a conversion. -/
def MapsFor (operator : StandardOperator) (node : Node) (values : List Value) : Prop :=
  node.kind = .clamp ∨ node.kind = .convert →
    ∃ map, operator.map? = some map ∧ node.Maps values node.kind node.compute map

end StandardOperator

section Families

variable {context : CreateContext} {operands : List Value} {output : Value}

theorem Conversion.makeBody_maps {input : Value} {compute : ComputeType} {body : ConversionBody}
    (read : context.node.operand? context.values 0 = some input)
    (found : context.node.result? context.values = some output)
    (made : makeBody compute input output = .ok body) :
    context.node.Maps context.values .convert compute body.map := by
  have scaled : ∀ {value name scale}, scaleOf value name = .ok scale →
      value.quantization = some scale := by
    intro value name scale given
    unfold scaleOf at given
    split at given
    · rename_i quantized
      cases given
      exact quantized
    · cases given
  cases compute with
  | fp32ToFp16 =>
      cases made
      exact .narrow
  | fp16ToFp32 =>
      cases made
      exact .widen
  | fp32ToQs8 =>
      obtain ⟨scale, given, rfl⟩ := map_eq_ok_iff.mp made
      exact .quantizeSigned ⟨output, found, scaled given⟩
  | fp32ToQu8 =>
      obtain ⟨scale, given, rfl⟩ := map_eq_ok_iff.mp made
      exact .quantizeUnsigned ⟨output, found, scaled given⟩
  | qs8ToFp32 =>
      obtain ⟨scale, given, rfl⟩ := map_eq_ok_iff.mp made
      exact .dequantizeSigned ⟨input, read, scaled given⟩
  | qu8ToFp32 =>
      obtain ⟨scale, given, rfl⟩ := map_eq_ok_iff.mp made
      exact .dequantizeUnsigned ⟨input, read, scaled given⟩
  | _ => cases made

theorem Mapping.scaledBody_clamps (readOutput : context.output = .ok output)
    {compute : ComputeType} :
    (scaledBody context compute
        (.clamp context.node.params.range.1 context.node.params.range.2)).Ends
      (fun body => ∃ scale low high, context.node.BoundsCodes context.values scale low high ∧
        body = .confineCodes (output.element == .qint8) low high) (fun _ => True) := by
  refine (Ends.somehow _).bind fun input _ => (Ends.known readOutput).bind ?_
  rintro output rfl
  split
  · rename_i source target _ found
    refine (Ends.of_outcome_ok fun codes given => lift_eq_ok_iff.mp given).bind
      fun codes bounded => Ends.pure ⟨target, codes.1, codes.2, ?_, rfl⟩
    exact ⟨output, CreateContext.output_eq_result?.mp readOutput, found, bounded⟩
  · exact Ends.ofOutcome trivial

section Clamp

variable (admits : context.Admits operands output) (clamp : context.node.kind = .clamp)

include admits clamp

theorem Mapping.makeBody_clamps :
    (makeBody context context.node.compute
        (.clamp context.node.params.range.1 context.node.params.range.2)).Ends
      (fun body => context.node.Maps context.values .clamp context.node.compute body.map)
      (fun _ => True) := by
  obtain ⟨computed, _⟩ := admits.computed (by rw [clamp]; decide)
  rcases OpKind.ofElement?_eq_some_iff.mp computed with
    ⟨_, compute⟩ | ⟨_, compute⟩ | ⟨element, compute⟩ | ⟨element, compute⟩ <;> rw [compute]
  · exact Ends.pure .clampSingle
  · exact Ends.pure .clampHalf
  · refine (@scaledBody_clamps _ _ admits.output_eq .qs8).mono ?_
    rintro body ⟨scale, low, high, bounds, rfl⟩
    rw [element]
    exact .clampSigned bounds
  · refine (@scaledBody_clamps _ _ admits.output_eq .qu8).mono ?_
    rintro body ⟨scale, low, high, bounds, rfl⟩
    rw [element]
    exact .clampUnsigned bounds

theorem Mapping.factory_clamps (lanes : Nat) :
    ((factory context.node.compute lanes).create context).Ends
      (fun mapping => context.node.Maps context.values .clamp context.node.compute
        mapping.body.map) (fun _ => True) := by
  refine (Ends.of_outcome_ok fun _ chosen => chosen).bind fun function chosen => ?_
  rw [clamp] at chosen
  cases chosen
  exact (makeBody_clamps admits clamp).bind fun body made => Ends.pure made

end Clamp

theorem Conversion.factory_maps :
    ((factory context.node.compute).create context).Ends
      (fun conversion => context.node.Maps context.values .convert context.node.compute
        conversion.body.map) (fun _ => True) := by
  refine (Ends.of_outcome_ok fun input read => read).bind fun input read => ?_
  refine (Ends.of_outcome_ok fun output found => found).bind fun output found => ?_
  refine (Ends.of_outcome_ok fun body made => made).bind fun body made => Ends.pure ?_
  exact makeBody_maps (CreateContext.input_eq_operand?.mp read)
    (CreateContext.output_eq_result?.mp found) made

/-- Every factory that the library offers for a clamp or a conversion makes it of the function of
its node. -/
theorem Catalog.Offers.maps {factory : Factory StandardOperator}
    (admits : context.Admits operands output)
    (offers : Catalog.Offers context.node.key factory) :
    (factory.create context).Ends (fun operator => operator.MapsFor context.node context.values)
      (fun _ => True) := by
  cases offers.family with
  | conversion convert =>
      refine Conversion.factory_maps.map fun conversion maps _ => ⟨_, rfl, ?_⟩
      rw [show context.node.kind = .convert from convert]
      exact maps
  | mapping _ notConvert lanes =>
      by_cases clamp : context.node.kind = .clamp
      · refine (Mapping.factory_clamps admits clamp lanes).map fun mapping maps _ => ⟨_, rfl, ?_⟩
        rw [clamp]
        exact maps
      · exact (Ends.somehow _).map fun _ _ mapped => absurd mapped (not_or.mpr ⟨clamp, notConvert⟩)
  | pooling pool =>
      refine (Ends.somehow _).map fun _ _ mapped => ?_
      rw [show context.node.kind = .globalAveragePooling2d from pool] at mapped
      rcases mapped with impossible | impossible <;> cases impossible
  | product multiply =>
      refine (Ends.somehow _).map fun _ _ mapped => ?_
      rw [show context.node.kind = .fullyConnected from multiply] at mapped
      rcases mapped with impossible | impossible <;> cases impossible
  | combination binary =>
      refine (Ends.somehow _).map fun _ _ mapped => ?_
      have binary : context.node.kind.isBinary = true := binary
      rcases mapped with kind | kind <;> rw [kind] at binary <;> cases binary

end Families

/-! ## Results of runs -/

/-- Elementwise operators take one input with as many elements as the output. -/
theorem sharedCount_eq_ok_iff {kind : OpKind} {shapes : List Shape} {output : Shape} {count : Nat} :
    sharedCount kind shapes output = .ok count ↔
      ∃ input, shapes[0]? = some input ∧ input.elementCount = output.elementCount ∧
        count = output.elementCount := by
  constructor
  · intro shared
    obtain ⟨input, first, same⟩ := exists_of_sharedCount shared
    have whole := sharedCount_eq shared
    exact ⟨input, first, same.trans whole, whole⟩
  · rintro ⟨input, first, same, rfl⟩
    unfold sharedCount
    rw [operand_eq_ok_iff.mpr first]
    show (if input.elementCount = output.elementCount then _ else _ : Outcome Nat) = _
    rw [if_pos same, same]
    rfl

/-- An operator takes exactly the inputs with as many elements as the output. Set up for one, each
of its runs succeeds on aligned buffers of whole elements that are large enough, and fills the
output with the function of every element. -/
def StandardOperator.Maps (operator : StandardOperator) (map : ElementMap) : Prop :=
  ∀ (shapes : List Shape) (output : Shape),
    ((Operator.setup operator shapes output).2 = .ok () ↔
      ∃ input, shapes[0]? = some input ∧ input.elementCount = output.elementCount) ∧
    ((Operator.setup operator shapes output).2 = .ok () →
      ∀ schedule inputs source room, inputs[0]? = some source →
        source.Fits map.sourceWidth output.elementCount →
        room.Fits map.width output.elementCount →
        let done := Operator.run (Operator.setup operator shapes output).1 schedule inputs room
        done.outcome = .ok () ∧ map.Fills output.elementCount source room done.written)

namespace StandardOperator

/-- An operator maps a function if its setup agrees on a count of elements and its contents, for
whichever count, are the mapped elements. -/
theorem maps_of_fills {operator : StandardOperator} {kind : OpKind} {ready : Nat → StandardOperator}
    {map : ElementMap}
    (setup : ∀ shapes output, Operator.setup operator shapes output =
      match sharedCount kind shapes output with
      | .ok count => (ready count, .ok ())
      | .error fault => (operator, .error fault))
    (fills : ∀ count schedule inputs source room, inputs[0]? = some source →
      source.Fits map.sourceWidth count → room.Fits map.width count →
      ∃ bytes, (ready count).contents schedule inputs room = .ok bytes ∧
        map.Fills count source room (overlay room.bytes bytes)) : operator.Maps map := by
  intro shapes output
  rw [setup]
  cases shared : sharedCount kind shapes output with
  | error fault =>
      refine ⟨⟨fun taken => (by cases taken), ?_⟩, fun taken => (by cases taken)⟩
      rintro ⟨input, first, same⟩
      cases shared.symm.trans (sharedCount_eq_ok_iff.mpr ⟨input, first, same, rfl⟩)
  | ok count =>
      obtain ⟨input, first, same, rfl⟩ := sharedCount_eq_ok_iff.mp shared
      refine ⟨⟨fun _ => ⟨input, first, same⟩, fun _ => rfl⟩, ?_⟩
      intro _ schedule inputs source room given fits fitsRoom done
      obtain ⟨bytes, ranContents, filled⟩ := fills _ schedule inputs source room given fits fitsRoom
      rw [show done = _ from StandardOperator.run_eq_of_contents ranContents]
      exact ⟨rfl, filled⟩

theorem SoundBody.maps {operator : StandardOperator} (sound : operator.SoundBody)
    {map : ElementMap} (applies : operator.map? = some map) : operator.Maps map := by
  cases operator with
  | mapping mapping =>
      cases applies
      refine @maps_of_fills _ mapping.kind (fun count => .mapping { mapping with count := count }) _
        (fun shapes output => ?_) fun count schedule _ _ _ first fits fitsRoom =>
          @Mapping.contents_fills { mapping with count := count } sound schedule _ _ _ first fits
            fitsRoom
      show (mapping.setup shapes output).map StandardOperator.mapping id = _
      unfold Mapping.setup
      cases sharedCount mapping.kind shapes output <;> rfl
  | conversion conversion =>
      cases applies
      refine @maps_of_fills _ .convert
        (fun count => .conversion { conversion with count := count }) _
        (fun shapes output => ?_) fun count schedule _ _ _ first fits fitsRoom =>
          @Conversion.contents_fills { conversion with count := count } sound schedule _ _ _ first
            fits fitsRoom
      show (conversion.setup shapes output).map StandardOperator.conversion id = _
      unfold Conversion.setup
      cases sharedCount .convert shapes output <;> rfl
  | _ => cases applies

theorem soundBody_blank (operator : StandardOperator) :
    operator.blank.SoundBody ↔ operator.SoundBody := by
  cases operator <;> exact Iff.rfl

end StandardOperator

/-- In a compiled graph, the operator of every clamp and every conversion maps the function of its
own node, whatever calls have been made. -/
theorem CompileJob.maps {job : CompileJob} {workshop : Workshop}
    {executable : Executable StandardOperator} {closed : Graph}
    (ran : (job.run workshop).1 = .ok (executable, closed)) (history : List SessionCall)
    {step : Step StandardOperator}
    (listed : step ∈ ((Session.start executable).afterCalls history).executable.steps)
    (mapped : step.node.kind = .clamp ∨ step.node.kind = .convert) :
    ∃ map, step.node.Maps job.graph.values step.node.kind step.node.compute map ∧
      step.operator.Maps map := by
  obtain ⟨before, among, _, stays⟩ := exists_made ran history listed
  rw [stays.node_eq] at mapped ⊢
  have sound := ensures ran (fun _ _ _ _ admits offers => offers.sound admits) before among
  obtain ⟨map, applies, declared⟩ :=
    ensures ran (fun _ _ _ _ admits offers => offers.maps admits) before among mapped
  have blank := stays.blank_eq
  have body : step.operator.SoundBody := by
    rw [← StandardOperator.soundBody_blank, blank, StandardOperator.soundBody_blank]
    exact sound.body
  refine ⟨map, declared, body.maps ?_⟩
  rw [← StandardOperator.map?_blank, blank, StandardOperator.map?_blank]
  exact applies

end TensorEngine
