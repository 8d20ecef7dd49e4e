import TensorEngine.Proofs.Execution.CodeRange

/-!
Contract: clamps of codes are clamps of the numbers that the codes stand for.

Owns:
- the codes of the numbers of codes, as they are and confined;
- `CompiledStep`, a step of a compiled graph, what it reads and makes, and the function that a clamp
  or a conversion maps;
- `Launch`, what a step is set up for and run on, and the two routes from codes to clamped codes;
- the theorem that both routes give the same codes, and that numbers give their codes back.

Does not own: how single numbers are rounded.
-/

namespace TensorEngine

open TensorEngine.Numeric Conversion UnaryFunction

/-! ## Numbers in bytes -/

/-- A natural number that fits some bytes is the one that they hold. -/
theorem ofLittleEndian_toLittleEndian {width value : Nat} (fits : value < 256 ^ width) :
    ofLittleEndian (toLittleEndian width value) = value := by
  induction width generalizing value with
  | zero =>
      rw [pow_zero, Nat.lt_one_iff] at fits
      rw [fits]
      rfl
  | succ width inductionHypothesis =>
      rw [pow_succ] at fits
      have rest := inductionHypothesis (Nat.div_lt_of_lt_mul (by rw [Nat.mul_comm]; exact fits))
      show value.toUInt8.toNat + 256 * ofLittleEndian (toLittleEndian width (value / 256)) = value
      rw [rest, UInt8.toNat_ofNat']
      exact Nat.mod_add_div value 256

/-- A number is stored without loss. -/
theorem decode_encode_number (x : Float32) :
    (Storage.decode (Storage.encode x) : Float32) = x := by
  show Float32.ofBits (ofLittleEndian (toLittleEndian 4 x.toBits.toNat)).toUInt32 = x
  rw [ofLittleEndian_toLittleEndian x.toBits.toNat_lt, Nat.toUInt32_eq, UInt32.ofNat_toNat,
    Float32.ofBits_toBits]

/-! ## Codes of numbers -/

/-- The code of a number that a code stands for, confined, is that code, confined to the codes of
the bounds. -/
theorem Quantization.quantize_bounded_dequantize {scale : Quantization} {element : ElementType}
    (coded : element.IsByteCode) (valid : scale.validate element = .ok ()) {least most : Float32}
    (number : least.isNaN = false) (numberMost : most.isNaN = false)
    (ordered : Binary32.value least ≤ Binary32.value most) {low high : Int32}
    (bounded : scale.codeBounds element least most = .ok (low, high)) {code : Int32}
    (lowest : element.codeRange.1 ≤ code) (greatest : code ≤ element.codeRange.2) {x : Float32}
    (denoted : scale.dequantize code = .ok x) (finite : x.isFinite = true) :
    scale.quantize (Binary32.bounded least most x) element.codeRange.1 element.codeRange.2 =
      confineCode code low high := by
  obtain ⟨lowCode, quantized, bounded⟩ := bind_eq_ok_iff.mp bounded
  obtain ⟨highCode, quantizedHigh, same⟩ := bind_eq_ok_iff.mp bounded
  cases same
  exact (isScaled_of_validate valid).quantize_bounded (Binary32.isFinite_iff.mp finite).1 number
    numberMost ordered element.codeRange_ordered.1
    (quantize_dequantize coded valid lowest greatest denoted finite) quantized quantizedHigh

/-- Elements that are codes are among the codes of their storage type. -/
theorem Code.Narrows.inside {α : Type} [Code α] {element : ElementType}
    (narrows : Code.Narrows α element) (code : α) :
    element.codeRange.1 ≤ Code.toInt32 code ∧ Code.toInt32 code ≤ element.codeRange.2 := by
  obtain ⟨byte, _, held⟩ := narrows.encode code
  obtain ⟨low, high, ranged, least, most, _⟩ := codeOfByte_inside narrows.byte byte
  rw [held, ← Int32.le_iff_toInt_le] at least most
  rw [ElementType.codeRange_eq ranged]
  exact ⟨least, most⟩

section Elements

variable {α : Type} [Code α] {signed : Bool} (narrows : Code.Narrows α (codeElement signed))
  {scale : Quantization} (valid : scale.validate (codeElement signed) = .ok ())

include narrows valid

theorem Code.Narrows.quantize_ofCode {code : α} {number : Float32}
    (denoted : ofCode scale code = .ok number) (finite : number.isFinite = true) :
    scale.quantize number (codeElement signed).codeRange.1 (codeElement signed).codeRange.2 =
      .ok (Code.toInt32 code) := by
  obtain ⟨least, most⟩ := narrows.inside code
  exact Quantization.quantize_dequantize narrows.byte valid least most denoted finite

/-- The code of a confined number is the confined code. -/
theorem Code.Narrows.toCode_bounded {least most : Float32} (number : least.isNaN = false)
    (numberMost : most.isNaN = false) (ordered : Binary32.value least ≤ Binary32.value most)
    {low high : Int32}
    (bounded : scale.codeBounds (codeElement signed) least most = .ok (low, high)) {code : α}
    {x : Float32} (denoted : ofCode scale code = .ok x) (finite : x.isFinite = true) :
    toCode (α := α) signed scale (Binary32.bounded least most x) =
      Mapping.confined low high code := by
  obtain ⟨lowest, greatest⟩ := narrows.inside code
  exact congrArg (Code.ofInt32 <$> ·) (Quantization.quantize_bounded_dequantize narrows.byte valid
    number numberMost ordered bounded lowest greatest denoted finite)

theorem Code.Narrows.converted_back {code loaded stored : List UInt8}
    (finite : ∀ x, scale.dequantize (codeOfByte (codeElement signed) (code.headD 0)) = .ok x →
      x.isFinite = true)
    (loads : (ElementMap.of (ofCode (α := α) scale)).apply code = .ok loaded)
    (stores : (ElementMap.of (toCode (α := α) signed scale)).apply loaded = .ok stored) :
    stored = [code.headD 0] := by
  obtain ⟨x, denoted, rfl⟩ := map_eq_ok_iff.mp loads
  obtain ⟨result, made, rfl⟩ := map_eq_ok_iff.mp stores
  rw [decode_encode_number] at made
  have denotes := denoted
  unfold ofCode at denotes
  rw [narrows.decode] at denotes
  obtain ⟨wide, quantized, rfl⟩ := map_eq_ok_iff.mp made
  cases (narrows.quantize_ofCode valid denoted (finite x denotes)).symm.trans quantized
  obtain ⟨least, most⟩ := narrows.inside (Storage.decode code : α)
  obtain ⟨byte, encoded, held⟩ :=
    narrows.encode (Code.ofInt32 (Code.toInt32 (Storage.decode code : α)) : α)
  rw [narrows.narrow _ least most, narrows.decode] at held
  rw [encoded, codeOfByte_injective narrows.byte held]

/-- What confines the numbers of codes and gives their codes, as bytes, is what confines the
codes. -/
theorem Code.Narrows.confined_alike {least most : Float32} (number : least.isNaN = false)
    (numberMost : most.isNaN = false) (ordered : Binary32.value least ≤ Binary32.value most)
    {low high : Int32}
    (bounded : scale.codeBounds (codeElement signed) least most = .ok (low, high))
    {code loaded confined stored direct : List UInt8}
    (finite : ∀ x, scale.dequantize (codeOfByte (codeElement signed) (code.headD 0)) = .ok x →
      x.isFinite = true)
    (loads : (ElementMap.of (ofCode (α := α) scale)).apply code = .ok loaded)
    (confines : (ElementMap.of fun x : Float32 =>
      .ok (Binary32.bounded least most x)).apply loaded = .ok confined)
    (stores : (ElementMap.of (toCode (α := α) signed scale)).apply confined = .ok stored)
    (confinesCodes : (ElementMap.of (Mapping.confined (α := α) low high)).apply code =
      .ok direct) : stored = direct := by
  obtain ⟨x, denoted, rfl⟩ := map_eq_ok_iff.mp loads
  obtain ⟨_, same, rfl⟩ := map_eq_ok_iff.mp confines
  cases same
  obtain ⟨result, made, rfl⟩ := map_eq_ok_iff.mp stores
  obtain ⟨other, clamped, rfl⟩ := map_eq_ok_iff.mp confinesCodes
  rw [decode_encode_number, decode_encode_number] at made
  have denotes := denoted
  unfold ofCode at denotes
  rw [narrows.decode] at denotes
  have alike := narrows.toCode_bounded valid number numberMost ordered bounded denoted
    (finite x denotes)
  rw [Except.ok.inj (made.symm.trans (alike.trans clamped))]

end Elements

/-- What confines the numbers of codes and gives their codes is what confines the codes. -/
theorem ElementMap.confined_alike {signed : Bool} {scale : Quantization}
    (valid : scale.validate (codeElement signed) = .ok ()) {least most : Float32}
    (number : least.isNaN = false) (numberMost : most.isNaN = false)
    (ordered : Binary32.value least ≤ Binary32.value most) {low high : Int32}
    (bounded : scale.codeBounds (codeElement signed) least most = .ok (low, high))
    {code loaded confined stored direct : List UInt8}
    (finite : ∀ x, scale.dequantize (codeOfByte (codeElement signed) (code.headD 0)) = .ok x →
      x.isFinite = true)
    (loads : (ConversionBody.dequantize signed scale).map.apply code = .ok loaded)
    (confines : (MappingBody.single (.clamp least most)).map.apply loaded = .ok confined)
    (stores : (ConversionBody.quantize signed scale).map.apply confined = .ok stored)
    (confinesCodes : (MappingBody.confineCodes signed low high).map.apply code = .ok direct) :
    stored = direct := by
  cases signed with
  | true =>
      exact Code.narrows_signed.confined_alike valid number numberMost ordered bounded finite loads
        confines stores confinesCodes
  | false =>
      exact Code.narrows_unsigned.confined_alike valid number numberMost ordered bounded finite
        loads confines stores confinesCodes

theorem ElementMap.converted_back {signed : Bool} {scale : Quantization}
    (valid : scale.validate (codeElement signed) = .ok ()) {code loaded stored : List UInt8}
    (finite : ∀ x, scale.dequantize (codeOfByte (codeElement signed) (code.headD 0)) = .ok x →
      x.isFinite = true)
    (loads : (ConversionBody.dequantize signed scale).map.apply code = .ok loaded)
    (stores : (ConversionBody.quantize signed scale).map.apply loaded = .ok stored) :
    stored = [code.headD 0] := by
  cases signed with
  | true => exact Code.narrows_signed.converted_back valid finite loads stores
  | false => exact Code.narrows_unsigned.converted_back valid finite loads stores

/-! ## Steps -/

/-- A step of a compiled graph, after any calls on it. -/
structure CompiledStep where
  workshop : Workshop
  job : CompileJob
  executable : Executable StandardOperator
  closed : Graph
  ran : (job.run workshop).1 = .ok (executable, closed)
  history : List SessionCall
  step : Step StandardOperator
  listed : step ∈ ((Session.start executable).afterCalls history).executable.steps

namespace CompiledStep

/-- A step of a kind, with the storage types and parameters of what it reads first and makes. -/
structure Turns (compiled : CompiledStep) (kind : OpKind)
    (source target : ElementType × Option Quantization) : Prop where
  kind_eq : compiled.step.node.kind = kind
  operand : ∃ value, compiled.step.node.operand? compiled.job.graph.values 0 = some value ∧
    (value.element, value.quantization) = source
  result : ∃ value, compiled.step.node.result? compiled.job.graph.values = some value ∧
    (value.element, value.quantization) = target

variable {compiled : CompiledStep}

theorem exists_admits (compiled : CompiledStep) : ∃ operands result,
    (compiled.job.context compiled.step.node).Admits operands result := by
  obtain ⟨made, _, among, stays⟩ :=
    CompileJob.exists_made compiled.ran compiled.history compiled.listed
  rw [stays.node_eq]
  exact compiled.job.exists_admits among _ _

theorem isOrdered (compiled : CompiledStep) : compiled.step.node.params.IsOrdered := by
  obtain ⟨_, _, admits⟩ := compiled.exists_admits
  exact OpKind.isOrdered_of_checkParams admits.node.params

namespace Turns

variable {kind : OpKind} {source target : ElementType × Option Quantization} {signed : Bool}
  {scale : Quantization}

/-- Parameters of what a step makes are accepted. -/
theorem valid {element : ElementType} (turns : compiled.Turns kind source (element, some scale)) :
    scale.validate element = .ok () := by
  obtain ⟨_, _, admits⟩ := compiled.exists_admits
  obtain ⟨value, found, same⟩ := turns.result
  cases (CreateContext.output_eq_result?.mp admits.output_eq).symm.trans found
  obtain ⟨sameElement, quantized⟩ := Prod.mk.inj same
  rw [← sameElement]
  exact admits.soundOutput.valid scale quantized

theorem clamp_computes (turns : compiled.Turns .clamp source target) :
    ComputeType.ofElement? target.1 = some compiled.step.node.compute := by
  obtain ⟨_, _, admits⟩ := compiled.exists_admits
  obtain ⟨value, found, rfl⟩ := turns.result
  cases (CreateContext.output_eq_result?.mp admits.output_eq).symm.trans found
  exact (admits.computed (by
    show compiled.step.node.kind ≠ .convert
    rw [turns.kind_eq]
    decide)).1

/-- A conversion computes in the one between the storage types of what it reads and makes. -/
theorem conversion_computes (turns : compiled.Turns .convert source target) :
    ComputeType.conversion? source.1 target.1 = some compiled.step.node.compute := by
  obtain ⟨operands, _, admits⟩ := compiled.exists_admits
  obtain ⟨value, found, rfl⟩ := turns.result
  obtain ⟨operand, read, rfl⟩ := turns.operand
  cases (CreateContext.output_eq_result?.mp admits.output_eq).symm.trans found
  have first := (admits.node.operand?_eq 0).symm.trans read
  have checked := admits.node.elements
  rw [show (compiled.job.context compiled.step.node).node.kind = _ from turns.kind_eq] at checked
  cases operands with
  | nil => cases first
  | cons head rest =>
      cases first
      exact OpKind.checkConversion_eq_ok_iff.mp checked

/-- A conversion of codes to numbers gives what they stand for. -/
theorem loads (turns : compiled.Turns .convert (codeElement signed, some scale) (.float32, none)) :
    compiled.step.operator.Maps (ConversionBody.dequantize signed scale).map := by
  obtain ⟨map, declared, maps⟩ :=
    CompileJob.maps compiled.ran compiled.history compiled.listed (.inr turns.kind_eq)
  have computes := turns.conversion_computes
  obtain ⟨operand, read, same⟩ := turns.operand
  -- the storage types say which conversion it is, and the node has only one operand to read
  have scaled : ∀ {other}, compiled.step.node.ReadsCodes compiled.job.graph.values other →
      other = scale := by
    rintro other ⟨value, readAgain, quantized⟩
    cases read.symm.trans readAgain
    exact Option.some.inj (quantized.symm.trans (Prod.mk.inj same).2)
  rw [turns.kind_eq] at declared
  cases signed with
  | true =>
      rw [← Option.some.inj computes] at declared
      cases declared with
      | dequantizeSigned reads => exact scaled reads ▸ maps
  | false =>
      rw [← Option.some.inj computes] at declared
      cases declared with
      | dequantizeUnsigned reads => exact scaled reads ▸ maps

/-- A conversion of numbers to codes gives theirs. -/
theorem stores (turns : compiled.Turns .convert (.float32, none) (codeElement signed, some scale)) :
    compiled.step.operator.Maps (ConversionBody.quantize signed scale).map := by
  obtain ⟨map, declared, maps⟩ :=
    CompileJob.maps compiled.ran compiled.history compiled.listed (.inr turns.kind_eq)
  have computes := turns.conversion_computes
  obtain ⟨result, found, same⟩ := turns.result
  have scaled : ∀ {other}, compiled.step.node.MakesCodes compiled.job.graph.values other →
      other = scale := by
    rintro other ⟨value, foundAgain, quantized⟩
    cases found.symm.trans foundAgain
    exact Option.some.inj (quantized.symm.trans (Prod.mk.inj same).2)
  rw [turns.kind_eq] at declared
  cases signed with
  | true =>
      rw [← Option.some.inj computes] at declared
      cases declared with
      | quantizeSigned makes => exact scaled makes ▸ maps
  | false =>
      rw [← Option.some.inj computes] at declared
      cases declared with
      | quantizeUnsigned makes => exact scaled makes ▸ maps

theorem confines (turns : compiled.Turns .clamp source (.float32, none)) :
    compiled.step.operator.Maps (MappingBody.single (.clamp compiled.step.node.params.range.1
      compiled.step.node.params.range.2)).map := by
  obtain ⟨map, declared, maps⟩ :=
    CompileJob.maps compiled.ran compiled.history compiled.listed (.inl turns.kind_eq)
  rw [turns.kind_eq, ← Option.some.inj turns.clamp_computes] at declared
  cases declared with
  | clampSingle => exact maps

theorem confinesCodes (turns : compiled.Turns .clamp source (codeElement signed, some scale)) :
    ∃ low high, scale.codeBounds (codeElement signed) compiled.step.node.params.range.1
        compiled.step.node.params.range.2 = .ok (low, high) ∧
      compiled.step.operator.Maps (MappingBody.confineCodes signed low high).map := by
  obtain ⟨map, declared, maps⟩ :=
    CompileJob.maps compiled.ran compiled.history compiled.listed (.inl turns.kind_eq)
  have computes := turns.clamp_computes
  obtain ⟨result, found, same⟩ := turns.result
  obtain ⟨sameElement, sameScale⟩ := Prod.mk.inj same
  rw [turns.kind_eq] at declared
  -- the bounds of the node are those of the codes that it makes
  have bounds : ∀ {other low high},
      compiled.step.node.BoundsCodes compiled.job.graph.values other low high →
        scale.codeBounds (codeElement signed) compiled.step.node.params.range.1
          compiled.step.node.params.range.2 = .ok (low, high) := by
    rintro other low high ⟨value, foundAgain, quantized, bounded⟩
    cases found.symm.trans foundAgain
    cases quantized.symm.trans sameScale
    rw [← sameElement]
    exact bounded
  cases signed with
  | true =>
      rw [← Option.some.inj computes] at declared
      cases declared with
      | clampSigned codes => exact ⟨_, _, bounds codes, maps⟩
  | false =>
      rw [← Option.some.inj computes] at declared
      cases declared with
      | clampUnsigned codes => exact ⟨_, _, bounds codes, maps⟩

end Turns

end CompiledStep

/-! ## Routes -/

/-- What a step is set up for and run on, its input excepted. -/
structure Launch where
  shapes : List Shape
  output : Shape
  schedule : Schedule
  room : Buffer

def Launch.left (launch : Launch) (done : RunEnd) : Buffer := ⟨done.written, launch.room.address⟩

namespace CompiledStep

variable {compiled : CompiledStep} {launch : Launch}

/-- A step takes the shapes of a launch, whose output has so many elements of a width, and room for
them. -/
structure Takes (compiled : CompiledStep) (launch : Launch) (width count : Nat) : Prop where
  setUp : (Operator.setup compiled.step.operator launch.shapes launch.output).2 = .ok ()
  count_eq : launch.output.elementCount = count
  room : launch.room.Fits width count

def run (compiled : CompiledStep) (launch : Launch) (source : Buffer) : RunEnd :=
  Operator.run (Operator.setup compiled.step.operator launch.shapes launch.output).1
    launch.schedule [source] launch.room

/-- A step that maps a function succeeds on what it takes, maps every element, and leaves a buffer
that the next one can read. -/
theorem run_maps {map : ElementMap} (maps : compiled.step.operator.Maps map)
    {sourceWidth width : Nat} (widths : map.sourceWidth = sourceWidth ∧ map.width = width)
    {count : Nat} (takes : compiled.Takes launch width count) {source : Buffer}
    (fits : source.Fits sourceWidth count) :
    (compiled.run launch source).outcome = .ok () ∧
      (∀ place < count, map.apply (elementBytes source.bytes sourceWidth place) =
        .ok (elementBytes (compiled.run launch source).written width place)) ∧
      (launch.left (compiled.run launch source)).Fits width count := by
  obtain ⟨rfl, rfl⟩ := widths
  obtain ⟨_, runs⟩ := maps launch.shapes launch.output
  obtain ⟨ended, fills⟩ := runs takes.setUp launch.schedule [source] source launch.room rfl
    (takes.count_eq ▸ fits) (takes.count_eq ▸ takes.room)
  rw [takes.count_eq] at fills
  have size : (launch.left (compiled.run launch source)).size = launch.room.size := fills.size
  exact ⟨ended, fills.element, takes.room.aligned, size ▸ takes.room.whole,
    size ▸ takes.room.enough, size ▸ takes.room.short⟩

/-- Every code in a buffer, up to a number of them, stands for a finite number. -/
def DenotesFinite (element : ElementType) (scale : Quantization) (source : Buffer) (count : Nat) :
    Prop :=
  ∀ place < count, ∀ x, scale.dequantize (codeAt element source place) = .ok x →
    x.isFinite = true

/-- Codes that one step loads as numbers and another stores are as they were, whatever shapes the
steps take and whatever room they have. -/
def ConvertsBack (load store : CompiledStep) (count : Nat) (source : Buffer) : Prop :=
  ∀ first last : Launch, load.Takes first 4 count → store.Takes last 1 count →
    let numbers := load.run first source
    let codes := store.run last (first.left numbers)
    numbers.outcome = .ok () ∧ codes.outcome = .ok () ∧
      ∀ place < count, elementBytes codes.written 1 place = elementBytes source.bytes 1 place

/-- Codes that one step clamps are those that are loaded as numbers, clamped and stored by three
others, whatever shapes the steps take and whatever room they have. -/
def ClampsAlike (direct load clamp store : CompiledStep) (count : Nat) (source : Buffer) : Prop :=
  ∀ atOnce first middle last : Launch, direct.Takes atOnce 1 count → load.Takes first 4 count →
    clamp.Takes middle 4 count → store.Takes last 1 count →
    let done := direct.run atOnce source
    let numbers := load.run first source
    let clamped := clamp.run middle (first.left numbers)
    let codes := store.run last (middle.left clamped)
    done.outcome = .ok () ∧ numbers.outcome = .ok () ∧ clamped.outcome = .ok () ∧
      codes.outcome = .ok () ∧
      ∀ place < count, elementBytes codes.written 1 place = elementBytes done.written 1 place

section Routes

variable {signed : Bool} {scale : Quantization} {load store : CompiledStep}
  (loads : load.Turns .convert (codeElement signed, some scale) (.float32, none))
  (stores : store.Turns .convert (.float32, none) (codeElement signed, some scale))
  {count : Nat} {source : Buffer} (fits : source.Fits 1 count)
  (finite : DenotesFinite (codeElement signed) scale source count)

include loads stores fits finite

/-- Conversions to numbers and back give the codes back. -/
theorem converts_back : ConvertsBack load store count source := by
  intro first last takes takesLast numbers codes
  obtain ⟨ended, loaded, fitsNumbers⟩ :=
    run_maps loads.loads (by cases signed <;> exact ⟨rfl, rfl⟩) takes fits
  obtain ⟨endedLast, stored, _⟩ :=
    run_maps stores.stores (by cases signed <;> exact ⟨rfl, rfl⟩) takesLast fitsNumbers
  refine ⟨ended, endedLast, fun place inside => ?_⟩
  have back := ElementMap.converted_back stores.valid (finite place inside) (loaded place inside)
    (stored place inside)
  -- the element of a place inside a buffer of bytes is that byte alone
  obtain ⟨byte, found⟩ : ∃ byte, source.bytes[place]? = some byte :=
    ⟨_, Array.getElem?_eq_getElem (by
      have enough := fits.enough
      rw [Nat.mul_one] at enough
      exact Nat.lt_of_lt_of_le inside enough)⟩
  rw [back, elementBytes_one found]
  rfl

/-- A clamp of codes gives those that conversions and a clamp of numbers to the same range give. -/
theorem clamps_alike {direct clamp : CompiledStep}
    (clampsCodes : direct.Turns .clamp (codeElement signed, some scale)
      (codeElement signed, some scale))
    (clampsNumbers : clamp.Turns .clamp (.float32, none) (.float32, none))
    (range : direct.step.node.params.range = clamp.step.node.params.range) :
    ClampsAlike direct load clamp store count source := by
  intro atOnce first middle last takesAtOnce takes takesMiddle takesLast done numbers clamped codes
  obtain ⟨low, high, bounded, confines⟩ := clampsCodes.confinesCodes
  have ordered := direct.isOrdered
  obtain ⟨endedAtOnce, confined, _⟩ :=
    run_maps confines (by cases signed <;> exact ⟨rfl, rfl⟩) takesAtOnce fits
  obtain ⟨ended, loaded, fitsNumbers⟩ :=
    run_maps loads.loads (by cases signed <;> exact ⟨rfl, rfl⟩) takes fits
  obtain ⟨endedMiddle, limited, fitsClamped⟩ :=
    run_maps clampsNumbers.confines ⟨rfl, rfl⟩ takesMiddle fitsNumbers
  obtain ⟨endedLast, stored, _⟩ :=
    run_maps stores.stores (by cases signed <;> exact ⟨rfl, rfl⟩) takesLast fitsClamped
  rw [← range] at limited
  exact ⟨endedAtOnce, ended, endedMiddle, endedLast, fun place inside =>
    ElementMap.confined_alike clampsCodes.valid ordered.low ordered.high ordered.ordered bounded
      (finite place inside) (loaded place inside) (limited place inside) (stored place inside)
      (confined place inside)⟩

end Routes

end CompiledStep

/-- Clamping codes equals clamping the numbers that they stand for.

Take any parameters that are accepted for signed or unsigned bytes, the least subnormal scale
included, and any code that stands for a finite number. The number has that code. Take any two
bounds that are numbers, infinite or not, in order. They have codes, and the code of the number,
confined to the bounds, is the code, confined to theirs.

Hence, take a conversion from signed or unsigned bytes to single precision and one back with the
same parameters, each from any constructed graph that has been compiled on a host with any features
and any settings, after any calls on it. Take any aligned buffer with enough codes, all of which
stand for finite numbers. Set up for any shapes with so many elements that they take, and run one
after the other with enough room and in any orders of their tiles, they succeed and give back the
codes. With a clamp to any range of the numbers in between, they give what a clamp of the codes to
that range gives, and all four steps succeed. -/
theorem code_clamp_equals_number_clamp :
    (∀ (scale : Quantization) (element : ElementType), element.IsByteCode →
      scale.validate element = .ok () →
      ∀ code, element.codeRange.1 ≤ code → code ≤ element.codeRange.2 →
      ∀ x, scale.dequantize code = .ok x → x.isFinite = true →
        scale.quantize x element.codeRange.1 element.codeRange.2 = .ok code ∧
        ∀ least most : Float32, least.isNaN = false → most.isNaN = false → least < most →
          ∃ low high, scale.codeBounds element least most = .ok (low, high) ∧
            scale.quantize (Binary32.bounded least most x) element.codeRange.1
              element.codeRange.2 = confineCode code low high) ∧
    ∀ (element : ElementType), element.IsByteCode → ∀ (scale : Quantization)
      (load store : CompiledStep), load.Turns .convert (element, some scale) (.float32, none) →
      store.Turns .convert (.float32, none) (element, some scale) →
      ∀ (count : Nat) (source : Buffer), source.Fits 1 count →
        CompiledStep.DenotesFinite element scale source count →
        CompiledStep.ConvertsBack load store count source ∧
        ∀ direct clamp : CompiledStep,
          direct.Turns .clamp (element, some scale) (element, some scale) →
          clamp.Turns .clamp (.float32, none) (.float32, none) →
          direct.step.node.params.range = clamp.step.node.params.range →
          CompiledStep.ClampsAlike direct load clamp store count source := by
  constructor
  · intro scale element coded valid code lowest greatest x denoted finite
    refine ⟨Quantization.quantize_dequantize coded valid lowest greatest denoted finite, ?_⟩
    intro least most number numberMost ordered
    obtain ⟨codes, bounded⟩ := scale.exists_codeBounds element least most
    exact ⟨codes.1, codes.2, bounded, Quantization.quantize_bounded_dequantize coded valid number
      numberMost ((Binary32.lt_iff number numberMost).mp ordered).le bounded lowest greatest
      denoted finite⟩
  · intro element coded scale load store loads stores count source fits finite
    obtain ⟨signed, rfl⟩ : ∃ signed, element = codeElement signed := by
      rcases coded with rfl | rfl
      · exact ⟨true, rfl⟩
      · exact ⟨false, rfl⟩
    exact ⟨CompiledStep.converts_back loads stores fits finite,
      fun direct clamp clampsCodes clampsNumbers range =>
        CompiledStep.clamps_alike loads stores fits finite clampsCodes clampsNumbers range⟩

/-- Codes whose zero point is 100 and whose scale is the least subnormal number. -/
def leastScale : Quantization := ⟨100, Float32.ofBits 1⟩

/-- The range from -3 to 5 times the least subnormal number. -/
def leastRange : OpParams := .outputRange (Float32.ofBits 0x80000003) (Float32.ofBits 5)

/-- A graph with one node, which reads an input of three elements and makes an output of three. -/
def onlyNode (source target : ElementType × Option Quantization) (kind : OpKind)
    (params : OpParams) : CompileJob :=
  let tensor (type : ElementType × Option Quantization) (id : Nat) (flags : ValueFlags) :=
    match type with
    | (element, some scale) => .quantizedTensor ⟨element, [3], none, some id, flags⟩ scale
    | (element, none) => .tensor ⟨element, [3], none, some id, flags⟩
  portableJob [tensor source 0 .externalInput, tensor target 1 .externalOutput,
    .node kind [0] [1] params 0]

/-- The only node of a graph that compiles is the node of a step. -/
theorem CompiledStep.exists_turns (job : CompileJob)
    (compiles : ((job.run {}).1).toOption.isSome = true) {node : Node}
    (only : job.graph.nodes = [node]) {source target : ElementType × Option Quantization}
    (operand : ∃ value, node.operand? job.graph.values 0 = some value ∧
      (value.element, value.quantization) = source)
    (result : ∃ value, node.result? job.graph.values = some value ∧
      (value.element, value.quantization) = target) :
    ∃ compiled : CompiledStep, compiled.Turns node.kind source target ∧
      compiled.step.node = node := by
  obtain ⟨executable, closed, ran, nodes⟩ := CompileJob.exists_of_isSome job {} compiles
  rw [only] at nodes
  obtain ⟨step, listed, rfl⟩ := List.mem_map.mp (nodes ▸ List.mem_singleton_self node)
  exact ⟨⟨{}, job, executable, closed, ran, [], step, listed⟩, ⟨rfl, operand, result⟩, rfl⟩

/-- The theorem applies to the codes 90, 103 and 200, which are -10, 3 and 100 times the scale. On
both routes, the clamp to the range from -3 to 5 of these maps the first to 97. Without it, the
codes come back. -/
theorem code_clamp_equals_number_clamp_subnormal :
    (leastScale.quantize (Float32.ofBits 0x8000000a) 0 255 = .ok 90 ∧
      ∃ low high, leastScale.codeBounds .quint8 (Float32.ofBits 0x80000003) (Float32.ofBits 5) =
          .ok (low, high) ∧
        leastScale.quantize (Binary32.bounded (Float32.ofBits 0x80000003) (Float32.ofBits 5)
          (Float32.ofBits 0x8000000a)) 0 255 = confineCode 90 low high) ∧
    ∃ direct load clamp store : CompiledStep,
      let source := Buffer.fresh #[90, 103, 200]
      let codes : Launch := ⟨[[3]], [3], .backwards, Buffer.fresh (Array.replicate 3 0)⟩
      let numbers : Launch := ⟨[[3]], [3], .backwards, Buffer.fresh (Array.replicate 12 0)⟩
      let loaded := numbers.left (load.run numbers source)
      let done := store.run codes (numbers.left (clamp.run numbers loaded))
      (store.run codes loaded).outcome = .ok () ∧
        elementBytes (store.run codes loaded).written 1 0 = [90] ∧
        done.outcome = .ok () ∧ (direct.run codes source).outcome = .ok () ∧
        elementBytes (direct.run codes source).written 1 0 = [97] ∧
        ∀ place < 3, elementBytes done.written 1 place =
          elementBytes (direct.run codes source).written 1 place := by
  have valid : leastScale.validate .quint8 = .ok () := by
    unfold Quantization.validate
    rw [if_neg (by decide +kernel)]
    rfl
  have less : (Float32.ofBits 0x80000003 : Float32) < Float32.ofBits 5 :=
    (Binary32.lt_iff (by decide) (by decide)).mpr (by decide +kernel)
  obtain ⟨back, confined⟩ := code_clamp_equals_number_clamp.1 leastScale .quint8 (.inr rfl) valid 90
    (by decide) (by decide) (Float32.ofBits 0x8000000a) (by decide +kernel) (by decide)
  refine ⟨⟨back, confined _ _ (by decide) (by decide) less⟩, ?_⟩
  obtain ⟨direct, clampsCodes, directNode⟩ := CompiledStep.exists_turns
    (onlyNode (.quint8, some leastScale) (.quint8, some leastScale) .clamp leastRange)
    (by decide +kernel) rfl ⟨_, rfl, rfl⟩ ⟨_, rfl, rfl⟩
  obtain ⟨load, loads, _⟩ := CompiledStep.exists_turns
    (onlyNode (.quint8, some leastScale) (.float32, none) .convert .none) (by decide +kernel) rfl
    ⟨_, rfl, rfl⟩ ⟨_, rfl, rfl⟩
  obtain ⟨clamp, clampsNumbers, clampNode⟩ := CompiledStep.exists_turns
    (onlyNode (.float32, none) (.float32, none) .clamp leastRange) (by cbv) rfl ⟨_, rfl, rfl⟩
    ⟨_, rfl, rfl⟩
  obtain ⟨store, stores, _⟩ := CompiledStep.exists_turns
    (onlyNode (.float32, none) (.quint8, some leastScale) .convert .none) (by decide +kernel) rfl
    ⟨_, rfl, rfl⟩ ⟨_, rfl, rfl⟩
  have finite : CompiledStep.DenotesFinite .quint8 leastScale (Buffer.fresh #[90, 103, 200]) 3 := by
    have each : ∀ place < 3, (leastScale.dequantize
        (codeAt .quint8 (Buffer.fresh #[90, 103, 200]) place)).toOption.map Float32.isFinite =
          some true := by decide +kernel
    intro place inside x denoted
    have number := each place inside
    rw [denoted] at number
    exact Option.some.inj number
  obtain ⟨converts, alike⟩ := code_clamp_equals_number_clamp.2 .quint8 (.inr rfl) leastScale load
    store loads stores 3 (Buffer.fresh #[90, 103, 200]) (by decide) finite
  have clamps := alike direct clamp clampsCodes clampsNumbers (by rw [directNode, clampNode])
  have takes : ∀ {compiled : CompiledStep} {map : ElementMap},
      compiled.step.operator.Maps map → ∀ {width : Nat} {room : Buffer}, room.Fits width 3 →
        compiled.Takes ⟨[[3]], [3], .backwards, room⟩ width 3 :=
    fun {_ _} maps _ _ fits => ⟨(maps [[3]] [3]).1.mpr ⟨[3], rfl, rfl⟩, rfl, fits⟩
  obtain ⟨low, high, bounded, confines⟩ := (show direct.Turns .clamp _
    (Conversion.codeElement false, _) from clampsCodes).confinesCodes
  have codeBounds : leastScale.codeBounds .quint8 (Float32.ofBits 0x80000003) (Float32.ofBits 5) =
      .ok (97, 105) := by decide +kernel
  rw [directNode] at bounded
  cases codeBounds.symm.trans bounded
  have takesDirect := takes confines
    (show (Buffer.fresh (Array.replicate 3 0)).Fits 1 3 by decide)
  obtain ⟨_, confined, _⟩ := CompiledStep.run_maps confines ⟨rfl, rfl⟩ takesDirect
    (show (Buffer.fresh #[90, 103, 200]).Fits 1 3 by decide)
  have takesLoad := takes (show load.Turns .convert (Conversion.codeElement false, _) _
    from loads).loads (show (Buffer.fresh (Array.replicate 12 0)).Fits 4 3 by decide)
  have takesStore := takes (show store.Turns .convert _ (Conversion.codeElement false, _)
    from stores).stores (show (Buffer.fresh (Array.replicate 3 0)).Fits 1 3 by decide)
  obtain ⟨_, ended, each⟩ := converts _ _ takesLoad takesStore
  obtain ⟨endedDirect, _, _, endedLast, same⟩ := clamps _ _ _ _ takesDirect takesLoad
    (takes clampsNumbers.confines (show (Buffer.fresh (Array.replicate 12 0)).Fits 4 3 by decide))
    takesStore
  exact ⟨direct, load, clamp, store, ended, each 0 (by decide), endedLast, endedDirect,
    (Except.ok.inj (confined 0 (by decide))).symm.trans (by decide +kernel), same⟩

end TensorEngine
