import Mathlib.Data.Option.Basic
import TensorEngine.Proofs.Kernel.Combining
import TensorEngine.Proofs.Kernel.PanelProducts
import TensorEngine.Proofs.Kernel.SoundCreation

/-!
Contract: products of numbers are folds over the input channels in their order.

Owns:
- `NumberProduct`, a product of numbers as a node declares it, and `NumberProduct.result`, the
  element that it leaves for a row and an output channel;
- the theorem that panels and biases packed for a node hold the weights and starts that it declares;
- the theorem on the contents that such a product gives for its output.

Does not own: which product is made for a node.

The scalar operations are not looked into: a result is the same expression of them, term by term.
-/

namespace TensorEngine

open Making TensorEngine.Numeric PackedWeights

/-! ## Products as nodes declare them -/

/-- How elements of one width are loaded as numbers, and numbers stored as elements. -/
structure NumberFormat where
  width : Nat
  load : List UInt8 → Float32
  store : Float32 → List UInt8
  width_pos : 0 < width

namespace NumberFormat

def of {α : Type} [Storage α] (load : α → Float32) (store : Float32 → α) : NumberFormat where
  width := Storage.width α
  load bytes := load (Storage.decode bytes)
  store value := Storage.encode (store value)
  width_pos := Storage.width_pos

def single : NumberFormat := .of (fun x : Float32 => x) fun x => x

def half : NumberFormat := .of Half.toFloat32 Half.ofFloat32

def ofCompute? : ComputeType → Option NumberFormat
  | .fp32 => some single
  | .fp16 => some half
  | _ => none

end NumberFormat

/-- A product of numbers as a node declares it: the format of all elements, the input and output
channels, the layout of the filter, the elements of filter and bias, and the range of the
results. -/
structure NumberProduct where
  format : NumberFormat
  inner : Nat
  outputs : Nat
  transposed : Bool
  filter : Bytes
  bias : Option Bytes
  range : Float32 × Float32

namespace NumberProduct

variable (product : NumberProduct)

/-- The element of the filter for an output and an input channel. A filter lists its elements by
output channel first, a transposed one by input channel first. -/
def entry (output input : Nat) : List UInt8 :=
  elementBytes product.filter product.format.width
    (if product.transposed then input * product.outputs + output
      else output * product.inner + input)

/-- The number that an output channel starts with: its bias, positive zero without one. -/
def start (output : Nat) : Float32 :=
  product.bias.elim Binary32.zero fun bytes =>
    product.format.load (elementBytes bytes product.format.width output)

/-- The sum of a row in an output channel, from the start over the input channels in order. -/
def sum (row : Nat → List UInt8) (output : Nat) : Float32 :=
  (List.range product.inner).foldl
    (fun sum input =>
      sum + product.format.load (row input) * product.format.load (product.entry output input))
    (product.start output)

/-- The element that a row leaves in an output channel. -/
def result (row : Nat → List UInt8) (output : Nat) : List UInt8 :=
  product.format.store
    (Binary32.bounded product.range.1 product.range.2 (product.sum row output))

/-- Two products multiply by the same weights, in whatever layouts their filters list them. -/
structure SameWeights (product other : NumberProduct) : Prop where
  format_eq : product.format = other.format
  inner_eq : product.inner = other.inner
  outputs_eq : product.outputs = other.outputs
  bias_eq : product.bias = other.bias
  range_eq : product.range = other.range
  entry_eq : ∀ output < product.outputs, ∀ input < product.inner,
    product.entry output input = other.entry output input

variable {product} {other : NumberProduct}

/-- The layout of a filter has no part in the results, down to their bits. -/
theorem SameWeights.result_eq (same : product.SameWeights other) (row : Nat → List UInt8)
    {output : Nat} (inside : output < product.outputs) :
    product.result row output = other.result row output := by
  have sums : product.sum row output = other.sum row output := by
    unfold sum start
    rw [← same.format_eq, ← same.inner_eq, ← same.bias_eq]
    refine List.foldl_ext _ _ _ fun sum input within => ?_
    rw [same.entry_eq output inside input (List.mem_range.mp within)]
  unfold result
  rw [sums, same.format_eq, same.range_eq]

end NumberProduct

/-- The input and output channels of a filter, which is a matrix. -/
def matrixChannels? (transposed : Bool) : Shape → Option (Nat × Nat)
  | [first, second] => some (if transposed then (first, second) else (second, first))
  | _ => none

theorem matrixChannels?_eq_some_iff {flags : UInt32} {filter : Shape} {channels : Nat × Nat} :
    matrixChannels? (transposedFilter flags) filter = some channels ↔
      filterChannels filter flags = .ok channels := by
  unfold matrixChannels? filterChannels
  split
  · by_cases transposed : transposedFilter flags = true <;> simp [transposed]
  · simp

/-- The product of numbers that a node declares in a table of values. -/
def Node.numberProduct? (node : Node) (values : List Value) : Option NumberProduct := do
  let format ← NumberFormat.ofCompute? node.compute
  let filter ← node.operand? values 1
  let channels ← matrixChannels? (transposedFilter node.flags) filter.shape
  let entries ← filter.contents
  let bias ← (node.operand? values 2).elim (some none) fun value => value.contents.map some
  return {
    format := format
    inner := channels.1
    outputs := channels.2
    transposed := transposedFilter node.flags
    filter := entries
    bias := bias
    range := node.params.range }

theorem Node.exists_of_numberProduct? {node : Node} {values : List Value} {declared : NumberProduct}
    (declares : node.numberProduct? values = some declared) :
    NumberFormat.ofCompute? node.compute = some declared.format ∧
      declared.transposed = transposedFilter node.flags ∧ declared.range = node.params.range ∧
      (∃ filter, node.operand? values 1 = some filter ∧
        filterChannels filter.shape node.flags = .ok (declared.inner, declared.outputs) ∧
        filter.contents = some declared.filter) ∧
      Option.Rel (fun value bytes => value.contents = some bytes) (node.operand? values 2)
        declared.bias := by
  unfold numberProduct? at declares
  obtain ⟨format, chosen, declares⟩ := Option.bind_eq_some_iff.mp declares
  obtain ⟨filter, found, declares⟩ := Option.bind_eq_some_iff.mp declares
  obtain ⟨sizes, channels, declares⟩ := Option.bind_eq_some_iff.mp declares
  obtain ⟨entries, contents, declares⟩ := Option.bind_eq_some_iff.mp declares
  obtain ⟨bias, given, same⟩ := Option.bind_eq_some_iff.mp declares
  cases same
  refine ⟨chosen, rfl, rfl,
    ⟨filter, found, matrixChannels?_eq_some_iff.mp channels, contents⟩, ?_⟩
  cases there : node.operand? values 2 with
  | none =>
      rw [there] at given
      cases given
      exact .none
  | some value =>
      rw [there] at given
      obtain ⟨bytes, held, rfl⟩ := Option.map_eq_some_iff.mp given
      exact .some held

/-! ## Packed weights of products of numbers -/

section Packed

variable {bias : Option Value} {given : Option Bytes} {outputs : Nat} {starts : Array Float32}

/-- Biases of single precision start with the given numbers. -/
theorem getElem?_singleBias
    (holds : Option.Rel (fun value bytes => value.contents = some bytes) bias given)
    (made : singleBias bias outputs = .ok starts) {output : Nat} (inside : output < outputs) :
    starts[output]? = some (given.elim Binary32.zero fun bytes =>
      (Storage.decode (elementBytes bytes (Storage.width Float32) output) : Float32)) := by
  unfold singleBias at made
  obtain ⟨blank, room, made⟩ := bind_eq_ok_iff.mp made
  cases holds with
  | none =>
      cases made
      exact getElem?_blankBias room inside
  | some held =>
      obtain ⟨_, static, made⟩ := bind_eq_ok_iff.mp made
      cases static.symm.trans (staticContents_of_contents held)
      obtain ⟨elements, viewed, made⟩ := bind_eq_ok_iff.mp made
      obtain ⟨taken, ran, made⟩ := bind_eq_ok_iff.mp made
      cases made
      obtain ⟨_, _, rfl⟩ := view_eq_ok_iff.mp viewed
      have ran := lift_eq_ok_iff.mp ran
      have enough := (front_eq_ok_iff.mp ran).1
      rw [decodeAll_size] at enough
      rw [singleBias.writeFront, Array.getElem?_append_left (by rw [canvas_size ran]; exact inside)]
      refine fetch_eq_ok_iff.mp ((fetch_front ran inside).trans (fetch_eq_ok_iff.mpr ?_))
      exact decodeAll_getElem? (Nat.lt_of_lt_of_le inside enough)

/-- Biases of half precision start with the given numbers, widened. -/
theorem getElem?_halfBias
    (holds : Option.Rel (fun value bytes => value.contents = some bytes) bias given)
    (enough : ∀ bytes, given = some bytes → outputs * Storage.width Half ≤ bytes.size)
    (made : halfBias bias outputs = .ok starts) {output : Nat} (inside : output < outputs) :
    starts[output]? = some (given.elim Binary32.zero fun bytes =>
      (Storage.decode (elementBytes bytes (Storage.width Half) output) : Half).toFloat32) := by
  unfold halfBias at made
  obtain ⟨blank, room, made⟩ := bind_eq_ok_iff.mp made
  cases holds with
  | none =>
      cases made
      exact getElem?_blankBias room inside
  | @some value bytes held =>
      obtain ⟨_, static, made⟩ := bind_eq_ok_iff.mp made
      cases static.symm.trans (staticContents_of_contents held)
      obtain ⟨elements, viewed, made⟩ := bind_eq_ok_iff.mp made
      cases made
      obtain ⟨_, _, decoded⟩ := view_eq_ok_iff.mp viewed
      obtain rfl : decodeAll bytes = elements := decoded
      have lanes := outputs_le_lanes outputs
      have size := blankBias_size room
      have there : output < bytes.size / Storage.width Half :=
        Nat.lt_of_lt_of_le inside
          ((Nat.le_div_iff_mul_le Storage.width_pos).mpr (enough bytes rfl))
      have found := decodeAll_getElem? (α := Half) there
      have bound := there
      rw [← decodeAll_size (α := Half)] at bound
      have front : output < min blank.size (decodeAll bytes : Array Half).size - 0 := by omega
      rw [Array.getElem?_append_left (by rw [Array.size_map, Array.size_extract]; exact front),
        Array.getElem?_map, Array.getElem?_extract, if_pos front, Nat.zero_add]
      exact congrArg (Option.map Half.toFloat32) found

theorem exists_of_packNumbers {α : Type} [Storage α] {load : α → Float32} {bytes : Bytes}
    {inner : Nat} {transposed : Bool} {biases : Outcome (Array Float32)} {weights : PackedWeights}
    (packed : (do
      let entries ← Outcome.view α (Buffer.fresh bytes)
      let panels ← packPanels entries inner outputs transposed Binary32.zero load 4
      return (⟨inner, outputs, .floats panels (← biases)⟩ : PackedWeights)) = .ok weights) :
    ∃ panels starts, weights = ⟨inner, outputs, .floats panels starts⟩ ∧
      packPanels (decodeAll bytes) inner outputs transposed Binary32.zero load 4 = .ok panels ∧
      biases = .ok starts := by
  obtain ⟨entries, viewed, packed⟩ := bind_eq_ok_iff.mp packed
  obtain ⟨panels, filled, packed⟩ := bind_eq_ok_iff.mp packed
  obtain ⟨starts, made, packed⟩ := bind_eq_ok_iff.mp packed
  cases packed
  obtain ⟨_, _, rfl⟩ := view_eq_ok_iff.mp viewed
  exact ⟨panels, starts, rfl, filled, made⟩

variable {filter : Value} {flags : UInt32} {zeroPoint : Int32} {weights : PackedWeights}
  {inner : Nat} {bytes : Bytes}

/-- The panels and the starts that numbers of single precision are packed into. -/
theorem exists_of_pack_single (packed : pack .fp32 filter bias flags zeroPoint = .ok weights)
    (channels : filterChannels filter.shape flags = .ok (inner, outputs))
    (contents : filter.contents = some bytes) :
    ∃ panels starts, weights = ⟨inner, outputs, .floats panels starts⟩ ∧
      packPanels (decodeAll bytes) inner outputs (transposedFilter flags) Binary32.zero
        (fun number : Float32 => number) 4 = .ok panels ∧
      singleBias bias outputs = .ok starts := by
  obtain ⟨_, read, packed⟩ := bind_eq_ok_iff.mp packed
  cases channels.symm.trans (mapError_eq_ok_iff.mp read)
  obtain ⟨_, static, packed⟩ := bind_eq_ok_iff.mp packed
  cases static.symm.trans (staticContents_of_contents contents)
  exact exists_of_packNumbers packed

/-- The panels and the starts that numbers of half precision are packed into. -/
theorem exists_of_pack_half (packed : pack .fp16 filter bias flags zeroPoint = .ok weights)
    (channels : filterChannels filter.shape flags = .ok (inner, outputs))
    (contents : filter.contents = some bytes) :
    ∃ panels starts, weights = ⟨inner, outputs, .floats panels starts⟩ ∧
      packPanels (decodeAll bytes) inner outputs (transposedFilter flags) Binary32.zero
        Half.toFloat32 4 = .ok panels ∧
      halfBias bias outputs = .ok starts := by
  obtain ⟨_, read, packed⟩ := bind_eq_ok_iff.mp packed
  cases channels.symm.trans (mapError_eq_ok_iff.mp read)
  obtain ⟨_, static, packed⟩ := bind_eq_ok_iff.mp packed
  cases static.symm.trans (staticContents_of_contents contents)
  exact exists_of_packNumbers packed

end Packed

/-- Panels and starts that are packed from a filter and a bias hold what a product declares. -/
theorem NumberProduct.holdsChannels {α : Type} [Storage α] {load : α → Float32}
    {store : Float32 → α} {declared : NumberProduct} (format : declared.format = .of load store)
    {panels starts : Array Float32}
    (filled : packPanels (decodeAll declared.filter) declared.inner declared.outputs
      declared.transposed Binary32.zero load 4 = .ok panels)
    (lanes : starts.size = panelCount declared.outputs * panelWidth)
    (begins : ∀ output < declared.outputs, starts[output]? =
      some (declared.bias.elim Binary32.zero fun bytes =>
        load (Storage.decode (elementBytes bytes (Storage.width α) output)))) :
    HoldsChannels panels starts declared.inner declared.outputs
      (fun output input => declared.format.load (declared.entry output input))
      declared.start := by
  refine ⟨packPanels_size filled, lanes, ?_, ?_⟩
  · intro output outputInside input inputInside
    obtain ⟨entry, found, held⟩ := getElem?_packPanels filled outputInside inputInside
    have inside := (Array.getElem?_eq_some_iff.mp found).1
    rw [decodeAll_size] at inside
    cases (decodeAll_getElem? inside).symm.trans found
    unfold NumberProduct.entry
    rw [held, format]
    rfl
  · intro output inside
    unfold start
    rw [format]
    exact begins output inside

/-- A bias that a product declares has a number for every output channel. -/
def NumberProduct.WholeBias (declared : NumberProduct) : Prop :=
  ∀ bytes, declared.bias = some bytes → declared.outputs * declared.format.width ≤ bytes.size

/-- What is packed for a node holds the weights and starts that it declares. -/
theorem Node.exists_holdsNumbers {node : Node} {values : List Value} {declared : NumberProduct}
    (multiply : node.kind = .fullyConnected)
    (declares : node.numberProduct? values = some declared) (whole : declared.WholeBias)
    {weights : PackedWeights} (alone : node.PackedAlone values weights) :
    ∃ panels starts, weights = ⟨declared.inner, declared.outputs, .floats panels starts⟩ ∧
      HoldsChannels panels starts declared.inner declared.outputs
        (fun output input => declared.format.load (declared.entry output input))
        declared.start := by
  obtain ⟨chosen, layout, -, ⟨filter, found, channels, contents⟩, biases⟩ :=
    exists_of_numberProduct? declares
  obtain ⟨_, _, same, packed⟩ := alone
  cases (productWeights?_of_operand multiply found).symm.trans same
  cases compute : node.compute with
  | fp32 =>
      rw [compute] at chosen packed
      have format := (Option.some.inj chosen).symm
      obtain ⟨panels, starts, rfl, filled, made⟩ := exists_of_pack_single packed channels contents
      rw [← layout] at filled
      exact ⟨panels, starts, rfl, NumberProduct.holdsChannels format filled (singleBias_size made)
        fun output inside => getElem?_singleBias biases made inside⟩
  | fp16 =>
      rw [compute] at chosen packed
      have format := (Option.some.inj chosen).symm
      obtain ⟨panels, starts, rfl, filled, made⟩ := exists_of_pack_half packed channels contents
      rw [← layout] at filled
      unfold NumberProduct.WholeBias at whole
      rw [format] at whole
      exact ⟨panels, starts, rfl, NumberProduct.holdsChannels format filled (halfBias_size made)
        fun output inside => getElem?_halfBias biases whole made inside⟩
  | _ =>
      rw [compute] at chosen
      cases chosen

/-! ## Declared products -/

section Context

variable {context : CreateContext} {operands : List Value} {output : Value} {format : NumberFormat}

/-- The elements of an admitted product of numbers, those of its bias included, have the width of
its format. -/
theorem CreateContext.Admits.format_width (admits : context.Admits operands output)
    (multiply : context.node.kind = .fullyConnected)
    (chosen : NumberFormat.ofCompute? context.node.compute = some format) :
    (OpKind.biasElement output.element).width = format.width := by
  obtain ⟨_, computed⟩ := admits.node.computed (by rw [multiply]; decide)
  rcases OpKind.ofElement?_eq_some_iff.mp computed with
    ⟨element, compute⟩ | ⟨element, compute⟩ | ⟨_, compute⟩ | ⟨_, compute⟩ <;>
    rw [compute] at chosen <;> cases chosen
  · rw [element]
    rfl
  · rw [element]
    rfl

/-- Every admitted product of numbers declares one. -/
theorem CreateContext.Admits.exists_numberProduct (admits : context.Admits operands output)
    (multiply : context.node.kind = .fullyConnected)
    (chosen : NumberFormat.ofCompute? context.node.compute = some format) :
    ∃ declared, context.node.numberProduct? context.values = some declared ∧
      declared.WholeBias := by
  obtain ⟨input, filter, bias, given⟩ := admits.node.exists_productOperands multiply
  have operand := admits.node.operand?_eq
  have sound := admits.soundOperands
  rw [given.operands_eq] at operand sound
  obtain ⟨inner, outputs, channels, _, row, _⟩ := OpKind.productShape_eq_ok_iff.mp given.shape
  obtain ⟨bytes, weights⟩ := (sound filter (by simp)).weights given.filter_static
  have declares : ∀ held, bias.elim (some none) (fun value => value.contents.map some) = some held →
      context.node.numberProduct? context.values = some
        { format := format
          inner := inner
          outputs := outputs
          transposed := transposedFilter context.node.flags
          filter := bytes
          bias := held
          range := context.node.params.range } := by
    intro held contents
    have third : context.node.operand? context.values 2 = bias := by
      rw [operand 2]
      cases bias <;> rfl
    unfold Node.numberProduct?
    exact Option.bind_eq_some_iff.mpr ⟨format, chosen, Option.bind_eq_some_iff.mpr ⟨filter,
      operand 1, Option.bind_eq_some_iff.mpr ⟨(inner, outputs),
        matrixChannels?_eq_some_iff.mpr channels, Option.bind_eq_some_iff.mpr ⟨bytes,
          weights.contents_eq, Option.bind_eq_some_iff.mpr ⟨held, third ▸ contents, rfl⟩⟩⟩⟩⟩
  cases bias with
  | none => exact ⟨_, declares none rfl, fun _ none => nomatch none⟩
  | some value =>
      obtain ⟨element, static⟩ := given.bias_element value rfl
      obtain ⟨held, biases⟩ := (sound value (by simp)).weights static
      refine ⟨_, declares (some held) (by rw [Option.elim_some, biases.contents_eq]; rfl), ?_⟩
      rintro _ ⟨⟩
      have shape : value.shape = [outputs] := row value.shape rfl
      rw [biases.filled, Value.byteCount, shape, element, admits.format_width multiply chosen]
      exact Nat.le_of_eq (by rw [Shape.elementCount, Shape.elementCount, Nat.mul_one])

end Context

/-! ## Contents -/

namespace Product

variable {product : Product} {declared : NumberProduct}

/-- An operator folds as a node declares. -/
structure Folds (product : Product) (declared : NumberProduct) : Prop where
  body : (declared.format = .single ∧
      product.body = .single declared.range.1 declared.range.2) ∨
    (declared.format = .half ∧ product.body = .half declared.range.1 declared.range.2)
  weights : ∃ panels starts,
    product.artifact.weights = ⟨declared.inner, declared.outputs, .floats panels starts⟩ ∧
      HoldsChannels panels starts declared.inner declared.outputs
        (fun output input => declared.format.load (declared.entry output input)) declared.start

/-- A product that is made for a node with its own weights folds as the node declares. -/
theorem MadeOf.folds {context : CreateContext} {input filter output : Value} {zeroPoint : Int32}
    (made : product.MadeOf context input filter output zeroPoint)
    (multiply : context.node.kind = .fullyConnected)
    (alone : context.node.PackedAlone context.values product.artifact.weights)
    (declares : context.node.numberProduct? context.values = some declared)
    (whole : declared.WholeBias) : product.Folds declared := by
  refine ⟨?_, Node.exists_holdsNumbers multiply declares whole alone⟩
  obtain ⟨chosen, _, range, _⟩ := Node.exists_of_numberProduct? declares
  have body := made.body
  rw [range]
  cases compute : context.node.compute with
  | fp32 =>
      rw [compute] at chosen body
      injection body with body
      exact .inl ⟨(Option.some.inj chosen).symm, (Option.some.inj (Prod.mk.inj body).1).symm⟩
  | fp16 =>
      rw [compute] at chosen body
      injection body with body
      exact .inr ⟨(Option.some.inj chosen).symm, (Option.some.inj (Prod.mk.inj body).1).symm⟩
  | _ =>
      rw [compute] at chosen
      cases chosen

theorem Folds.setRows (folds : product.Folds declared) (rows : Nat) :
    Folds { product with rows := rows } declared :=
  ⟨folds.body, folds.weights⟩

theorem Folds.setup_eq (folds : product.Folds declared) {shapes : List Shape}
    {input output : Shape} (first : shapes[0]? = some input) (filled : input ≠ [])
    (channels : input.channels = declared.inner)
    (count : output.elementCount = input.batch * declared.outputs) :
    product.setup shapes output = ({ product with rows := input.batch }, .ok ()) := by
  obtain ⟨panels, starts, weights, _⟩ := folds.weights
  unfold setup
  rw [rowCount_eq_ok_iff.mpr ⟨input, first, filled, by rw [weights]; exact channels,
    by rw [weights]; exact count, rfl⟩]

variable {inputs : List Buffer} {source room : Buffer}

/-- A run of numbers of a storage type writes the result of every row in every output channel. -/
theorem Folds.floatContents {α : Type} [Storage α] (folds : product.Folds declared)
    {load : α → Float32} {store : Float32 → α} (format : declared.format = .of load store)
    (schedule : Schedule) (first : inputs[0]? = some source)
    (fits : source.Fits (Storage.width α) (product.rows * declared.inner))
    (fitsRoom : room.Fits (Storage.width α) (product.rows * declared.outputs)) :
    ∃ bytes,
      product.floatContents load store declared.range.1 declared.range.2 schedule inputs room =
        .ok bytes ∧ bytes.size = product.rows * declared.outputs * Storage.width α ∧
      ∀ row < product.rows, ∀ channel < declared.outputs,
        elementBytes (overlay room.bytes bytes) (Storage.width α)
            (row * declared.outputs + channel) =
          declared.result
            (fun input => elementBytes source.bytes (Storage.width α)
              (row * declared.inner + input)) channel := by
  obtain ⟨panels, starts, weights, holds⟩ := folds.weights
  have enough : product.rows * declared.inner ≤ source.bytes.size / Storage.width α :=
    (Nat.le_div_iff_mul_le Storage.width_pos).mpr fits.enough
  have enoughRoom : product.rows * declared.outputs ≤ room.bytes.size / Storage.width α :=
    (Nat.le_div_iff_mul_le Storage.width_pos).mpr fitsRoom.enough
  obtain ⟨_, viewed, _⟩ := fits.exists_front
  obtain ⟨_, viewedRoom, _⟩ := fitsRoom.exists_front
  unfold Product.floatContents
  rw [weights]
  dsimp only
  obtain ⟨written, ran, size, each⟩ := HoldsChannels.multiplyRows_writes
    ⟨declared.inner, declared.outputs, .floats panels starts⟩ holds
    (fun sum element weight => sum + load element * weight) (fun _ => ⟨_, rfl⟩) schedule
    product.tileElements ⟨source, first, viewed⟩ viewedRoom (by rw [decodeAll_size]; exact enough)
    (fits.count_lt Storage.width_pos) (by rw [decodeAll_size]; exact enoughRoom)
    (fun index inside => decodeAll_getElem? (Nat.lt_of_lt_of_le inside enough))
  refine ⟨encodeAll written, ran, by rw [encodeAll_size, size], ?_⟩
  intro row rowInside channel inside
  obtain ⟨value, found, valued⟩ := each row rowInside channel inside
  rw [elementBytes_overlay (by rw [size]; exact fitsRoom.enough) found, ← Except.ok.inj valued]
  unfold NumberProduct.result NumberProduct.sum
  rw [format]
  rfl

/-- A run writes the result of every row in every output channel. -/
theorem Folds.contents (folds : product.Folds declared) (schedule : Schedule)
    (first : inputs[0]? = some source)
    (fits : source.Fits declared.format.width (product.rows * declared.inner))
    (fitsRoom : room.Fits declared.format.width (product.rows * declared.outputs)) :
    ∃ bytes, product.contents schedule inputs room = .ok bytes ∧
      bytes.size = product.rows * declared.outputs * declared.format.width ∧
      ∀ row < product.rows, ∀ channel < declared.outputs,
        elementBytes (overlay room.bytes bytes) declared.format.width
            (row * declared.outputs + channel) =
          declared.result
            (fun input => elementBytes source.bytes declared.format.width
              (row * declared.inner + input)) channel := by
  unfold Product.contents
  rcases folds.body with ⟨format, body⟩ | ⟨format, body⟩
  · rw [format] at fits fitsRoom ⊢
    rw [body]
    exact folds.floatContents format schedule first fits fitsRoom
  · rw [format] at fits fitsRoom ⊢
    rw [body]
    exact folds.floatContents format schedule first fits fitsRoom

end Product

end TensorEngine
