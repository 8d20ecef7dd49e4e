import TensorEngine.Proofs.Graph.Admission
import TensorEngine.Proofs.Graph.ShapeRule
import TensorEngine.Proofs.Numeric.SinglePattern
import TensorEngine.Proofs.Tensor.CodeBounds

/-!
Contract: the rules for nodes, and that the builder enforces exactly them.

Owns:
- the rules of a kind, each on its own: how many inputs it demands, and the storage types,
  quantizations, parameters and shapes that fit;
- for each check of a node, the theorem that it passes exactly when its rule holds;
- `Graph.Accepts`, all rules together, and the theorem that a definition is accepted exactly then.

Does not own: the order of the checks, and the fault that is reported first.
-/

namespace TensorEngine

open TensorEngine.Numeric

/-! ## Shapes -/

namespace Shape

/-- The extent of a dimension counted from the innermost one. A missing dimension counts as one. -/
def extentAt (shape : Shape) (axis : Nat) : Nat := shape.reverse.getD axis 1

/-- Two extents have this one in common: each is it, or is one and stretches to it. -/
def Joins (left right extent : Nat) : Prop :=
  left = extent ∧ right = extent ∨ left = 1 ∧ right = extent ∨ left = extent ∧ right = 1

/-- Two shapes, aligned at the innermost dimension, have this one in common. -/
structure Broadcasts (left right output : Shape) : Prop where
  rank : output.length = max left.length right.length
  joins : ∀ axis, Joins (left.extentAt axis) (right.extentAt axis) (output.extentAt axis)

theorem joinExtent?_eq_some_iff {left right extent : Nat} :
    joinExtent? left right = some extent ↔ Joins left right extent := by
  unfold joinExtent? Joins
  split
  · rw [Option.some.injEq]
    omega
  · split
    · rw [Option.some.injEq]
      omega
    · split
      · rw [Option.some.injEq]
        omega
      · simp only [reduceCtorEq, false_iff]
        omega

theorem joins_one_left {right extent : Nat} : Joins 1 right extent ↔ right = extent := by
  unfold Joins
  omega

theorem joins_one_right {left extent : Nat} : Joins left 1 extent ↔ left = extent := by
  unfold Joins
  omega

/-- Lists of the same length with the same elements, default included, are the same. -/
theorem eq_iff_getD {left right : List Nat} :
    left = right ↔ left.length = right.length ∧ ∀ axis, left.getD axis 1 = right.getD axis 1 := by
  refine ⟨by rintro rfl; exact ⟨rfl, fun _ => rfl⟩, fun ⟨same, elements⟩ => ?_⟩
  refine List.ext_getElem same fun axis inside insideRight => ?_
  have element := elements axis
  rwa [List.getD_eq_getElem _ _ inside, List.getD_eq_getElem _ _ insideRight] at element

/-- The common shape, innermost dimension first, dimension by dimension. -/
theorem joinInner?_eq_some_iff {left right output : Shape} :
    joinInner? left right = some output ↔
      output.length = max left.length right.length ∧
        ∀ axis, Joins (left.getD axis 1) (right.getD axis 1) (output.getD axis 1) := by
  induction left generalizing right output with
  | nil =>
      simp only [joinInner?, Option.some.injEq, List.getD_nil, joins_one_left, List.length_nil,
        Nat.zero_max]
      rw [eq_iff_getD]
      exact and_congr_left' eq_comm
  | cons extent left inductionHypothesis =>
      cases right with
      | nil =>
          simp only [joinInner?, Option.some.injEq, List.getD_nil, joins_one_right,
            List.length_nil, Nat.max_zero]
          rw [eq_iff_getD]
          exact and_congr_left' eq_comm
      | cons other right =>
          simp only [joinInner?_cons_eq_some_iff, joinExtent?_eq_some_iff, inductionHypothesis,
            List.length_cons, Nat.add_max_add_right]
          cases output with
          | nil => simp
          | cons joined inner =>
              rw [← Nat.and_forall_add_one]
              simp only [List.cons.injEq, List.length_cons, Nat.add_right_cancel_iff,
                List.getD_cons_zero, List.getD_cons_succ]
              constructor
              · rintro ⟨_, _, ⟨rfl, rfl⟩, joins, rank, rest⟩
                exact ⟨rank, joins, rest⟩
              · rintro ⟨rank, joins, rest⟩
                exact ⟨joined, inner, ⟨rfl, rfl⟩, joins, rank, rest⟩

theorem broadcast?_eq_some_iff {left right output : Shape} :
    broadcast? left right = some output ↔ left.Broadcasts right output := by
  rw [broadcast?_eq_some_iff_inner, joinInner?_eq_some_iff, List.length_reverse,
    List.length_reverse, List.length_reverse]
  exact ⟨fun ⟨rank, joins⟩ => ⟨rank, joins⟩, fun ⟨rank, joins⟩ => ⟨rank, joins⟩⟩

end Shape

/-- Accepted parameters compare equal only if they are the same. -/
theorem Quantization.beq_iff_eq_of_isScaled {left right : Quantization} (scaled : left.IsScaled)
    (scaledRight : right.IsScaled) : (left == right) = true ↔ left = right := by
  have scales := Binary32.beq_iff_eq_of_pos (Binary32.isFinite_iff.mp scaled.finite).1
    (Binary32.isFinite_iff.mp scaledRight.finite).1 scaled.positive scaledRight.positive
  obtain ⟨zeroPoint, scale⟩ := left
  obtain ⟨otherPoint, otherScale⟩ := right
  show (zeroPoint == otherPoint && scale == otherScale) = true ↔ _
  rw [Bool.and_eq_true, beq_iff_eq, scales, Quantization.mk.injEq]

namespace OpKind

variable {kind : OpKind}

/-- A check that refuses lets the rest run exactly when its condition fails. -/
theorem refused_eq_ok_iff {condition : Prop} [Decidable condition] {fault : GraphFault}
    {rest : Except GraphFault Unit} :
    (if condition then .error fault else rest) = .ok () ↔ ¬ condition ∧ rest = .ok () := by
  by_cases holds : condition <;> simp [holds]

/-! ## Counts of inputs -/

def Demands (kind : OpKind) (count : Nat) : Prop :=
  match kind with
  | add | subtract | multiply | maximum | minimum => count = 2
  | fullyConnected => count = 2 ∨ count = 3
  | abs | negate | clamp | sigmoid | tanh | leakyRelu | copy | convert | globalAveragePooling2d =>
      count = 1

theorem allows_iff {count : Nat} : kind.inputArity.allows count = true ↔ kind.Demands count := by
  cases kind
  case fullyConnected =>
    simp only [inputArity, InputArity.allows, Demands, decide_eq_true_eq]
    omega
  all_goals exact beq_iff_eq

/-! ## Storage types -/

/-- The storage types of the operands: a pair of a conversion, equal types with a wide bias for a
product of codes, and otherwise equal types that the kind works on. -/
def TypesFit (kind : OpKind) (inputs : List Value) (output : Value) : Prop :=
  match kind with
  | convert =>
      ∀ input ∈ inputs, (input.element, output.element) ∈
        [(ElementType.float32, ElementType.float16), (.float16, .float32), (.float32, .qint8),
          (.float32, .quint8), (.qint8, .float32), (.quint8, .float32)]
  | fullyConnected =>
      output.element ∈ [.float32, .float16, .qint8] ∧
        (∀ input ∈ inputs.take 2, input.element = output.element) ∧
        ∀ bias ∈ inputs.drop 2,
          bias.element = if output.element = .qint8 then .qint32 else output.element
  | abs | negate | maximum | minimum =>
      output.element ∈ [.float32, .float16] ∧ ∀ input ∈ inputs, input.element = output.element
  | clamp | sigmoid | tanh | leakyRelu | copy | add | subtract | multiply
  | globalAveragePooling2d =>
      output.element ∈ [.float32, .float16, .qint8, .quint8] ∧
        ∀ input ∈ inputs, input.element = output.element

theorem conversion?_isSome_iff {source target : ElementType} :
    (∃ compute, ComputeType.conversion? source target = some compute) ↔
      (source, target) ∈
        [(ElementType.float32, ElementType.float16), (.float16, .float32), (.float32, .qint8),
          (.float32, .quint8), (.qint8, .float32), (.quint8, .float32)] := by
  rw [← Option.isSome_iff_exists]
  cases source <;> cases target <;> decide

/-- Without conversion, types are checked one by one against what the output asks for. -/
theorem checkElements_iff {inputs : List Value} {output : Value} (notConvert : kind ≠ .convert) :
    (∃ compute, kind.checkElements inputs output = .ok compute) ↔
      output.element ∈ kind.elements ∧
        ∀ pair ∈ inputs.zip (kind.inputElements inputs.length output.element),
          pair.1.element = pair.2 := by
  simp only [checkElements_eq_ok_iff notConvert]
  constructor
  · rintro ⟨_, listed, same, _⟩
    exact ⟨listed, same⟩
  · rintro ⟨listed, same⟩
    have narrow : output.element ≠ .qint32 := by
      intro wide
      rw [wide] at listed
      revert listed
      cases kind <;> decide
    have found : ∃ compute, ComputeType.ofElement? output.element = some compute := by
      cases element : output.element
      case qint32 => exact absurd element narrow
      all_goals exact ⟨_, rfl⟩
    obtain ⟨compute, found⟩ := found
    exact ⟨compute, listed, same, found⟩

/-- Operators without conversion and products ask for one type throughout. -/
theorem forall_zip_replicate {inputs : List Value} {element : ElementType} :
    (∀ pair ∈ inputs.zip (List.replicate inputs.length element), pair.1.element = pair.2) ↔
      ∀ input ∈ inputs, input.element = element := by
  induction inputs with
  | nil => simp
  | cons input inputs inductionHypothesis =>
      rw [List.length_cons, List.replicate_succ, List.zip_cons_cons, List.forall_mem_cons,
        List.forall_mem_cons, inductionHypothesis]

/-- The check of storage types passes for the types that fit. -/
theorem exists_checkElements_iff {inputs : List Value} {output : Value}
    (demanded : kind.Demands inputs.length) :
    (∃ compute, kind.checkElements inputs output = .ok compute) ↔
      kind.TypesFit inputs output := by
  cases kind
  case convert =>
    obtain ⟨input, rfl⟩ := List.length_eq_one_iff.mp demanded
    show (∃ compute, checkConversion input.element output.element = .ok compute) ↔ _
    simp only [checkConversion_eq_ok_iff, TypesFit, List.forall_mem_singleton]
    exact conversion?_isSome_iff
  case fullyConnected =>
    rw [checkElements_iff (by decide)]
    refine and_congr_right fun _ => ?_
    rcases demanded with two | three
    · obtain ⟨input, filter, rfl⟩ := List.length_eq_two.mp two
      simp [inputElements]
    · obtain ⟨input, filter, bias, rfl⟩ := List.length_eq_three.mp three
      simp [inputElements, biasElement, and_assoc]
  all_goals
    rw [checkElements_iff (by decide)]
    exact and_congr_right fun _ => forall_zip_replicate

/-! ## Quantization -/

/-- The quantizations of the operands: clamping and copying keep them as they are, and a filter of
codes is symmetric. -/
def QuantizationsFit (kind : OpKind) (inputs : List Value) (output : Value) : Prop :=
  match kind with
  | clamp | copy =>
      output.element.isQuantized = true →
        ∀ input ∈ inputs, input.quantization = output.quantization
  | fullyConnected =>
      output.element = .qint8 →
        ∀ filter, inputs[1]? = some filter → filter.quantization.map (·.zeroPoint) = some 0
  | _ => True

/-- Codes of described tensors are kept only if the quantizations are the same, and not just equal
as numbers. -/
theorem bne_quantization_iff {input output : Value} (sound : input.Sound)
    (soundOutput : output.Sound) (same : input.element = output.element)
    (coded : output.element.isQuantized = true) :
    (input.quantization != output.quantization) = false ↔
      input.quantization = output.quantization := by
  obtain ⟨left, found, valid⟩ := sound.exists_quantization (by rw [same]; exact coded)
  obtain ⟨right, foundOutput, validOutput⟩ := soundOutput.exists_quantization coded
  rw [found, foundOutput, bne, Bool.not_eq_false', Option.some_beq_some, Option.some.injEq]
  exact Quantization.beq_iff_eq_of_isScaled (Quantization.isScaled_of_validate valid)
    (Quantization.isScaled_of_validate validOutput)

theorem checkQuantization_eq_ok_iff {inputs : List Value} {output : Value}
    (demanded : kind.Demands inputs.length) (types : kind.TypesFit inputs output)
    (sound : ∀ input ∈ inputs, input.Sound) (soundOutput : output.Sound) :
    kind.checkQuantization inputs output = .ok () ↔ kind.QuantizationsFit inputs output := by
  have kept : ∀ input : Value, input.Sound → input.element = output.element →
      ∀ fault : GraphFault,
      (if (output.element.isQuantized && input.quantization != output.quantization) = true then
        .error fault else .ok () : Except GraphFault Unit) = .ok () ↔
      (output.element.isQuantized = true → input.quantization = output.quantization) := by
    intro input soundInput same fault
    rw [refused_eq_ok_iff, and_iff_left rfl, Bool.and_eq_true, not_and, Bool.not_eq_true]
    exact forall_congr' (bne_quantization_iff soundInput soundOutput same)
  cases kind
  case clamp | copy =>
    obtain ⟨input, rfl⟩ := List.length_eq_one_iff.mp demanded
    simp only [QuantizationsFit, List.forall_mem_singleton]
    exact kept input (sound input List.mem_cons_self) (types.2 input List.mem_cons_self) _
  case fullyConnected =>
    obtain ⟨input, filter, rest, rfl⟩ : ∃ input filter rest, inputs = input :: filter :: rest := by
      rcases demanded with two | three
      · obtain ⟨input, filter, rfl⟩ := List.length_eq_two.mp two
        exact ⟨input, filter, [], rfl⟩
      · obtain ⟨input, filter, bias, rfl⟩ := List.length_eq_three.mp three
        exact ⟨input, filter, [bias], rfl⟩
    have same : filter.element = output.element := types.2.1 filter (by simp)
    have soundFilter := sound filter (by simp)
    simp only [QuantizationsFit, List.getElem?_cons_succ, List.getElem?_cons_zero,
      Option.some.injEq, forall_eq']
    unfold checkQuantization
    dsimp only
    cases found : filter.quantization with
    | none =>
        refine iff_of_true rfl fun codes => ?_
        have present := soundFilter.quantized
        rw [found, same, codes] at present
        cases present
    | some quantization =>
        rw [refused_eq_ok_iff, and_iff_left rfl, not_and, not_not, Option.map_some,
          Option.some.injEq]
  all_goals exact iff_of_true rfl trivial


/-! ## Parameters -/

/-- The parameters that a kind takes: a range that is not empty, a finite slope, or none. -/
def ParamsFit (kind : OpKind) (params : OpParams) : Prop :=
  match params with
  | .outputRange low high =>
      kind ∈ [clamp, add, subtract, multiply, globalAveragePooling2d, fullyConnected] ∧
        low.isNaN = false ∧ high.isNaN = false ∧ low < high
  | .negativeSlope slope => kind = leakyRelu ∧ slope.isFinite = true
  | .none => kind ∈ [abs, negate, sigmoid, tanh, copy, convert, maximum, minimum]

theorem checkParams_eq_ok_iff {params : OpParams} :
    kind.checkParams params = .ok () ↔ kind.ParamsFit params := by
  unfold checkParams ParamsFit
  cases params with
  | none =>
      rw [refused_eq_ok_iff, and_iff_left rfl]
      cases kind <;> decide
  | negativeSlope slope =>
      dsimp only
      rw [refused_eq_ok_iff, refused_eq_ok_iff, and_iff_left rfl, not_not, Bool.not_eq_true',
        Bool.not_eq_false]
  | outputRange low high =>
      have ranged : ¬ (!kind.takesRange) = true ↔
          kind ∈ [clamp, add, subtract, multiply, globalAveragePooling2d, fullyConnected] := by
        cases kind <;> decide
      dsimp only
      rw [refused_eq_ok_iff, refused_eq_ok_iff, refused_eq_ok_iff, and_iff_left rfl, ranged,
        Bool.or_eq_true, not_or, Bool.not_eq_true, Bool.not_eq_true, and_assoc]
      refine and_congr_right fun _ => and_congr_right fun number => and_congr_right fun other => ?_
      rw [Binary32.le_iff other number, Binary32.lt_iff number other, not_le]

/-! ## Shapes -/

/-- The shape of an output follows from those of the inputs. Pooling and products may flatten it to
rank two, where the outer extents of a product become one extent, their product as words. -/
inductive ShapesFit (flags : UInt32) : OpKind → List Shape → Shape → Prop where
  | unary {kind : OpKind} {shape : Shape} (maps : kind.isUnary = true) :
      ShapesFit flags kind [shape] shape
  | binary {kind : OpKind} {left right output : Shape} (combines : kind.isBinary = true)
      (broadcasts : left.Broadcasts right output) : ShapesFit flags kind [left, right] output
  | pooled (images height width channels : Nat) :
      ShapesFit flags globalAveragePooling2d [[images, height, width, channels]]
        [images, 1, 1, channels]
  | pooledFlat (images height width channels : Nat) :
      ShapesFit flags globalAveragePooling2d [[images, height, width, channels]] [images, channels]
  | product (outer : Shape) (inner outputs : Nat) {bias : List Shape}
      (fits : ∀ shape ∈ bias, shape = [outputs]) :
      ShapesFit flags fullyConnected
        ((outer ++ [inner]) ::
          (if transposedFilter flags then [inner, outputs] else [outputs, inner]) :: bias)
        (outer ++ [outputs])
  | productFlat (outer : Shape) (inner outputs : Nat) {rows : Nat} {bias : List Shape}
      (counted : outer.wordCount = .ok rows) (fits : ∀ shape ∈ bias, shape = [outputs]) :
      ShapesFit flags fullyConnected
        ((outer ++ [inner]) ::
          (if transposedFilter flags then [inner, outputs] else [outputs, inner]) :: bias)
        [rows, outputs]

/-- A product has a shape exactly when input and filter have the same inner channels and the bias,
if there is one, has the outer channels of the filter. -/
theorem productShape_iff {flags : UInt32} {input filter output : Shape} {bias : Option Shape} :
    productShape input filter bias flags output.length = .ok output ↔
      ∃ (outer : Shape) (inner outputs : Nat), input = outer ++ [inner] ∧
        filter = (if transposedFilter flags then [inner, outputs] else [outputs, inner]) ∧
        (∀ shape, bias = some shape → shape = [outputs]) ∧
        (output = outer ++ [outputs] ∨ output = [outer.elementCount, outputs]) := by
  have flattened : ∀ (outer : Shape) (outputs : Nat),
      (output = if output.length = 2 ∧ outer.length ≠ 1 then [outer.elementCount, outputs]
        else outer ++ [outputs]) ↔
      output = outer ++ [outputs] ∨ output = [outer.elementCount, outputs] := by
    intro outer outputs
    constructor
    · intro same
      split at same
      · exact .inr same
      · exact .inl same
    · rintro (kept | flat)
      · rw [if_neg, kept]
        rw [kept, List.length_append, List.length_singleton]
        omega
      · by_cases single : outer.length = 1
        · obtain ⟨extent, rfl⟩ := List.length_eq_one_iff.mp single
          rw [if_neg (not_and_not_right.mpr fun _ => single), flat]
          show [extent * 1, outputs] = [extent, outputs]
          rw [Nat.mul_one]
        · rw [if_pos ⟨by rw [flat]; rfl, single⟩, flat]
  rw [productShape_eq_ok_iff]
  constructor
  · rintro ⟨inner, outputs, channels, last, fits, shape⟩
    refine ⟨input.dropLast, inner, outputs, ?_, filterChannels_eq_ok_iff.mp channels, fits,
      (flattened _ _).mp shape⟩
    obtain ⟨outer, rfl⟩ := List.getLast?_eq_some_iff.mp last
    rw [List.dropLast_concat]
  · rintro ⟨outer, inner, outputs, rfl, rfl, fits, shape⟩
    refine ⟨inner, outputs, filterChannels_eq_ok_iff.mpr rfl, List.getLast?_concat, fits, ?_⟩
    rw [List.dropLast_concat]
    exact (flattened _ _).mpr shape

/-- The shape rule gives the declared shape exactly when the shapes fit, as long as the elements of
the inputs can be counted. -/
theorem outputShape_eq_ok_iff {flags : UInt32} {inputs : List Shape} {output : Shape}
    (demanded : kind.Demands inputs.length)
    (sized : ∀ shape ∈ inputs, ∃ count, shape.wordCount = .ok count) :
    kind.outputShape flags inputs output.length = .ok output ↔
      ShapesFit flags kind inputs output := by
  constructor
  · intro found
    cases kind
    case globalAveragePooling2d =>
      obtain ⟨input, rfl⟩ := List.length_eq_one_iff.mp demanded
      obtain ⟨images, height, width, channels, rfl, same⟩ := pooledShape_eq_ok_iff.mp found
      split at same
      · rw [same]
        exact .pooledFlat images height width channels
      · rw [same]
        exact .pooled images height width channels
    case fullyConnected =>
      obtain ⟨input, filter, bias, rfl⟩ : ∃ input filter bias,
          inputs = input :: filter :: Option.toList bias := by
        rcases demanded with two | three
        · obtain ⟨input, filter, rfl⟩ := List.length_eq_two.mp two
          exact ⟨input, filter, none, rfl⟩
        · obtain ⟨input, filter, bias, rfl⟩ := List.length_eq_three.mp three
          exact ⟨input, filter, some bias, rfl⟩
      change productShape input filter bias.toList.head? flags output.length = _ at found
      rw [Option.head?_toList] at found
      obtain ⟨outer, inner, outputs, rfl, rfl, fits, rfl | rfl⟩ := productShape_iff.mp found
      · exact .product outer inner outputs fun shape listed => fits shape (by simpa using listed)
      · obtain ⟨count, counted⟩ := sized _ List.mem_cons_self
        exact .productFlat outer inner outputs (Shape.wordCount_of_append counted)
          fun shape listed => fits shape (by simpa using listed)
    case add | subtract | multiply | maximum | minimum =>
      obtain ⟨left, right, rfl⟩ := List.length_eq_two.mp demanded
      exact .binary rfl (Shape.broadcast?_eq_some_iff.mp (combinedShape_eq_ok_iff.mp found))
    all_goals
      obtain ⟨input, rfl⟩ := List.length_eq_one_iff.mp demanded
      cases found
      exact .unary rfl
  · intro fits
    cases fits with
    | unary maps =>
        unfold outputShape
        rw [if_pos maps]
    | binary combines broadcasts =>
        have other : kind.isUnary = false := by
          revert combines
          cases kind <;> decide
        unfold outputShape
        rw [if_neg (by rw [other]; decide), if_pos combines]
        exact combinedShape_eq_ok_iff.mpr (Shape.broadcast?_eq_some_iff.mpr broadcasts)
    | pooled images height width channels => rfl
    | pooledFlat images height width channels => rfl
    | product outer inner outputs fits =>
        exact productShape_iff.mpr ⟨outer, inner, outputs, rfl, rfl,
          fun shape given => fits shape (List.mem_of_mem_head? given), .inl rfl⟩
    | productFlat outer inner outputs counted fits =>
        exact productShape_iff.mpr ⟨outer, inner, outputs, rfl, rfl,
          fun shape given => fits shape (List.mem_of_mem_head? given),
          .inr (by rw [Shape.wordCount_eq counted])⟩

end OpKind

/-! ## Accepted definitions -/

namespace Graph

/-- All that the definition of a node is checked for, with the operands that are found. -/
structure Accepts (graph : Graph) (kind : OpKind) (inputs outputs : List ValueId)
    (params : OpParams) (flags : UInt32) (operands : List Value) (id : ValueId)
    (output : Value) : Prop where
  count : kind.Demands inputs.length
  single : outputs = [id]
  described : List.Forall₂ (fun (id : Nat) value =>
    graph.value? id = some value ∧ value.isDense = true) inputs operands
  describedOutput : graph.value? id = some output ∧ output.isDense = true
  notInput : id ∉ inputs
  unproduced : output.producer = none
  unread : output.consumers = []
  dynamic : output.contents = none
  types : kind.TypesFit operands output
  quantizations : kind.QuantizationsFit operands output
  weights : kind = .fullyConnected → ∀ weight ∈ operands.drop 1, weight.isStatic = true
  params : kind.ParamsFit params
  shapes : OpKind.ShapesFit flags kind (operands.map (·.shape)) output.shape

variable {graph : Graph} {kind : OpKind} {inputs outputs : List ValueId} {params : OpParams}
  {flags : UInt32}

/-- The checks of a node pass together exactly when all its rules hold. -/
theorem WellFormed.exists_computeOf_iff (wellFormed : graph.WellFormed) (sized : graph.SizesFit)
    (unsealed : graph.isSealed = false) :
    (∃ compute, graph.computeOf kind inputs outputs params flags = .ok compute) ↔
      ∃ operands id output,
        graph.Accepts kind inputs outputs params flags operands id output := by
  have soundOperands : ∀ {operands : List Value},
      List.Forall₂ (fun (id : Nat) value => graph.value? id = some value ∧ value.isDense = true)
        inputs operands → ∀ operand ∈ operands, operand.Sound := by
    intro operands found operand listed
    obtain ⟨id, _, described⟩ := exists_of_forall₂_right found listed
    exact wellFormed.sound described.1 described.2
  have countedOperands : ∀ {operands : List Value},
      List.Forall₂ (fun (id : Nat) value => graph.value? id = some value ∧ value.isDense = true)
        inputs operands →
      ∀ shape ∈ operands.map (·.shape), ∃ count, shape.wordCount = .ok count := by
    intro operands found shape listed
    obtain ⟨operand, among, rfl⟩ := List.mem_map.mp listed
    obtain ⟨id, _, described⟩ := exists_of_forall₂_right found among
    exact (sized operand (List.mem_of_getElem? described.1)).count
  simp only [computeOf_eq_ok_iff, mapM_eq_ok_iff, dense_eq_ok_iff, Value.checkOutput_eq_ok_iff,
    OpKind.checkArity_eq_ok_iff, OpKind.allows_iff, OpKind.checkWeights_eq_ok_iff,
    OpKind.checkParams_eq_ok_iff, OpKind.checkShape_eq_ok_iff]
  constructor
  · rintro ⟨compute, -, ⟨count, single⟩, operands, described, output, describedOutput,
      ⟨notInput, unproduced, unread, dynamic⟩, elements, quantization, weights, params, shape⟩
    obtain ⟨id, rfl⟩ := List.length_eq_one_iff.mp single
    rw [List.headD_cons] at describedOutput
    have demanded : kind.Demands operands.length := described.length_eq ▸ count
    have types := (OpKind.exists_checkElements_iff demanded).mp ⟨compute, elements⟩
    rw [wellFormed.value_id describedOutput.1] at notInput
    exact ⟨operands, id, output, {
      count := count
      single := rfl
      described := described
      describedOutput := describedOutput
      notInput := notInput
      unproduced := unproduced
      unread := unread
      dynamic := dynamic
      types := types
      quantizations := (OpKind.checkQuantization_eq_ok_iff demanded types
        (soundOperands described) (wellFormed.sound describedOutput.1 describedOutput.2)).mp
          quantization
      weights := weights
      params := params
      shapes := (OpKind.outputShape_eq_ok_iff (by rwa [List.length_map])
        (countedOperands described)).mp shape }⟩
  · rintro ⟨operands, id, output, accepts⟩
    have demanded : kind.Demands operands.length := accepts.described.length_eq ▸ accepts.count
    obtain ⟨compute, elements⟩ := (OpKind.exists_checkElements_iff demanded).mpr accepts.types
    have notInput := accepts.notInput
    rw [← wellFormed.value_id accepts.describedOutput.1] at notInput
    refine ⟨compute, unsealed, ⟨accepts.count, by rw [accepts.single]; rfl⟩, operands,
      accepts.described, output, ?_, ⟨notInput, accepts.unproduced, accepts.unread,
      accepts.dynamic⟩, elements, ?_, accepts.weights, accepts.params, ?_⟩
    · rw [accepts.single]
      exact accepts.describedOutput
    · exact (OpKind.checkQuantization_eq_ok_iff demanded accepts.types
        (soundOperands accepts.described)
        (wellFormed.sound accepts.describedOutput.1 accepts.describedOutput.2)).mpr
          accepts.quantizations
    · exact (OpKind.outputShape_eq_ok_iff (by rwa [List.length_map])
        (countedOperands accepts.described)).mpr accepts.shapes

/-- After any calls in which no size product overflows a word, an open graph with room in its table
accepts the definition of a node exactly when all its rules hold. -/
theorem defineNode_accepts_iff (count : Nat) (calls : List BuildCall)
    (sized : ∀ call ∈ calls, call.SizesFit) (kind : OpKind)
    (inputs outputs : List ValueId) (params : OpParams) (flags : UInt32)
    (unsealed : ((withExternalValues count).afterCalls calls).isSealed = false)
    (room : ((withExternalValues count).afterCalls calls).nodes.length < tableLimit) :
    (∃ node after, ((withExternalValues count).afterCalls calls).defineNode kind inputs outputs
      params flags = .ok (node, after)) ↔
      ∃ operands id output, ((withExternalValues count).afterCalls calls).Accepts kind inputs
        outputs params flags operands id output := by
  rw [← (wellFormed_afterCalls count calls).exists_computeOf_iff (sizesFit_afterCalls count sized)
    unsealed]
  simp only [defineNode_eq_ok_iff]
  constructor
  · rintro ⟨node, after, compute, admitted, _⟩
    exact ⟨compute, admitted⟩
  · rintro ⟨compute, admitted⟩
    exact ⟨_, _, compute, admitted, room, rfl, rfl⟩

/-- Six rows of four numbers in two dimensions, a filter for five output channels, and six rows of
five numbers. -/
def flattenedCalls : List BuildCall :=
  [.tensor ⟨.float32, [2, 3, 4], none, none, .none⟩,
    .tensor ⟨.float32, [5, 4], some (Array.replicate 80 0), none, .none⟩,
    .tensor ⟨.float32, [6, 5], none, none, .none⟩]

/-- The theorem applies to a product whose outer dimensions are flattened: it is accepted, so all
rules hold of it. -/
theorem defineNode_accepts_iff_flattened :
    let graph := (withExternalValues 0).afterCalls flattenedCalls
    (∀ call ∈ flattenedCalls, call.SizesFit) ∧ graph.isSealed = false ∧
      graph.nodes.length < tableLimit ∧
      ∃ operands id output, graph.Accepts .fullyConnected [0, 1] [2]
        (.outputRange Binary32.negativeInfinity Binary32.infinity) 0 operands id output := by
  intro graph
  have sized : ∀ call ∈ flattenedCalls, call.SizesFit := by decide
  exact ⟨sized, rfl, by decide, (defineNode_accepts_iff 0 flattenedCalls sized .fullyConnected
    [0, 1] [2] _ 0 rfl (by decide)).mp ⟨_, _, rfl⟩⟩

end Graph

end TensorEngine
