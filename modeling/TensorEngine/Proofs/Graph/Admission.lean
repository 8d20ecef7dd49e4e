import TensorEngine.Proofs.Graph.WellFormed

/-!
Contract: what the checks of a node have established, and that it stays so.

Owns:
- when each check of a node passes;
- `Value.declared`, the part of a value that the checks read beside its shape;
- `Node.Admitted`, the checks of a node against a table of values;
- the storage types of the operands of an admitted node, and `ProductOperands`;
- the theorem that every node of a constructed graph is admitted by its final table.

Does not own: the agreement of the tables with each other.
-/

namespace TensorEngine

/-- A value as its definition declares it, apart from its shape and from the nodes at it. -/
def Value.declared (value : Value) : Value :=
  { value with shape := [], producer := none, consumers := [] }

/-! ## When the checks pass -/

theorem forIn_eq_ok_iff {ε α : Type} (elements : List α) (check : α → Except ε Unit) :
    (forIn elements PUnit.unit fun element _ => do
      check element
      pure (ForInStep.yield PUnit.unit)) = .ok PUnit.unit ↔
      ∀ element ∈ elements, check element = .ok () := by
  induction elements with
  | nil => simp [pure, Except.pure]
  | cons element elements inductionHypothesis =>
      rw [List.forIn_cons, List.forall_mem_cons, ← inductionHypothesis]
      cases check element with
      | error fault => simp [bind, Except.bind]
      | ok passed => simp [bind, Except.bind, pure, Except.pure]

theorem Value.expectElement_eq_ok_iff {value : Value} {kind : OpKind} {expected : ElementType} :
    value.expectElement kind expected = .ok () ↔ value.element = expected := by
  unfold Value.expectElement
  by_cases same : value.element = expected <;> simp [same]

namespace OpKind

variable {kind : OpKind} {inputs : List Value} {output : Value} {compute : ComputeType}

theorem checkElements_eq_ok_iff (notConvert : kind ≠ .convert) :
    kind.checkElements inputs output = .ok compute ↔
      output.element ∈ kind.elements ∧
        (∀ pair ∈ inputs.zip (kind.inputElements inputs.length output.element),
          pair.1.element = pair.2) ∧
        ComputeType.ofElement? output.element = some compute := by
  unfold checkElements
  split
  · exact absurd rfl notConvert
  · rw [guarded_eq_ok_iff, not_not, bind_eq_ok_iff]
    apply and_congr_right
    intro _
    have checked := forIn_eq_ok_iff
      (inputs.zip (kind.inputElements inputs.length output.element))
      (fun pair => pair.1.expectElement kind pair.2)
    simp only [Value.expectElement_eq_ok_iff] at checked
    constructor
    · rintro ⟨_, ran, found⟩
      refine ⟨checked.mp ran, ?_⟩
      split at found
      · rename_i same
        cases found
        exact same
      · cases found
    · rintro ⟨same, found⟩
      refine ⟨_, checked.mpr same, ?_⟩
      rw [found]
      rfl

theorem checkConversion_eq_ok_iff {source target : ElementType} :
    checkConversion source target = .ok compute ↔
      ComputeType.conversion? source target = some compute := by
  unfold checkConversion
  cases ComputeType.conversion? source target with
  | some found => simp
  | none =>
      simp only [reduceCtorEq, iff_false]
      split <;> simp

theorem checkWeights_eq_ok_iff :
    kind.checkWeights inputs = .ok () ↔
      (kind = .fullyConnected → ∀ weight ∈ inputs.drop 1, weight.isStatic = true) := by
  unfold checkWeights
  by_cases multiply : kind = .fullyConnected
  · rw [if_pos multiply]
    cases found : (inputs.drop 1).find? fun weight => !weight.isStatic with
    | none =>
        have static := List.find?_eq_none.mp found
        simpa [multiply] using static
    | some weight =>
        simp only [reduceCtorEq, multiply, forall_const, false_iff]
        intro static
        have dynamic := List.find?_some found
        rw [static weight (List.mem_of_find?_eq_some found)] at dynamic
        cases dynamic
  · simp [multiply]

theorem mem_conversions {source target : ElementType}
    (found : ComputeType.conversion? source target = some compute) :
    (source, target, compute) ∈ ComputeType.conversions := by
  unfold ComputeType.conversion? at found
  obtain ⟨pair, foundPair, rfl⟩ := Option.map_eq_some_iff.mp found
  have fits := List.find?_some foundPair
  rw [Bool.and_eq_true, beq_iff_eq, beq_iff_eq] at fits
  rw [← fits.1, ← fits.2]
  exact List.mem_of_find?_eq_some foundPair

/-- The compute types of operators whose operands share a storage type, with that type. -/
theorem ofElement?_eq_some_iff {element : ElementType} :
    ComputeType.ofElement? element = some compute ↔
      (element = .float32 ∧ compute = .fp32) ∨ (element = .float16 ∧ compute = .fp16) ∨
        (element = .qint8 ∧ compute = .qs8) ∨ (element = .quint8 ∧ compute = .qu8) := by
  cases element <;> simp [ComputeType.ofElement?, eq_comm]

theorem allows_zero (kind : OpKind) : kind.inputArity.allows 0 = false := by
  cases kind <;> rfl

theorem checkShape_eq_ok_iff {flags : UInt32} :
    kind.checkShape flags inputs output = .ok () ↔
      kind.outputShape flags (inputs.map (·.shape)) output.shape.length = .ok output.shape := by
  unfold checkShape
  cases kind.outputShape flags (inputs.map (·.shape)) output.shape.length with
  | error cause => simp
  | ok inferred => by_cases same : inferred = output.shape <;> simp [same]

/-! ## The checks read declared values -/

theorem checkElements_declared :
    kind.checkElements (inputs.map Value.declared) output.declared = .ok compute ↔
      kind.checkElements inputs output = .ok compute := by
  by_cases convert : kind = .convert
  · subst convert
    cases inputs with
    | nil => exact Iff.rfl
    | cons input inputs => exact Iff.rfl
  · rw [checkElements_eq_ok_iff convert, checkElements_eq_ok_iff convert, List.length_map,
      List.zip_map_left, List.forall_mem_map]
    exact Iff.rfl

theorem checkQuantization_declared :
    kind.checkQuantization (inputs.map Value.declared) output.declared =
      kind.checkQuantization inputs output := by
  unfold checkQuantization
  cases inputs with
  | nil => cases kind <;> rfl
  | cons input rest =>
      cases rest with
      | nil => cases kind <;> rfl
      | cons weight rest => cases kind <;> rfl

theorem checkWeights_declared :
    kind.checkWeights (inputs.map Value.declared) = kind.checkWeights inputs := by
  unfold checkWeights
  have same : (fun weight : Value => !weight.isStatic) ∘ Value.declared =
      fun weight => !weight.isStatic := rfl
  rw [← List.map_drop, List.find?_map, same]
  cases (inputs.drop 1).find? fun weight => !weight.isStatic <;> rfl

end OpKind

/-! ## Admitted nodes -/

/-- All checks of a node pass against a table of values, in which these are its operands. -/
structure Node.Admitted (values : List Value) (node : Node) (operands : List Value)
    (output : Value) : Prop where
  found : List.Forall₂ (fun (id : Nat) value => values[id]? = some value) node.inputs operands
  written : ∃ id : Nat, node.outputs = [id] ∧ values[id]? = some output
  arity : node.kind.inputArity.allows node.inputs.length = true
  elements : node.kind.checkElements operands output = .ok node.compute
  quantization : node.kind.checkQuantization operands output = .ok ()
  weights : node.kind.checkWeights operands = .ok ()
  params : node.kind.checkParams node.params = .ok ()
  shape : node.kind.outputShape node.flags (operands.map (·.shape)) output.shape.length =
    .ok output.shape

namespace Node.Admitted

variable {values changed operands : List Value} {node : Node} {output : Value}

theorem operands_length (admitted : node.Admitted values operands output) :
    operands.length = node.inputs.length :=
  admitted.found.length_eq.symm

theorem exists_operand (admitted : node.Admitted values operands output) :
    ∃ input rest, operands = input :: rest := by
  cases operands with
  | nil =>
      have allowed := admitted.arity
      rw [← admitted.operands_length, List.length_nil, OpKind.allows_zero] at allowed
      cases allowed
  | cons input rest => exact ⟨input, rest, rfl⟩

/-- The storage type of the output gives the compute type, conversions excepted. -/
theorem computed (admitted : node.Admitted values operands output)
    (notConvert : node.kind ≠ .convert) :
    output.element ∈ node.kind.elements ∧
      ComputeType.ofElement? output.element = some node.compute := by
  obtain ⟨listed, _, found⟩ := (OpKind.checkElements_eq_ok_iff notConvert).mp admitted.elements
  exact ⟨listed, found⟩

/-- Operands share the storage type of the output, conversions and products excepted. -/
theorem element_eq (admitted : node.Admitted values operands output)
    (notConvert : node.kind ≠ .convert) (notProduct : node.kind ≠ .fullyConnected) :
    ∀ operand ∈ operands, operand.element = output.element := by
  obtain ⟨_, same, _⟩ := (OpKind.checkElements_eq_ok_iff notConvert).mp admitted.elements
  unfold OpKind.inputElements at same
  rw [if_neg notProduct] at same
  intro operand listed
  obtain ⟨index, inside, rfl⟩ := List.getElem_of_mem listed
  refine same (operands[index], output.element) (List.mem_of_getElem? (i := index) ?_)
  rw [List.getElem?_zip_eq_some]
  exact ⟨List.getElem?_eq_getElem inside, by rw [List.getElem?_replicate, if_pos inside]⟩

theorem isStatic_weight (admitted : node.Admitted values operands output)
    (multiply : node.kind = .fullyConnected) {index id : Nat} {value : Value} (weight : 0 < index)
    (read : node.inputs[index]? = some id) (found : values[id]? = some value) :
    value.isStatic = true := by
  obtain ⟨operand, listed, foundOperand⟩ := getElem?_of_forall₂ admitted.found read
  cases found.symm.trans foundOperand
  apply OpKind.checkWeights_eq_ok_iff.mp admitted.weights multiply value
  apply List.mem_of_getElem? (i := index - 1)
  rw [List.getElem?_drop, Nat.add_sub_cancel' weight]
  exact listed

/-- A node stays admitted when its operands change in nothing but their shapes and the nodes at
them, if its output shape follows from the new shapes. -/
theorem transport (admitted : node.Admitted values operands output)
    {newOperands : List Value} {newOutput : Value}
    (found : List.Forall₂ (fun (id : Nat) value => changed[id]? = some value) node.inputs
      newOperands)
    (written : ∃ id : Nat, node.outputs = [id] ∧ changed[id]? = some newOutput)
    (sameOperands : newOperands.map Value.declared = operands.map Value.declared)
    (sameOutput : newOutput.declared = output.declared)
    (shape : node.kind.outputShape node.flags (newOperands.map (·.shape))
      newOutput.shape.length = .ok newOutput.shape) :
    node.Admitted changed newOperands newOutput where
  found := found
  written := written
  arity := admitted.arity
  elements := by
    rw [← OpKind.checkElements_declared, sameOperands, sameOutput, OpKind.checkElements_declared]
    exact admitted.elements
  quantization := by
    rw [← OpKind.checkQuantization_declared, sameOperands, sameOutput,
      OpKind.checkQuantization_declared]
    exact admitted.quantization
  weights := by
    rw [← OpKind.checkWeights_declared, sameOperands, OpKind.checkWeights_declared]
    exact admitted.weights
  params := admitted.params
  shape := shape

/-- Operands that are found in a changed table agree with the old ones in what is kept of each
value. -/
theorem exists_operands {kept : Type} (keep : Value → kept) {ids : List ValueId}
    (found : List.Forall₂ (fun (id : Nat) value => values[id]? = some value) ids operands)
    (same : ∀ id : Nat, id ∈ ids → ∀ value, values[id]? = some value →
      ∃ new, changed[id]? = some new ∧ keep new = keep value) :
    ∃ newOperands,
      List.Forall₂ (fun (id : Nat) value => changed[id]? = some value) ids newOperands ∧
        newOperands.map keep = operands.map keep := by
  induction found with
  | nil => exact ⟨[], .nil, rfl⟩
  | cons foundHead _ inductionHypothesis =>
      obtain ⟨new, foundNew, sameNew⟩ := same _ List.mem_cons_self _ foundHead
      obtain ⟨rest, foundRest, sameRest⟩ := inductionHypothesis
        fun id listed => same id (List.mem_cons_of_mem _ listed)
      exact ⟨new :: rest, .cons foundNew foundRest, by simp [sameNew, sameRest]⟩

/-- A node stays admitted when nothing changes at its operands but the nodes noted there. -/
theorem kept (admitted : node.Admitted values operands output)
    (same : ∀ id : Nat, id ∈ node.inputs ++ node.outputs → ∀ value, values[id]? = some value →
      ∃ new, changed[id]? = some new ∧
        (new.declared, new.shape) = (value.declared, value.shape)) :
    ∃ newOperands newOutput, node.Admitted changed newOperands newOutput := by
  obtain ⟨newOperands, found, sameOperands⟩ := exists_operands
    (fun value => (value.declared, value.shape)) admitted.found
    fun id read => same id (List.mem_append_left _ read)
  obtain ⟨id, outputs, foundOutput⟩ := admitted.written
  obtain ⟨newOutput, foundNew, sameOutput⟩ := same id (by simp [outputs]) output foundOutput
  obtain ⟨sameDeclared, sameShape⟩ := Prod.mk.inj sameOutput
  have declared := congrArg (List.map Prod.fst) sameOperands
  have shapes := congrArg (List.map Prod.snd) sameOperands
  simp only [List.map_map, Function.comp_def] at declared shapes
  refine ⟨newOperands, newOutput, admitted.transport found ⟨id, outputs, foundNew⟩ declared
    sameDeclared ?_⟩
  rw [shapes, sameShape]
  exact admitted.shape

end Node.Admitted

/-! ## Operands of products -/

/-- What the checks say about the operands of a product. -/
structure ProductOperands (node : Node) (operands : List Value) (output input filter : Value)
    (bias : Option Value) : Prop where
  operands_eq : operands = input :: filter :: bias.toList
  input_element : input.element = output.element
  filter_element : filter.element = output.element
  filter_static : filter.isStatic = true
  bias_element : ∀ given, bias = some given →
    given.element = OpKind.biasElement output.element ∧ given.isStatic = true
  shape : OpKind.productShape input.shape filter.shape (bias.map (·.shape)) node.flags
    output.shape.length = .ok output.shape

theorem Node.Admitted.exists_productOperands {values operands : List Value} {node : Node}
    {output : Value} (admitted : node.Admitted values operands output)
    (multiply : node.kind = .fullyConnected) :
    ∃ input filter bias, ProductOperands node operands output input filter bias := by
  have allowed := admitted.arity
  rw [multiply, ← admitted.operands_length] at allowed
  change decide (2 ≤ operands.length ∧ operands.length ≤ 3) = true at allowed
  rw [decide_eq_true_eq] at allowed
  obtain ⟨_, same, _⟩ :=
    (OpKind.checkElements_eq_ok_iff (by rw [multiply]; decide)).mp admitted.elements
  have static := OpKind.checkWeights_eq_ok_iff.mp admitted.weights multiply
  have shape := admitted.shape
  rw [multiply] at same shape
  unfold OpKind.outputShape at shape
  rw [if_neg (by decide), if_neg (by decide), if_neg (by decide)] at shape
  have lengths : operands.length = 2 ∨ operands.length = 3 := by omega
  rcases lengths with two | three
  · obtain ⟨input, filter, rfl⟩ := List.length_eq_two.mp two
    simp only [OpKind.inputElements, List.zip_cons_cons, List.zip_nil_left, if_true,
      List.forall_mem_cons] at same
    rw [List.drop_one, List.tail_cons, List.forall_mem_cons] at static
    exact ⟨input, filter, none, rfl, same.1, same.2.1, static.1, fun _ none => (nomatch none),
      shape⟩
  · obtain ⟨input, filter, bias, rfl⟩ := List.length_eq_three.mp three
    simp only [OpKind.inputElements, List.zip_cons_cons, List.zip_nil_left, if_true,
      List.forall_mem_cons] at same
    rw [List.drop_one, List.tail_cons, List.forall_mem_cons, List.forall_mem_cons] at static
    refine ⟨input, filter, some bias, rfl, same.1, same.2.1, static.1, ?_, shape⟩
    intro given found
    cases found
    exact ⟨same.2.2.1, static.2.1⟩

/-! ## The growth of a graph -/

namespace Graph

/-- A graph grows: described tensors stay as they are declared, and nodes stay in their places. -/
structure Grows (before after : Graph) : Prop where
  value : ∀ {id : Nat} {value}, before.value? id = some value → value.isDense = true →
    ∃ grown, after.value? id = some grown ∧
      (grown.declared, grown.shape) = (value.declared, value.shape)
  node : ∀ {index : Nat} {node}, before.node? index = some node → after.node? index = some node

namespace Grows

theorem refl (graph : Graph) : graph.Grows graph :=
  ⟨fun found _ => ⟨_, found, rfl⟩, fun found => found⟩

theorem trans {first second third : Graph} (early : first.Grows second)
    (late : second.Grows third) : first.Grows third where
  value := by
    intro id value found described
    obtain ⟨middle, foundMiddle, sameMiddle⟩ := early.value found described
    have describedMiddle : middle.isDense = true := by
      have same := congrArg (fun pair => pair.1.isDense) sameMiddle
      exact same.trans described
    obtain ⟨last, foundLast, sameLast⟩ := late.value foundMiddle describedMiddle
    exact ⟨last, foundLast, sameLast.trans sameMiddle⟩
  node := fun found => late.node (early.node found)

end Grows

/-- Every accepted call lets a graph grow. -/
theorem WellFormed.grows {graph after : Graph} (wellFormed : graph.WellFormed) {call : BuildCall}
    {reply : BuildReply} (answered : graph.answer call = .ok (reply, after)) :
    graph.Grows after := by
  rcases answer_cases answered with
    ⟨spec, quantization, id, _, placed, _⟩ | ⟨node, _, appended⟩ | ⟨_, rfl⟩
  · constructor
    · intro other value found described
      refine ⟨value, ?_, rfl⟩
      rw [placed.value?_eq wellFormed.reserved]
      split
      · rename_i same
        rw [same] at found
        simp [placed.free found] at described
      · exact found
    · intro index node found
      unfold node? at found ⊢
      rw [placed.nodes_eq]
      exact found
  · rw [appended.changed]
    constructor
    · intro id value found _
      exact ⟨tied node id value, by rw [value?_appendNode, found]; rfl, rfl⟩
    · intro index other found
      have inside : index < graph.nodes.length := (List.getElem?_eq_some_iff.mp found).1
      rw [node?_appendNode, if_neg (by omega)]
      exact found
  · exact ⟨fun found _ => ⟨_, found, rfl⟩, fun found => found⟩

theorem WellFormed.grows_afterCalls {graph : Graph} (wellFormed : graph.WellFormed)
    (calls : List BuildCall) : graph.Grows (graph.afterCalls calls) := by
  let invariant : Graph → Prop := fun current => current.WellFormed ∧ graph.Grows current
  have start : invariant graph := ⟨wellFormed, .refl graph⟩
  refine (afterCalls_induction start ?_).2
  rintro current call _ reply after ⟨wellFormed, grown⟩ answered
  exact ⟨wellFormed.answered answered, grown.trans (wellFormed.grows answered)⟩

/-- Every node of the graph is admitted by the current table of values. -/
def Admitted (graph : Graph) : Prop :=
  ∀ node ∈ graph.nodes, ∃ operands output, node.Admitted graph.values operands output

/-- The checks of an accepted node pass against the table that they were made on. -/
theorem Appended.admitted {graph after : Graph} {node : Node}
    (appended : Appended graph node after) :
    ∃ operands output, node.Admitted graph.values operands output ∧
      ∀ id ∈ node.inputs ++ node.outputs,
        ∃ value, graph.value? id = some value ∧ value.isDense = true := by
  obtain ⟨_, arity, operands, found, output, foundOutput, _, elements, quantization, weights,
    params, shape⟩ := computeOf_eq_ok_iff.mp appended.admission
  obtain ⟨allowed, single⟩ := OpKind.checkArity_eq_ok_iff.mp arity
  obtain ⟨id, outputs⟩ := List.length_eq_one_iff.mp single
  rw [outputs, List.headD_cons] at foundOutput
  have denseOutput := dense_eq_ok_iff.mp foundOutput
  refine ⟨operands, output, ?_, ?_⟩
  · exact
      { found := (mapM_eq_ok_iff.mp found).imp fun _ _ ran => (dense_eq_ok_iff.mp ran).1
        written := ⟨id, outputs, denseOutput.1⟩
        arity := allowed
        elements := elements
        quantization := quantization
        weights := weights
        params := params
        shape := OpKind.checkShape_eq_ok_iff.mp shape }
  · intro other used
    rcases List.mem_append.mp used with read | written
    · exact WellFormed.describedInput appended read
    · rw [outputs, List.mem_singleton] at written
      rw [written]
      exact ⟨output, denseOutput⟩

/-- Admitted nodes stay admitted while the graph grows. -/
theorem Grows.admitted {before after : Graph} (grows : before.Grows after) {node : Node}
    {operands : List Value} {output : Value}
    (admitted : node.Admitted before.values operands output)
    (described : ∀ id ∈ node.inputs ++ node.outputs,
      ∃ value, before.value? id = some value ∧ value.isDense = true) :
    ∃ newOperands newOutput, node.Admitted after.values newOperands newOutput := by
  apply admitted.kept
  intro id used value found
  obtain ⟨other, foundOther, dense⟩ := described id used
  have same : other = value := Option.some.inj (foundOther.symm.trans found)
  exact grows.value foundOther dense |>.imp fun grown facts => ⟨facts.1, same ▸ facts.2⟩

/-- Every node of a constructed graph is admitted by the final table of values. -/
theorem admitted_afterCalls (count : Nat) (calls : List BuildCall) :
    ((withExternalValues count).afterCalls calls).Admitted := by
  let invariant : Graph → Prop := fun graph => graph.WellFormed ∧ graph.Admitted
  have start : invariant (withExternalValues count) := by
    refine ⟨wellFormed_withExternalValues count, ?_⟩
    intro node listed
    cases listed
  refine (afterCalls_induction start ?_).2
  rintro current call _ reply after ⟨wellFormed, admitted⟩ answered
  have grows := wellFormed.grows answered
  have old : ∀ node ∈ current.nodes,
      ∃ operands output, node.Admitted after.values operands output := by
    intro node listed
    obtain ⟨operands, output, admittedNode⟩ := admitted node listed
    obtain ⟨index, inside, found⟩ := List.getElem_of_mem listed
    exact grows.admitted admittedNode
      (wellFormed.operand (List.getElem?_eq_some_iff.mpr ⟨inside, found⟩))
  refine ⟨wellFormed.answered answered, ?_⟩
  rcases answer_cases answered with
    ⟨spec, quantization, id, _, placed, _⟩ | ⟨node, _, appended⟩ | ⟨_, rfl⟩
  · intro node listed
    rw [placed.nodes_eq] at listed
    exact old node listed
  · intro other listed
    have listedEither : other ∈ current.nodes ++ [node] := by
      rw [appended.changed] at listed
      exact listed
    rcases List.mem_append.mp listedEither with before | last
    · exact old other before
    · rw [List.mem_singleton.mp last]
      obtain ⟨operands, output, admittedNode, described⟩ := appended.admitted
      exact grows.admitted admittedNode described
  · exact old

end Graph

end TensorEngine
