import TensorEngine.Proofs.Execution.Reshape

/-!
Contract: the definitions of a graph can be made again with other shapes.

Owns:
- `Graph.definitions`, the accepted definitions of a sequence of calls, with their replies;
- `Graph.Replays`, the acceptance of a log of calls, each with the reply that the log gives;
- `Graph.AdmitsShapes`, shapes that a reshape may come to;
- the theorem that definitions with admitted shapes are accepted call by call, with the same
  replies, and give the graph with these shapes.

Does not own: which reshapes a compiled graph accepts.
-/

namespace TensorEngine

/-! ## Logs of definitions -/

/-- The accepted definitions of a sequence of calls, with their replies. -/
def Graph.definitions (graph : Graph) : List BuildCall → List (BuildCall × BuildReply)
  | [] => []
  | call :: calls =>
      match graph.answer call with
      | .error _ => graph.definitions calls
      | .ok (.closed, after) => after.definitions calls
      | .ok (reply, after) => (call, reply) :: after.definitions calls

/-- Every call of a log is accepted, with the reply that the log gives for it. -/
def Graph.Replays (graph : Graph) : List (BuildCall × BuildReply) → Graph → Prop
  | [], final => graph = final
  | (call, reply) :: log, final =>
      ∃ after, graph.answer call = .ok (reply, after) ∧ after.Replays log final

def TensorSpec.reshapedTo (spec : TensorSpec) (shapes : List Shape) (id : ValueId) : TensorSpec :=
  { spec with shape := shapes[id]?.getD spec.shape }

/-- A call that defines what it has defined before, with the listed shape. -/
def BuildCall.reshapedTo (shapes : List Shape) (call : BuildCall) (reply : BuildReply) :
    BuildCall :=
  match call, reply with
  | .tensor spec, .value id => .tensor (spec.reshapedTo shapes id)
  | .quantizedTensor spec quantization, .value id =>
      .quantizedTensor (spec.reshapedTo shapes id) quantization
  | call, _ => call

def reshapedLog (shapes : List Shape) (log : List (BuildCall × BuildReply)) :
    List (BuildCall × BuildReply) :=
  log.map fun entry => (entry.1.reshapedTo shapes entry.2, entry.2)

/-- A value with the listed shape. A reserved place has none. -/
def Value.reshapedTo (shapes : List Shape) (value : Value) : Value :=
  if value.isDense then { value with shape := shapes[value.id]?.getD value.shape } else value

/-- A graph that is open, with the listed shapes. -/
def Graph.reshapedTo (graph : Graph) (shapes : List Shape) : Graph :=
  { graph with values := graph.values.map (Value.reshapedTo shapes), isSealed := false }

/-- Shapes for the values of a graph: of their ranks, fixed for static values, and such that the
shapes of every node follow. -/
structure Graph.AdmitsShapes (graph : Graph) (shapes : List Shape) : Prop where
  value : ∀ {id : Nat} {value}, graph.value? id = some value → value.isDense = true →
    ∃ shape, shapes[id]? = some shape ∧ shape.length = value.shape.length ∧
      (value.isStatic = true → shape = value.shape)
  follow : ∀ node ∈ graph.nodes, node.ShapesFollow shapes

/-! ## Reshaped values -/

section Values

variable {shapes : List Shape} {value : Value}

theorem Value.reshapedTo_of_isDense (described : value.isDense = true) :
    value.reshapedTo shapes = { value with shape := shapes[value.id]?.getD value.shape } := by
  unfold Value.reshapedTo
  rw [if_pos described]

theorem Value.reshapedTo_isDense : (value.reshapedTo shapes).isDense = value.isDense := by
  unfold Value.reshapedTo
  split <;> rfl

theorem Value.reshapedTo_declared : (value.reshapedTo shapes).declared = value.declared := by
  unfold Value.reshapedTo
  split <;> rfl

theorem Value.reshapedTo_tied (node : Node) (id : Nat) :
    Value.reshapedTo shapes (Graph.tied node id value) =
      Graph.tied node id (value.reshapedTo shapes) := by
  obtain ⟨_, described, _⟩ := value
  cases described <;> rfl

theorem Graph.reshapedTo_value? (graph : Graph) (id : Nat) :
    (graph.reshapedTo shapes).value? id = (graph.value? id).map (Value.reshapedTo shapes) :=
  List.getElem?_map

end Values

/-! ## Definitions with other shapes -/

namespace Graph

variable {graph after : Graph} {shapes : List Shape}

/-- Shapes that a graph admits, it has admitted before it grew. -/
theorem Grows.admitsShapes (grows : graph.Grows after) (admits : after.AdmitsShapes shapes) :
    graph.AdmitsShapes shapes where
  value := by
    intro id value found described
    obtain ⟨grown, foundGrown, same⟩ := grows.value found described
    obtain ⟨sameDeclared, sameShape⟩ := Prod.mk.inj same
    have describedGrown : grown.isDense = true := by
      have dense := congrArg Value.isDense sameDeclared
      exact dense.trans described
    have sameStatic : grown.isStatic = value.isStatic := by
      have contents := congrArg Value.isStatic sameDeclared
      exact contents
    have listed := admits.value foundGrown describedGrown
    rw [sameShape, sameStatic] at listed
    exact listed
  follow := by
    intro node listed
    obtain ⟨index, inside, found⟩ := List.getElem_of_mem listed
    have placed := grows.node (List.getElem?_eq_some_iff.mpr ⟨inside, found⟩)
    exact admits.follow node (List.mem_of_getElem? placed)

/-- The definition of a tensor with its listed shape fills the same place. -/
theorem Placed.reshapedTo (wellFormed : graph.WellFormed) {spec : TensorSpec}
    {quantization : Option Quantization} {id : Nat}
    (placed : Placed graph spec quantization id after) (admits : after.AdmitsShapes shapes) :
    Placed (graph.reshapedTo shapes) (spec.reshapedTo shapes id) quantization id
      (after.reshapedTo shapes) := by
  have found : after.value? id = some (describedValue spec quantization id) := by
    rw [placed.value?_eq wellFormed.reserved, if_pos rfl]
  obtain ⟨shape, listed, rank, fixed⟩ := admits.value found rfl
  have sameSpec : spec.reshapedTo shapes id = { spec with shape := shape } := by
    unfold TensorSpec.reshapedTo
    rw [listed]
    rfl
  refine ⟨rfl, ?_, ?_, ?_, ?_⟩
  · rw [sameSpec]
    exact Nat.le_trans (Nat.le_of_eq rank) placed.rank
  · rw [sameSpec]
    by_cases static : spec.contents.isSome = true
    · rw [fixed static]
      exact placed.contents
    · unfold checkContents
      dsimp only
      rw [Option.not_isSome_iff_eq_none.mp static]
  · rw [placeFor_eq_ok_iff]
    rcases placeFor_eq_ok_iff.mp placed.place with ⟨external, inside, free⟩ | ⟨internal, last, room⟩
    · refine .inl ⟨external, inside, fun value foundNew => ?_⟩
      rw [reshapedTo_value?] at foundNew
      obtain ⟨old, foundOld, rfl⟩ := Option.map_eq_some_iff.mp foundNew
      rw [Value.reshapedTo_isDense]
      exact free old foundOld
    · have sameLength : (graph.reshapedTo shapes).values.length = graph.values.length :=
        List.length_map _
      rw [sameLength]
      exact .inr ⟨internal, last, room⟩
  · have sameValue : Value.reshapedTo shapes (describedValue spec quantization id) =
        describedValue (spec.reshapedTo shapes id) quantization id := rfl
    have sameValues : (if spec.externalId.isSome then
          graph.values.set id (describedValue spec quantization id)
        else graph.values ++ [describedValue spec quantization id]).map (Value.reshapedTo shapes) =
        if spec.externalId.isSome then
          (graph.values.map (Value.reshapedTo shapes)).set id
            (describedValue (spec.reshapedTo shapes id) quantization id)
        else graph.values.map (Value.reshapedTo shapes) ++
          [describedValue (spec.reshapedTo shapes id) quantization id] := by
      rw [apply_ite (List.map _), List.map_set, List.map_append, List.map_singleton, sameValue]
    rw [placed.changed]
    exact congrArg (Graph.mk · graph.nodes graph.externalCount false) sameValues

theorem appendNode_reshapedTo (graph : Graph) (node : Node) :
    (graph.appendNode node).reshapedTo shapes = (graph.reshapedTo shapes).appendNode node := by
  have sameValues : ((graph.appendNode node).reshapedTo shapes).values =
      ((graph.reshapedTo shapes).appendNode node).values := by
    apply List.ext_getElem?
    intro id
    show ((graph.appendNode node).reshapedTo shapes).value? id =
      ((graph.reshapedTo shapes).appendNode node).value? id
    rw [reshapedTo_value?, value?_appendNode, value?_appendNode, reshapedTo_value?, Option.map_map,
      Option.map_map]
    refine congrArg (Option.map · (graph.value? id)) (funext fun value => ?_)
    exact Value.reshapedTo_tied node id
  show Graph.mk _ _ _ _ = Graph.mk _ _ _ _
  rw [Graph.mk.injEq]
  exact ⟨sameValues, rfl, rfl, rfl⟩

theorem WellFormed.reshapedTo_shape (wellFormed : graph.WellFormed) {id : Nat} {value : Value}
    {shape : Shape} (found : graph.dense id = .ok value) (listed : shapes[id]? = some shape) :
    (value.reshapedTo shapes).shape = shape := by
  obtain ⟨foundValue, described⟩ := dense_eq_ok_iff.mp found
  rw [Value.reshapedTo_of_isDense described, wellFormed.value_id foundValue, listed]
  rfl

theorem WellFormed.reshapedTo_shapes (wellFormed : graph.WellFormed) {ids : List ValueId}
    {operands : List Value} {inputs : List Shape}
    (found : List.Forall₂ (fun id value => graph.dense id = .ok value) ids operands)
    (listed : List.Forall₂ (fun (id : Nat) shape => shapes[id]? = some shape) ids inputs) :
    (operands.map (Value.reshapedTo shapes)).map (·.shape) = inputs := by
  induction found generalizing inputs with
  | nil =>
      cases listed
      rfl
  | cons head _ inductionHypothesis =>
      cases listed with
      | cons listedHead listedRest =>
          rw [List.map_cons, List.map_cons, inductionHypothesis listedRest,
            wellFormed.reshapedTo_shape head listedHead]

theorem dense_reshapedTo {id : Nat} {value : Value} (found : graph.dense id = .ok value) :
    (graph.reshapedTo shapes).dense id = .ok (value.reshapedTo shapes) := by
  obtain ⟨foundValue, described⟩ := dense_eq_ok_iff.mp found
  refine dense_eq_ok_iff.mpr ⟨?_, ?_⟩
  · rw [reshapedTo_value?, foundValue]
    rfl
  · rw [Value.reshapedTo_isDense]
    exact described

/-- The checks of a node pass for the listed shapes, since these follow at the node. -/
theorem Appended.computeOf_reshapedTo (wellFormed : graph.WellFormed) {node : Node}
    (appended : Appended graph node after) (follow : node.ShapesFollow shapes) :
    (graph.reshapedTo shapes).computeOf node.kind node.inputs node.outputs node.params node.flags =
      .ok node.compute := by
  obtain ⟨_, arity, operands, found, output, foundOutput, writable, elements, quantization,
    weights, params, _⟩ := computeOf_eq_ok_iff.mp appended.admission
  obtain ⟨inputs, id, shape, listed, outputs, listedOutput, follows⟩ := follow
  rw [mapM_eq_ok_iff] at found
  rw [outputs, List.headD_cons] at foundOutput
  have declared : (operands.map (Value.reshapedTo shapes)).map Value.declared =
      operands.map Value.declared := by
    rw [List.map_map]
    exact List.map_congr_left fun value _ => Value.reshapedTo_declared
  have declaredOutput : (output.reshapedTo shapes).declared = output.declared :=
    Value.reshapedTo_declared
  refine computeOf_eq_ok_iff.mpr ⟨rfl, arity, operands.map (Value.reshapedTo shapes), ?_,
    output.reshapedTo shapes, ?_, ?_, ?_, ?_, ?_, params, ?_⟩
  · rw [mapM_eq_ok_iff, List.forall₂_map_right_iff]
    exact found.imp fun _ _ => dense_reshapedTo
  · rw [outputs, List.headD_cons]
    exact dense_reshapedTo foundOutput
  · rw [Value.reshapedTo_of_isDense (dense_eq_ok_iff.mp foundOutput).2]
    exact writable
  · rw [← OpKind.checkElements_declared, declared, declaredOutput, OpKind.checkElements_declared]
    exact elements
  · rw [← OpKind.checkQuantization_declared, declared, declaredOutput,
      OpKind.checkQuantization_declared]
    exact quantization
  · rw [← OpKind.checkWeights_declared, declared, OpKind.checkWeights_declared]
    exact weights
  · rw [OpKind.checkShape_eq_ok_iff, wellFormed.reshapedTo_shapes found listed,
      wellFormed.reshapedTo_shape foundOutput listedOutput]
    exact follows

/-- An accepted definition is accepted with its listed shape, with the same reply. -/
theorem answer_reshapedTo (wellFormed : graph.WellFormed) {call : BuildCall} {reply : BuildReply}
    (answered : graph.answer call = .ok (reply, after)) (defines : reply ≠ .closed)
    (admits : after.AdmitsShapes shapes) :
    (graph.reshapedTo shapes).answer (call.reshapedTo shapes reply) =
      .ok (reply, after.reshapedTo shapes) := by
  cases call with
  | tensor spec =>
      obtain ⟨⟨id, made⟩, defined, same⟩ := map_eq_ok_iff.mp answered
      cases same
      obtain ⟨unquantized, defined⟩ := defineTensor_eq_ok_iff.mp defined
      obtain ⟨placed, internal⟩ := defineValue_eq_ok_iff.mp defined
      refine map_eq_ok_iff.mpr ⟨(id, _), defineTensor_eq_ok_iff.mpr ⟨unquantized,
        defineValue_eq_ok_iff.mpr ⟨placed.reshapedTo wellFormed admits, internal⟩⟩, rfl⟩
  | quantizedTensor spec quantization =>
      obtain ⟨⟨id, made⟩, defined, same⟩ := map_eq_ok_iff.mp answered
      cases same
      obtain ⟨quantized, valid, defined⟩ := defineQuantizedTensor_eq_ok_iff.mp defined
      obtain ⟨placed, internal⟩ := defineValue_eq_ok_iff.mp defined
      refine map_eq_ok_iff.mpr ⟨(id, _), defineQuantizedTensor_eq_ok_iff.mpr ⟨quantized, valid,
        defineValue_eq_ok_iff.mpr ⟨placed.reshapedTo wellFormed admits, internal⟩⟩, rfl⟩
  | node kind inputs outputs params flags =>
      obtain ⟨⟨node, made⟩, defined, same⟩ := map_eq_ok_iff.mp answered
      cases same
      obtain ⟨compute, admission, room, rfl, rfl⟩ := defineNode_eq_ok_iff.mp defined
      have appended : Appended graph ⟨graph.nodes.length, kind, compute, inputs, outputs, params,
          flags⟩ (graph.appendNode ⟨graph.nodes.length, kind, compute, inputs, outputs, params,
            flags⟩) :=
        ⟨(computeOf_eq_ok_iff.mp admission).1, admission, rfl, rfl⟩
      have follow := admits.follow _ (List.mem_append_right _ (List.mem_singleton_self _))
      refine map_eq_ok_iff.mpr ⟨(_, _), defineNode_eq_ok_iff.mpr ⟨compute,
        appended.computeOf_reshapedTo wellFormed follow, room, rfl,
        appendNode_reshapedTo graph _⟩, rfl⟩
  | close =>
      cases answered
      exact absurd rfl defines

/-- The definitions of a graph are accepted once more with any shapes that the graph admits, call by
call and with the same replies, and give the graph with these shapes. -/
theorem replays_definitions (wellFormed : graph.WellFormed) (calls : List BuildCall)
    (admits : (graph.afterCalls calls).AdmitsShapes shapes) :
    (graph.reshapedTo shapes).Replays (reshapedLog shapes (graph.definitions calls))
      ((graph.afterCalls calls).reshapedTo shapes) := by
  induction calls generalizing graph with
  | nil => rfl
  | cons call calls inductionHypothesis =>
      cases answered : graph.answer call with
      | error fault =>
          unfold definitions
          rw [afterCalls_of_error answered] at admits ⊢
          rw [answered]
          exact inductionHypothesis wellFormed admits
      | ok result =>
          obtain ⟨reply, after⟩ := result
          have wellFormedAfter := wellFormed.answered answered
          rw [afterCalls_of_ok answered] at admits ⊢
          have rest := inductionHypothesis wellFormedAfter admits
          have admitsAfter := (wellFormedAfter.grows_afterCalls calls).admitsShapes admits
          have again : reply ≠ .closed → (graph.reshapedTo shapes).answer
              (call.reshapedTo shapes reply) = .ok (reply, after.reshapedTo shapes) :=
            fun defines => answer_reshapedTo wellFormed answered defines admitsAfter
          unfold definitions
          rw [answered]
          cases reply with
          | value id => exact ⟨_, again (by simp), rest⟩
          | node node => exact ⟨_, again (by simp), rest⟩
          | closed =>
              -- the reply tells that the call only closes the graph
              have same : after = graph.closed := by
                rcases answer_cases answered with
                  ⟨_, _, _, impossible, _⟩ | ⟨_, impossible, _⟩ | ⟨_, same⟩
                · cases impossible
                · cases impossible
                · exact same
              rw [same] at rest ⊢
              exact rest

/-- Nothing is described in a fresh graph. -/
theorem reshapedTo_withExternalValues (count : Nat) :
    (withExternalValues count).reshapedTo shapes = withExternalValues count := by
  unfold Graph.reshapedTo withExternalValues
  rw [List.map_map]
  rfl

theorem admitsShapes_of_executes {Op : Type} {executable : Executable Op}
    (executes : executable.Executes graph) : graph.AdmitsShapes executable.shapes where
  value := by
    intro id value found described
    obtain ⟨new, foundNew, reshaped⟩ := executes.table.exists_new found
    refine ⟨new.shape, ?_, reshaped.rank, fun static => reshaped.fixed (.inl static)⟩
    unfold Executable.shapes
    rw [List.getElem?_map, foundNew]
    rfl
  follow := executes.follow

theorem reshapedTo_values (wellFormed : graph.WellFormed) {news : List Value}
    (table : ReshapedTable graph.values news) :
    (graph.reshapedTo (news.map (·.shape))).values = news := by
  apply List.ext_getElem?
  intro id
  show (graph.reshapedTo (news.map (·.shape))).value? id = _
  rw [reshapedTo_value?]
  cases found : graph.value? id with
  | none =>
      have outside := List.getElem?_eq_none_iff.mp found
      rw [← table.length_eq] at outside
      rw [List.getElem?_eq_none outside]
      rfl
  | some old =>
      obtain ⟨new, foundNew, reshaped⟩ := table.exists_new found
      have listed : (news.map (·.shape))[id]? = some new.shape := by
        rw [List.getElem?_map, foundNew]
        rfl
      rw [foundNew, Option.map_some, Option.some.injEq]
      have same := congrArg (fun value : Value => { value with shape := new.shape }) reshaped.same
      change new = { old with shape := new.shape } at same
      unfold Value.reshapedTo
      split
      · have sameId : old.id = id := wellFormed.value_id found
        rw [same, sameId, listed]
        rfl
      · rename_i undescribed
        rw [reshaped.fixed (.inr (Bool.not_eq_true _ ▸ undescribed))] at same
        exact same.symm

end Graph

end TensorEngine
