import TensorEngine.Graph.Builder
import TensorEngine.Proofs.Checked

/-!
Contract: the construction of a graph, call by call.

Owns:
- `BuildCall`, every call that can change a graph, and its reply;
- `Graph.afterCalls`, the graph after a sequence of calls, some accepted and some refused;
- `Graph.Placed` and `Graph.Appended`, all that an accepted definition does.

Does not own: the properties that graphs have after every construction.
-/

namespace TensorEngine

/-- A call on a graph. A compilation closes the graph that it compiles. -/
inductive BuildCall where
  | tensor (spec : TensorSpec)
  | quantizedTensor (spec : TensorSpec) (quantization : Quantization)
  | node (kind : OpKind) (inputs outputs : List ValueId) (params : OpParams) (flags : UInt32)
  | close

def BuildCall.spec? : BuildCall → Option TensorSpec
  | .tensor spec | .quantizedTensor spec _ => some spec
  | .node .. | .close => none

/-- What an accepted call gives back. -/
inductive BuildReply where
  | value (id : ValueId)
  | node (node : Node)
  | closed

namespace Graph

/-- The reply to a call and the graph after it, or the reason for its refusal. -/
def answer (graph : Graph) (call : BuildCall) : Except GraphFault (BuildReply × Graph) :=
  match call with
  | .tensor spec => (fun (id, after) => (.value id, after)) <$> graph.defineTensor spec
  | .quantizedTensor spec quantization =>
      (fun (id, after) => (.value id, after)) <$> graph.defineQuantizedTensor spec quantization
  | .node kind inputs outputs params flags =>
      (fun (node, after) => (.node node, after)) <$>
        graph.defineNode kind inputs outputs params flags
  | .close => .ok (.closed, graph.closed)

/-- The graph after a call. A refused call leaves it as it was. -/
def afterCall (graph : Graph) (call : BuildCall) : Graph :=
  match graph.answer call with
  | .ok (_, after) => after
  | .error _ => graph

def afterCalls (graph : Graph) (calls : List BuildCall) : Graph :=
  calls.foldl afterCall graph

theorem afterCalls_of_error {graph : Graph} {call : BuildCall} {fault : GraphFault}
    (refused : graph.answer call = .error fault) (calls : List BuildCall) :
    graph.afterCalls (call :: calls) = graph.afterCalls calls := by
  unfold afterCalls
  rw [List.foldl_cons, afterCall, refused]

theorem afterCalls_of_ok {graph after : Graph} {call : BuildCall} {reply : BuildReply}
    (answered : graph.answer call = .ok (reply, after)) (calls : List BuildCall) :
    graph.afterCalls (call :: calls) = after.afterCalls calls := by
  unfold afterCalls
  rw [List.foldl_cons, afterCall, answered]

/-- What every accepted call keeps, the sequence of calls keeps. -/
theorem afterCalls_induction {property : Graph → Prop} {graph : Graph} (start : property graph)
    {calls : List BuildCall}
    (step : ∀ current, ∀ call ∈ calls, ∀ reply after, property current →
      current.answer call = .ok (reply, after) → property after) :
    property (graph.afterCalls calls) := by
  induction calls generalizing graph with
  | nil => exact start
  | cons call calls inductionHypothesis =>
      refine inductionHypothesis ?_ fun current other listed =>
        step current other (List.mem_cons_of_mem _ listed)
      unfold afterCall
      cases answered : graph.answer call with
      | error fault => exact start
      | ok result => exact step graph call List.mem_cons_self result.1 result.2 start answered

/-! ## Look-ups -/

theorem dense_eq_ok_iff {graph : Graph} {id : Nat} {value : Value} :
    graph.dense id = .ok value ↔ graph.value? id = some value ∧ value.isDense = true := by
  unfold dense
  cases found : graph.value? id with
  | none => simp
  | some other =>
      by_cases described : other.isDense
      · simp only [described, if_true, Except.ok.injEq, Option.some.injEq]
        constructor
        · rintro rfl
          exact ⟨rfl, described⟩
        · exact And.left
      · simp only [described, Bool.false_eq_true, if_false, reduceCtorEq, Option.some.injEq,
          false_iff, not_and]
        rintro rfl
        exact described

theorem value?_lt {graph : Graph} {id : Nat} {value : Value}
    (found : graph.value? id = some value) : id < graph.values.length :=
  (List.getElem?_eq_some_iff.mp found).1

/-! ## Tensors -/

/-- The value that a description makes, before any node uses it. -/
def describedValue (spec : TensorSpec) (quantization : Option Quantization) (id : ValueId) :
    Value :=
  { id := id, isDense := true, element := spec.element, shape := spec.shape,
    quantization := quantization, flags := spec.flags, contents := spec.contents,
    producer := none, consumers := [] }

/-- All that an accepted definition of a tensor does: it fills one free place. -/
structure Placed (graph : Graph) (spec : TensorSpec) (quantization : Option Quantization)
    (id : ValueId) (after : Graph) : Prop where
  unsealed : graph.isSealed = false
  rank : spec.shape.length ≤ Shape.maxRank
  contents : checkContents spec = .ok ()
  place : graph.placeFor spec.externalId = .ok id
  changed : after = { graph with
    values :=
      if spec.externalId.isSome then graph.values.set id (describedValue spec quantization id)
      else graph.values ++ [describedValue spec quantization id] }

theorem defineValue_eq_ok_iff {graph after : Graph} {spec : TensorSpec}
    {quantization : Option Quantization} {id : Nat} :
    graph.defineValue spec quantization = .ok (id, after) ↔
      Placed graph spec quantization id after ∧
        ¬ (spec.flags.isExternal && spec.externalId.isNone) = true := by
  unfold defineValue
  simp only [guarded_eq_ok_iff, bind_eq_ok_iff, mapError_eq_ok_iff, pure_eq_ok_iff]
  constructor
  · rintro ⟨unsealed, rank, _, contents, internal, found, place, same⟩
    cases same
    exact ⟨⟨by simpa using unsealed, by omega, contents, place, rfl⟩, internal⟩
  · rintro ⟨⟨unsealed, rank, contents, place, changed⟩, internal⟩
    refine ⟨by simp [unsealed], by omega, (), contents, internal, id, place, ?_⟩
    rw [changed]
    rfl

theorem defineTensor_eq_ok_iff {graph after : Graph} {spec : TensorSpec} {id : Nat} :
    graph.defineTensor spec = .ok (id, after) ↔
      spec.element.isQuantized = false ∧ graph.defineValue spec none = .ok (id, after) := by
  unfold defineTensor
  cases spec.element.isQuantized <;> simp

theorem defineQuantizedTensor_eq_ok_iff {graph after : Graph} {spec : TensorSpec}
    {quantization : Quantization} {id : Nat} :
    graph.defineQuantizedTensor spec quantization = .ok (id, after) ↔
      spec.element.isQuantized = true ∧ quantization.validate spec.element = .ok () ∧
        graph.defineValue spec (some quantization) = .ok (id, after) := by
  unfold defineQuantizedTensor
  cases spec.element.isQuantized with
  | false => simp
  | true => cases quantization.validate spec.element <;> simp

theorem placeFor_eq_ok_iff {graph : Graph} {externalId : Option Nat} {id : Nat} :
    graph.placeFor externalId = .ok id ↔
      (externalId = some id ∧ id < graph.externalCount ∧
        ∀ value, graph.value? id = some value → value.isDense = false) ∨
      (externalId = none ∧ id = graph.values.length ∧ graph.values.length < tableLimit) := by
  unfold placeFor
  cases externalId with
  | none =>
      simp only [reduceCtorEq, false_and, false_or, true_and]
      by_cases room : graph.values.length < tableLimit
      · rw [if_pos room, Except.ok.injEq]
        exact ⟨fun same => ⟨same.symm, room⟩, fun both => both.1.symm⟩
      · rw [if_neg room]
        exact ⟨fun impossible => (nomatch impossible), fun both => absurd both.2 room⟩
  | some wanted =>
      by_cases outside : graph.externalCount ≤ wanted
      · simp only [outside, if_true, reduceCtorEq, Option.some.injEq, false_and, or_false,
          false_iff, not_and]
        rintro rfl inside
        omega
      · simp only [outside, if_false, Option.some.injEq, reduceCtorEq, false_and, or_false]
        cases found : graph.value? wanted with
        | none =>
            simp only [Except.ok.injEq]
            constructor
            · rintro rfl
              exact ⟨rfl, by omega, by simp [found]⟩
            · exact And.left
        | some value =>
            by_cases described : value.isDense = true
            · simp only [described, if_true, reduceCtorEq, false_iff, not_and]
              rintro rfl _ free
              simp [free value found] at described
            · simp only [described, Bool.false_eq_true, if_false, Except.ok.injEq]
              constructor
              · rintro rfl
                exact ⟨rfl, by omega, by simpa [found] using described⟩
              · exact And.left

namespace Placed

variable {graph after : Graph} {spec : TensorSpec} {quantization : Option Quantization}
  {id : Nat}

theorem free (placed : Placed graph spec quantization id after) {value : Value}
    (found : graph.value? id = some value) : value.isDense = false := by
  rcases placeFor_eq_ok_iff.mp placed.place with ⟨_, _, free⟩ | ⟨_, atEnd, _⟩
  · exact free value found
  · have inside := value?_lt found
    omega

theorem value?_eq (placed : Placed graph spec quantization id after)
    (reserved : graph.externalCount ≤ graph.values.length) (other : Nat) :
    after.value? other =
      if other = id then some (describedValue spec quantization id) else graph.value? other := by
  rw [placed.changed]
  unfold value?
  rcases placeFor_eq_ok_iff.mp placed.place with ⟨external, inside, _⟩ | ⟨internal, atEnd, _⟩
  · rw [if_pos (by simp [external]), List.getElem?_set]
    by_cases same : id = other
    · have bound : id < graph.values.length := by omega
      rw [if_pos same, if_pos bound, if_pos same.symm]
    · rw [if_neg same, if_neg (Ne.symm same)]
  · rw [if_neg (by simp [internal]), List.getElem?_append, atEnd]
    by_cases before : other < graph.values.length
    · rw [if_pos before, if_neg (by omega)]
    · rw [if_neg before]
      by_cases same : other = graph.values.length
      · rw [if_pos same, same, Nat.sub_self, List.getElem?_cons_zero]
      · rw [if_neg same, List.getElem?_eq_none (by simp; omega),
          List.getElem?_eq_none (by omega)]

theorem length_le (placed : Placed graph spec quantization id after) :
    graph.values.length ≤ after.values.length := by
  rw [placed.changed]
  dsimp only
  split <;> simp

theorem nodes_eq (placed : Placed graph spec quantization id after) :
    after.nodes = graph.nodes := by
  rw [placed.changed]

theorem externalCount_eq (placed : Placed graph spec quantization id after) :
    after.externalCount = graph.externalCount := by
  rw [placed.changed]

end Placed

/-! ## Nodes -/

/-- All that an accepted definition of a node does: a node whose operands pass every check is
appended. -/
structure Appended (graph : Graph) (node : Node) (after : Graph) : Prop where
  unsealed : graph.isSealed = false
  admission : graph.computeOf node.kind node.inputs node.outputs node.params node.flags =
    .ok node.compute
  id_eq : node.id = graph.nodes.length
  changed : after = graph.appendNode node

theorem defineNode_eq_ok_iff {graph after : Graph} {kind : OpKind}
    {inputs outputs : List ValueId} {params : OpParams} {flags : UInt32} {node : Node} :
    graph.defineNode kind inputs outputs params flags = .ok (node, after) ↔
      ∃ compute, graph.computeOf kind inputs outputs params flags = .ok compute ∧
        graph.nodes.length < tableLimit ∧
        node = ⟨graph.nodes.length, kind, compute, inputs, outputs, params, flags⟩ ∧
        after = graph.appendNode node := by
  unfold defineNode
  simp only [bind_eq_ok_iff, guarded_eq_ok_iff, pure_eq_ok_iff, Prod.mk.injEq, Nat.not_le]
  constructor
  · rintro ⟨compute, admitted, room, rfl, rfl⟩
    exact ⟨compute, admitted, room, rfl, rfl⟩
  · rintro ⟨compute, admitted, room, rfl, rfl⟩
    exact ⟨compute, admitted, room, rfl, rfl⟩

theorem computeOf_eq_ok_iff {graph : Graph} {kind : OpKind} {inputs outputs : List ValueId}
    {params : OpParams} {flags : UInt32} {compute : ComputeType} :
    graph.computeOf kind inputs outputs params flags = .ok compute ↔
      graph.isSealed = false ∧ kind.checkArity inputs.length outputs.length = .ok () ∧
        ∃ operands, inputs.mapM graph.dense = .ok operands ∧
        ∃ output, graph.dense (outputs.headD 0) = .ok output ∧
          output.checkOutput inputs = .ok () ∧
          kind.checkElements operands output = .ok compute ∧
          kind.checkQuantization operands output = .ok () ∧
          kind.checkWeights operands = .ok () ∧ kind.checkParams params = .ok () ∧
          kind.checkShape flags operands output = .ok () := by
  unfold computeOf
  simp only [guarded_eq_ok_iff, bind_eq_ok_iff, pure_eq_ok_iff, Bool.not_eq_true]
  constructor
  · rintro ⟨unsealed, _, arity, operands, found, output, foundOutput, _, writable, other, elements,
      _, quantization, _, weights, _, params, _, shape, rfl⟩
    exact ⟨unsealed, arity, operands, found, output, foundOutput, writable, elements,
      quantization, weights, params, shape⟩
  · rintro ⟨unsealed, arity, operands, found, output, foundOutput, writable, elements,
      quantization, weights, params, shape⟩
    exact ⟨unsealed, (), arity, operands, found, output, foundOutput, (), writable, compute,
      elements, (), quantization, (), weights, (), params, (), shape, rfl⟩

end Graph

namespace OpKind

theorem checkArity_eq_ok_iff {kind : OpKind} {inputs outputs : Nat} :
    kind.checkArity inputs outputs = .ok () ↔
      kind.inputArity.allows inputs = true ∧ outputs = 1 := by
  unfold checkArity outputCount
  cases kind.inputArity.allows inputs with
  | false => simp
  | true => by_cases one : outputs = 1 <;> simp [one]

end OpKind

theorem Value.checkOutput_eq_ok_iff {output : Value} {inputs : List ValueId} :
    output.checkOutput inputs = .ok () ↔
      output.id ∉ inputs ∧ output.producer = none ∧ output.consumers = [] ∧
        output.contents = none := by
  unfold Value.checkOutput
  by_cases aliased : output.id ∈ inputs
  · simp [aliased]
  · rw [if_neg aliased]
    cases output.producer with
    | some producer => simp
    | none =>
        cases output.consumers with
        | cons consumer later => simp
        | nil => cases contents : output.contents <;> simp [Value.isStatic, aliased, contents]

namespace Graph

/-- What an accepted call does, one case for every kind of call. -/
theorem answer_cases {graph after : Graph} {call : BuildCall} {reply : BuildReply}
    (answered : graph.answer call = .ok (reply, after)) :
    (∃ spec quantization id, reply = .value id ∧ Placed graph spec quantization id after ∧
      quantization.isSome = spec.element.isQuantized ∧
      (∀ given, quantization = some given → given.validate spec.element = .ok ()) ∧
      ¬ (spec.flags.isExternal && spec.externalId.isNone) = true ∧ call.spec? = some spec) ∨
    (∃ node, reply = .node node ∧ Appended graph node after) ∨
    (reply = .closed ∧ after = graph.closed) := by
  cases call with
  | tensor spec =>
      obtain ⟨⟨id, made⟩, defined, same⟩ := map_eq_ok_iff.mp answered
      cases same
      obtain ⟨unquantized, defined⟩ := defineTensor_eq_ok_iff.mp defined
      obtain ⟨placed, internal⟩ := defineValue_eq_ok_iff.mp defined
      exact .inl ⟨spec, none, id, rfl, placed, by simp [unquantized], by simp, internal, rfl⟩
  | quantizedTensor spec quantization =>
      obtain ⟨⟨id, made⟩, defined, same⟩ := map_eq_ok_iff.mp answered
      cases same
      obtain ⟨quantized, valid, defined⟩ := defineQuantizedTensor_eq_ok_iff.mp defined
      obtain ⟨placed, internal⟩ := defineValue_eq_ok_iff.mp defined
      refine .inl ⟨spec, some quantization, id, rfl, placed, by simp [quantized], ?_, internal,
        rfl⟩
      intro given same
      cases same
      exact valid
  | node kind inputs outputs params flags =>
      obtain ⟨⟨node, made⟩, defined, same⟩ := map_eq_ok_iff.mp answered
      cases same
      obtain ⟨compute, admission, _, rfl, rfl⟩ := defineNode_eq_ok_iff.mp defined
      exact .inr (.inl ⟨_, rfl, (computeOf_eq_ok_iff.mp admission).1, admission, rfl, rfl⟩)
  | close =>
      cases answered
      exact .inr (.inr ⟨rfl, rfl⟩)

/-! ## The tables after a node -/

/-- A value after a node has been noted at it. -/
def tied (node : Node) (id : ValueId) (value : Value) : Value :=
  { value with
    producer := if id ∈ node.outputs then some node.id else value.producer
    consumers :=
      if id ∈ node.inputs ∧ node.id ∉ value.consumers then value.consumers ++ [node.id]
      else value.consumers }

theorem getElem?_addConsumers (values : List Value) (node : Nat) (ids : List ValueId)
    (id : Nat) :
    (ids.foldl (addConsumer · node) values)[id]? =
      (values[id]?).map fun value =>
        { value with
          consumers :=
            if id ∈ ids ∧ node ∉ value.consumers then value.consumers ++ [node]
            else value.consumers } := by
  induction ids generalizing values with
  | nil => simp
  | cons head ids inductionHypothesis =>
      rw [List.foldl_cons, inductionHypothesis]
      unfold addConsumer
      rw [List.getElem?_modify]
      cases values[id]? with
      | none => simp
      | some value =>
          by_cases here : head = id
          · by_cases noted : node ∈ value.consumers
            · simp [here, noted]
            · simp [here, noted]
          · simp [here, Ne.symm here]

theorem getElem?_setProducers (values : List Value) (node : Nat) (ids : List ValueId)
    (id : Nat) :
    (ids.foldl (setProducer · node) values)[id]? =
      (values[id]?).map fun value =>
        { value with producer := if id ∈ ids then some node else value.producer } := by
  induction ids generalizing values with
  | nil => simp
  | cons head ids inductionHypothesis =>
      rw [List.foldl_cons, inductionHypothesis]
      unfold setProducer
      rw [List.getElem?_modify]
      cases values[id]? with
      | none => simp
      | some value =>
          by_cases here : head = id
          · simp [here]
          · simp [here, Ne.symm here]

theorem value?_appendNode (graph : Graph) (node : Node) (id : Nat) :
    (graph.appendNode node).value? id = (graph.value? id).map (tied node id) := by
  unfold value? appendNode
  dsimp only
  rw [getElem?_setProducers, getElem?_addConsumers, Option.map_map]
  rfl

theorem length_appendNode (graph : Graph) (node : Node) :
    (graph.appendNode node).values.length = graph.values.length := by
  have sameLength : ∀ id : Nat, (graph.appendNode node).values.length ≤ id ↔
      graph.values.length ≤ id := by
    intro id
    rw [← List.getElem?_eq_none_iff, ← List.getElem?_eq_none_iff]
    have look := value?_appendNode graph node id
    unfold value? at look
    rw [look, Option.map_eq_none_iff]
  exact Nat.le_antisymm ((sameLength _).mpr (Nat.le_refl _)) ((sameLength _).mp (Nat.le_refl _))

theorem node?_appendNode (graph : Graph) (node : Node) (index : Nat) :
    (graph.appendNode node).node? index =
      if index = graph.nodes.length then some node else graph.node? index := by
  unfold node? appendNode
  dsimp only
  rw [List.getElem?_append]
  by_cases before : index < graph.nodes.length
  · rw [if_pos before, if_neg (by omega)]
  · rw [if_neg before]
    by_cases same : index = graph.nodes.length
    · rw [if_pos same, same, Nat.sub_self, List.getElem?_cons_zero]
    · rw [if_neg same, List.getElem?_eq_none (by simp; omega), List.getElem?_eq_none (by omega)]

namespace Appended

variable {graph after : Graph} {node : Node} (appended : Appended graph node after)

include appended

/-- Every value after the addition of a node is an old one, with the node noted at it. -/
theorem exists_tied {id : Nat} {value : Value} (found : after.value? id = some value) :
    ∃ old, graph.value? id = some old ∧ tied node id old = value := by
  rw [appended.changed, value?_appendNode] at found
  exact Option.map_eq_some_iff.mp found

/-- The new node is found past the old ones. -/
theorem node?_eq (index : Nat) :
    after.node? index = if index = graph.nodes.length then some node else graph.node? index := by
  rw [appended.changed, node?_appendNode]

end Appended

end Graph

end TensorEngine
