import TensorEngine.Proofs.Execution.SharedCompilation

/-!
Contract: what a graph that has been compiled says to further definitions.

Owns:
- `Definition`, every definition of a value or a node, and its reply;
- `Definition.WellTyped`, tensors that are given a quantization as their storage type demands;
- the theorem that a closed graph refuses every definition and stays as it is, and says that it is
  closed exactly to well-typed definitions.

Does not own: which definitions an open graph accepts.

The type of a tensor is looked at before the graph is. A definition with a fault there is refused
for this fault, by a closed graph as by any other.
-/

namespace TensorEngine

inductive Definition where
  | tensor (spec : TensorSpec)
  | quantizedTensor (spec : TensorSpec) (quantization : Quantization)
  | node (kind : OpKind) (inputs outputs : List ValueId) (params : OpParams) (flags : UInt32)
  | ofKind (kind : OpKind) (inputs : List ValueId) (output : ValueId) (given : OpParams)
      (flags : UInt32)

/-- A tensor is given a quantization exactly if its storage type has codes, and one that suits it.
Nodes are well typed in this sense. -/
def Definition.WellTyped : Definition → Prop
  | tensor spec => spec.element.isQuantized = false
  | quantizedTensor spec quantization =>
      spec.element.isQuantized = true ∧ quantization.validate spec.element = .ok ()
  | node .. | ofKind .. => True

namespace Graph

/-- The reply to a definition and the graph after it, or the reason for its refusal. -/
def define (graph : Graph) (definition : Definition) : Except GraphFault (BuildReply × Graph) :=
  match definition with
  | .tensor spec => graph.answer (.tensor spec)
  | .quantizedTensor spec quantization => graph.answer (.quantizedTensor spec quantization)
  | .node kind inputs outputs params flags =>
      graph.answer (.node kind inputs outputs params flags)
  | .ofKind kind inputs output given flags =>
      (fun (node, after) => (.node node, after)) <$>
        graph.defineKind kind inputs output given flags

/-- The graph after a sequence of definitions. A refused one leaves it as it was. -/
def afterDefinitions (graph : Graph) (definitions : List Definition) : Graph :=
  definitions.foldl
    (fun current definition =>
      match current.define definition with
      | .ok (_, after) => after
      | .error _ => current)
    graph

/-! ## Well-typed definitions -/

section Closed

variable {graph : Graph} (isClosed : graph.isSealed = true)

include isClosed

theorem defineValue_of_isSealed (spec : TensorSpec) (quantization : Option Quantization) :
    graph.defineValue spec quantization = .error .graphSealed := by
  unfold defineValue
  rw [if_pos isClosed]
  rfl

theorem defineNode_of_isSealed (kind : OpKind) (inputs outputs : List ValueId)
    (params : OpParams) (flags : UInt32) :
    graph.defineNode kind inputs outputs params flags = .error .graphSealed := by
  unfold defineNode computeOf
  rw [if_pos isClosed]
  rfl

/-- A closed graph says so to every well-typed definition. -/
theorem define_of_wellTyped {definition : Definition} (typed : definition.WellTyped) :
    graph.define definition = .error .graphSealed := by
  cases definition with
  | tensor spec =>
      have plain : spec.element.isQuantized = false := typed
      unfold define answer defineTensor
      dsimp only
      rw [plain, if_neg Bool.false_ne_true, defineValue_of_isSealed isClosed]
      rfl
  | quantizedTensor spec quantization =>
      obtain ⟨quantized, valid⟩ := typed
      unfold define answer defineQuantizedTensor
      dsimp only
      rw [quantized, if_neg (by decide), valid]
      dsimp only
      rw [defineValue_of_isSealed isClosed]
      rfl
  | node kind inputs outputs params flags =>
      unfold define answer
      dsimp only
      rw [defineNode_of_isSealed isClosed]
      rfl
  | ofKind kind inputs output given flags =>
      unfold define defineKind
      dsimp only
      rw [defineNode_of_isSealed isClosed]
      rfl

end Closed

/-! ## Other definitions -/

/-- A definition that is not well typed is refused for its type, whatever the graph. -/
theorem define_of_not_wellTyped {definition : Definition} (untyped : ¬ definition.WellTyped) :
    ∃ cause, ∀ graph : Graph, graph.define definition = .error (.invalidTensor cause) := by
  cases definition with
  | tensor spec =>
      have quantized : spec.element.isQuantized = true := Bool.not_eq_false _ ▸ untyped
      refine ⟨.needsQuantization spec.element, fun graph => ?_⟩
      unfold define answer defineTensor
      dsimp only
      rw [if_pos quantized]
      rfl
  | quantizedTensor spec quantization =>
      cases quantized : spec.element.isQuantized with
      | false =>
          refine ⟨.takesNoQuantization spec.element, fun graph => ?_⟩
          unfold define answer defineQuantizedTensor
          dsimp only
          rw [quantized]
          rfl
      | true =>
          cases checked : quantization.validate spec.element with
          | ok _ => exact absurd ⟨quantized, checked⟩ untyped
          | error cause =>
              refine ⟨.quantization cause, fun graph => ?_⟩
              unfold define answer defineQuantizedTensor
              dsimp only
              rw [quantized, checked]
              rfl
  | node kind inputs outputs params flags => exact absurd trivial untyped
  | ofKind kind inputs output given flags => exact absurd trivial untyped

theorem exists_define_eq_error {graph : Graph} (isClosed : graph.isSealed = true)
    (definition : Definition) : ∃ fault, graph.define definition = .error fault := by
  by_cases typed : definition.WellTyped
  · exact ⟨_, define_of_wellTyped isClosed typed⟩
  · obtain ⟨cause, refused⟩ := define_of_not_wellTyped typed
    exact ⟨_, refused graph⟩

theorem afterDefinitions_of_isSealed {graph : Graph} (isClosed : graph.isSealed = true)
    (definitions : List Definition) : graph.afterDefinitions definitions = graph := by
  induction definitions with
  | nil => rfl
  | cons definition definitions inductionHypothesis =>
      obtain ⟨fault, refused⟩ := exists_define_eq_error isClosed definition
      unfold afterDefinitions at inductionHypothesis ⊢
      rw [List.foldl_cons, refused]
      exact inductionHypothesis

end Graph

/-! ## Compiled graphs -/

section Compiled

variable {Op : Type}

/-- A compilation that has given a result closes its graph and changes nothing else of it. -/
theorem closed_of_compiled {catalog : Catalog Op} {graph closed : Graph} {settings : Settings}
    {workshop : Workshop} {executable : Executable Op}
    (compiled : (compile catalog graph settings workshop).1 = .ok (executable, closed)) :
    closed = graph.closed := by
  have keeps := compile_keeps_steps catalog graph settings fun node _ =>
    Making.Keeps.of_ends (Making.Ends.somehow (compileStep catalog settings graph.values node))
  exact (keeps.to_ends.of_ok (Prod.ext compiled rfl)).1

/-- A compiled graph refuses every definition and stays as it is.

The graph has been built by any calls and compiled with any catalog, and any definitions have been
tried since. Then every further definition is refused, with any arguments. The fault is that the
graph is closed, and its status that of an invalid state, exactly for well-typed definitions; any
other definition is refused for the fault that the graph had for it before it was compiled. -/
theorem closed_graph_refuses_definitions (catalog : Catalog Op) (count : Nat)
    (calls : List BuildCall) (settings : Settings) (workshop : Workshop)
    (executable : Executable Op) (closed : Graph)
    (compiled : (compile catalog ((Graph.withExternalValues count).afterCalls calls) settings
      workshop).1 = .ok (executable, closed))
    (earlier : List Definition) (definition : Definition) :
    closed.afterDefinitions earlier = closed ∧
    ∃ fault, (closed.afterDefinitions earlier).define definition = .error fault ∧
      (fault = .graphSealed ↔ definition.WellTyped) ∧
      (fault.status = .invalidState ↔ definition.WellTyped) ∧
      (¬ definition.WellTyped →
        ((Graph.withExternalValues count).afterCalls calls).define definition = .error fault) := by
  have isClosed : closed.isSealed = true := by
    rw [closed_of_compiled compiled]
    rfl
  have stays := Graph.afterDefinitions_of_isSealed isClosed earlier
  refine ⟨stays, ?_⟩
  rw [stays]
  by_cases typed : definition.WellTyped
  · exact ⟨.graphSealed, Graph.define_of_wellTyped isClosed typed, iff_of_true rfl typed,
      iff_of_true rfl typed, fun untyped => absurd typed untyped⟩
  · obtain ⟨cause, refused⟩ := Graph.define_of_not_wellTyped typed
    exact ⟨.invalidTensor cause, refused closed, iff_of_false nofun typed,
      iff_of_false nofun typed, fun _ => refused _⟩

end Compiled

def magnitudeGraph : List BuildCall :=
  [.tensor ⟨.float32, [2], none, some 0, .externalInput⟩,
    .tensor ⟨.float32, [2], none, some 1, .externalOutput⟩,
    .node .abs [0] [1] .none 0]

theorem magnitudeGraph_compiles : ∃ executable closed,
    ((portableJob magnitudeGraph).run {}).1 = .ok (executable, closed) := by
  obtain ⟨executable, closed, ran, _⟩ :=
    CompileJob.exists_of_isSome (portableJob magnitudeGraph) {} (by cbv)
  exact ⟨executable, closed, ran⟩

/-- The theorem applies to the compiled magnitudes: a node between values that do not exist is
refused because the graph is closed. -/
theorem closed_graph_refuses_definitions_magnitude :
    ∃ executable closed, ((portableJob magnitudeGraph).run {}).1 = .ok (executable, closed) ∧
      closed.afterDefinitions [.node .tanh [0] [1] .none 0] = closed ∧
      closed.define (.ofKind .clamp [7] 9 .none 0) = .error .graphSealed := by
  obtain ⟨executable, closed, ran⟩ := magnitudeGraph_compiles
  obtain ⟨stays, fault, refused, sealed, _⟩ :=
    closed_graph_refuses_definitions (Catalog.standard .portable) 2 magnitudeGraph {} {} executable
      closed ran [.node .tanh [0] [1] .none 0] (.ofKind .clamp [7] 9 .none 0)
  rw [stays, sealed.mpr trivial] at refused
  exact ⟨executable, closed, ran, stays, refused⟩

/-- The compiled magnitudes refuse codes without a quantization for their type, with the status of
an invalid parameter. -/
theorem closed_graph_names_type :
    ∃ executable closed, ((portableJob magnitudeGraph).run {}).1 = .ok (executable, closed) ∧
      ∃ fault, closed.define (.tensor ⟨.qint8, [2], none, none, .none⟩) = .error fault ∧
        fault = .invalidTensor (.needsQuantization .qint8) ∧
        fault.status = .invalidParameter ∧ fault.status ≠ .invalidState := by
  obtain ⟨executable, closed, ran⟩ := magnitudeGraph_compiles
  exact ⟨executable, closed, ran, _, rfl, rfl, rfl, nofun⟩

end TensorEngine
