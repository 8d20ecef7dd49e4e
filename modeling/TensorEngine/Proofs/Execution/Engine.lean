import TensorEngine.Execution.Run
import TensorEngine.Proofs.Execution.Session

/-!
Contract: a compiled graph in use, whatever its operators do.

Owns:
- `Assembled`, what a successful compilation with any catalog gives;
- `EngineCall` and `Engine.perform`, every call on a compiled graph or on the blobs it is bound to,
  with the outcome that the caller sees;
- the induction over calls: values change by reshapes only, and the nodes of the steps never.

Does not own: the states between calls, and what operators write.
-/

namespace TensorEngine

open Making

/-! ## Compilation with any catalog -/

section Compilation

variable {Op : Type}

/-- A step for every node of a graph, over the values of the graph. -/
structure Assembled (graph : Graph) (settings : Settings) (executable : Executable Op) :
    Prop where
  values_eq : executable.values = graph.values
  nodes_eq : executable.steps.map (·.node) = graph.nodes
  settings_eq : executable.settings = settings
  state_eq : executable.state = .compiled

theorem compileStep_node (catalog : Catalog Op) (settings : Settings) (values : List Value)
    (node : Node) :
    (compileStep catalog settings values node).Ends (fun step => step.node = node)
      (fun _ => True) := by
  unfold compileStep
  refine (Ends.somehow _).bind fun factory _ => ?_
  refine (Ends.somehow _).bind fun _ _ => ?_
  exact (Ends.somehow _).bind fun operator _ => Ends.pure rfl

theorem compile_assembles (catalog : Catalog Op) (graph : Graph) (settings : Settings) :
    (compile catalog graph settings).Ends (fun made => Assembled graph settings made.1)
      (fun _ => True) := by
  refine ((compile_keeps_steps catalog graph settings fun node _ =>
    Keeps.of_ends (compileStep_node catalog settings graph.values node)).mono ?_).to_ends
  rintro made ⟨_, values, given, state, steps⟩
  have nodes := List.forall₂_map_left_iff.mpr (List.Forall₂.flip steps)
  exact ⟨values, List.forall₂_eq_eq_eq ▸ nodes, given, state⟩

theorem Assembled.of_compiled {catalog : Catalog Op} {graph closed : Graph} {settings : Settings}
    {workshop : Workshop} {executable : Executable Op}
    (compiled : (compile catalog graph settings workshop).1 = .ok (executable, closed)) :
    Assembled graph settings executable :=
  (compile_assembles catalog graph settings).of_ok (Prod.ext compiled rfl)

theorem Assembled.executes {graph : Graph} {settings : Settings} {executable : Executable Op}
    (assembled : Assembled graph settings executable) (admitted : graph.Admitted) :
    executable.Executes graph where
  nodes_eq := assembled.nodes_eq
  table := by
    rw [assembled.values_eq]
    exact .refl _
  follow := by
    intro node listed
    obtain ⟨operands, output, admittedNode⟩ := admitted node listed
    unfold Executable.shapes
    rw [assembled.values_eq]
    exact admittedNode.shapesFollow

end Compilation

/-! ## Calls -/

/-- A call on a compiled graph, or on the blobs that it is bound to. -/
inductive EngineCall where
  | reshape (id : ValueId) (shape : Shape)
  | setup (blobs : BlobTable)
  | run (schedule : Schedule)
  | overwrite (id : ValueId) (bytes : Bytes)
  | release
  | clearTrace

/-- Whether a call is one on the bound blobs. Every other call ends the binding. -/
def EngineCall.UsesBinding : EngineCall → Prop
  | run _ | overwrite _ _ => True
  | _ => False

/-- A compiled graph, and the blobs that it is bound to after a set-up. -/
structure Engine (Op : Type) where
  executable : Executable Op
  binding : Option BlobTable

namespace Engine

variable {Op : Type}

/-- A compiled graph without a binding. -/
def start (executable : Executable Op) : Engine Op := ⟨executable, none⟩

/-- A call on the bound blobs. Without them there is nothing to call. -/
def onBinding (engine : Engine Op) (call : Bound Op → Bound Op × Outcome Unit) :
    Engine Op × Outcome Unit :=
  match engine.binding with
  | none => (engine, .ok ())
  | some blobs =>
      let done := call ⟨engine.executable, blobs⟩
      (⟨done.1.executable, some done.1.blobs⟩, done.2)

variable [Operator Op]

/-- The engine after a call, with the outcome of the call. A successful set-up binds its blobs. -/
def perform (engine : Engine Op) (call : EngineCall) : Engine Op × Outcome Unit :=
  match call with
  | .reshape id shape =>
      let done := (engine.executable.reshape id shape).result
      (start done.1, done.2)
  | .setup blobs =>
      let done := (engine.executable.setup blobs).result
      (⟨done.1, if done.2.isOk then some blobs else none⟩, done.2)
  | .run schedule => engine.onBinding fun binding => (binding.run schedule).result
  | .overwrite id bytes =>
      engine.onBinding fun binding =>
        match binding.overwrite UInt8 id bytes with
        | .ok (written, _) => (written, .ok ())
        | .error fault => (binding, .error fault)
  | .release => (start engine.executable, .ok ())
  | .clearTrace => (start engine.executable.withoutTrace, .ok ())

def after (engine : Engine Op) (call : EngineCall) : Engine Op := (engine.perform call).1

def afterCalls (engine : Engine Op) (calls : List EngineCall) : Engine Op :=
  calls.foldl after engine

theorem afterCalls_append (engine : Engine Op) (earlier later : List EngineCall) :
    engine.afterCalls (earlier ++ later) = (engine.afterCalls earlier).afterCalls later :=
  List.foldl_append

theorem afterCalls_concat (engine : Engine Op) (calls : List EngineCall) (call : EngineCall) :
    engine.afterCalls (calls ++ [call]) = (engine.afterCalls calls).after call :=
  engine.afterCalls_append calls [call]

end Engine

/-! ## What calls change -/

section Changes

variable {Op : Type} [Operator Op]

theorem setUpSteps_nodes (settings : Settings) (values : List Value) (steps : List (Step Op))
    (trace : List TraceEvent) :
    (setUpSteps settings values steps trace).steps.map (·.node) = steps.map (·.node) := by
  induction steps generalizing trace with
  | nil => rfl
  | cons step steps inductionHypothesis =>
      unfold setUpSteps
      cases operandShapes values step.node with
      | error fault => rfl
      | ok shapes =>
          dsimp only
          cases Operator.setup step.operator shapes.1 shapes.2 with
          | mk operator outcome =>
              cases outcome with
              | error fault => rfl
              | ok done => exact congrArg (step.node :: ·) (inductionHypothesis _)

theorem Executable.setup_nodes (executable : Executable Op) (blobs : BlobTable) :
    (executable.setup blobs).result.1.steps.map (·.node) = executable.steps.map (·.node) := by
  unfold Executable.setup
  dsimp only
  cases (executable.steps.map (·.node)).forM (checkOperands executable.values blobs) with
  | error fault => rfl
  | ok passed => exact setUpSteps_nodes _ _ _ _

/-- A run changes nothing of the executable but the state and the trace. -/
theorem Bound.run_executable (binding : Bound Op) (schedule : Schedule) :
    ∃ trace state, (binding.run schedule).result.1.executable =
      { binding.executable with trace := trace, state := state } := by
  unfold Bound.run
  dsimp only
  split
  · exact ⟨_, _, rfl⟩
  · exact ⟨_, _, rfl⟩

namespace Engine

omit [Operator Op] in
/-- The executable after a call on the bound blobs, if the call changes no more than a run does. -/
theorem onBinding_executable (engine : Engine Op) {call : Bound Op → Bound Op × Outcome Unit}
    (changes : ∀ binding, ∃ trace state, (call binding).1.executable =
      { binding.executable with trace := trace, state := state }) :
    ∃ trace state, (engine.onBinding call).1.executable =
      { engine.executable with trace := trace, state := state } := by
  unfold onBinding
  split
  · exact ⟨_, _, rfl⟩
  · exact changes _

/-- Overwritten bytes change nothing of the executable. -/
theorem after_overwrite (engine : Engine Op) (id : ValueId) (bytes : Bytes) :
    (engine.after (.overwrite id bytes)).executable = engine.executable := by
  unfold after perform onBinding
  dsimp only
  split
  · rfl
  · dsimp only
    split
    · rename_i ran
      exact Bound.overwrite_executable ran
    · rfl

/-- A run changes nothing of the executable but the state and the trace. -/
theorem after_run (engine : Engine Op) (schedule : Schedule) :
    ∃ trace state, (engine.after (.run schedule)).executable =
      { engine.executable with trace := trace, state := state } :=
  engine.onBinding_executable fun binding => binding.run_executable schedule

/-- What holds of an executable, depends on its values and on the nodes of its steps only, and is
kept by reshapes, holds after any calls. -/
theorem afterCalls_induction {holds : Executable Op → Prop}
    (congr : ∀ {executable other : Executable Op}, holds executable →
      other.values = executable.values →
      other.steps.map (·.node) = executable.steps.map (·.node) → holds other)
    (reshape : ∀ {executable : Executable Op} (id : ValueId) (shape : Shape), holds executable →
      holds (executable.reshape id shape).result.1)
    {engine : Engine Op} (held : holds engine.executable) (calls : List EngineCall) :
    holds (engine.afterCalls calls).executable := by
  induction calls generalizing engine with
  | nil => exact held
  | cons call calls inductionHypothesis =>
      refine @inductionHypothesis (engine.after call) ?_
      cases call with
      | reshape id shape => exact reshape id shape held
      | setup blobs => exact congr held rfl (engine.executable.setup_nodes blobs)
      | run schedule =>
          obtain ⟨trace, state, same⟩ := engine.after_run schedule
          rw [same]
          exact congr held rfl rfl
      | overwrite id bytes =>
          rw [after_overwrite]
          exact held
      | release => exact held
      | clearTrace => exact congr held rfl rfl

/-- After any calls, an executable for a graph is one for the same graph. -/
theorem executes_afterCalls {graph : Graph} (wellFormed : graph.WellFormed) {engine : Engine Op}
    (executes : engine.executable.Executes graph) (calls : List EngineCall) :
    (engine.afterCalls calls).executable.Executes graph := by
  let holds : Executable Op → Prop := fun executable => executable.Executes graph
  have held : holds engine.executable := executes
  exact afterCalls_induction (fun executes => Executable.Executes.congr executes)
    (fun id shape executes => (Executable.Executes.reshape executes wellFormed id shape).1) held
    calls

end Engine

end Changes

end TensorEngine
