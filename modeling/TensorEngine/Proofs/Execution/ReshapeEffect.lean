import TensorEngine.Proofs.Execution.PathIndependence

/-!
Contract: which accepted reshapes take effect.

Owns:
- `Executable.Follows`, an executable for a graph whose shapes have changed by reshapes only, and
  why the executable after any calls is one;
- `Follows.reshape_computed`, by which a reshape of the output of a node changes nothing;
- the theorem that an accepted reshape has its effect unless a node computes the value.

Does not own: which reshapes are accepted, and why all shapes follow after one.
-/

namespace TensorEngine

section Effects

variable {Op : Type}

namespace Executable

/-- An executable for a graph in which only inputs that the caller feeds and outputs of nodes have
other shapes than in the graph. -/
structure Follows (executable : Executable Op) (graph : Graph) : Prop where
  executes : executable.Executes graph
  keeps : executable.KeepsSources graph

namespace Follows

variable {executable : Executable Op} {graph : Graph} {id : Nat} {shape : Shape}

theorem reshape (follows : executable.Follows graph) (wellFormed : graph.WellFormed) (id : Nat)
    (shape : Shape) : (executable.reshape id shape).result.1.Follows graph where
  executes := (follows.executes.reshape wellFormed id shape).1
  keeps := follows.keeps.reshape follows.executes wellFormed id shape

/-- A reshape of what no node computes takes effect once it is accepted. -/
theorem reshape_source (follows : executable.Follows graph) (wellFormed : graph.WellFormed)
    (accepted : (executable.reshape id shape).result.2 = .ok ())
    (unwritten : ∀ node ∈ graph.nodes, id ∉ node.outputs) :
    (executable.reshape id shape).result.1.shape? id = some shape := by
  cases ran : executable.reshaped id shape with
  | error fault =>
      rw [reshape_of_error ran] at accepted
      cases accepted
  | ok shapes => rw [follows.executes.shape?_reshape wellFormed ran unwritten, if_pos rfl]

/-- A reshape of what a node computes changes no shape, accepted or not. -/
theorem reshape_computed (follows : executable.Follows graph) (wellFormed : graph.WellFormed)
    (written : ∃ node ∈ graph.nodes, id ∈ node.outputs) (shape : Shape) :
    (executable.reshape id shape).result.1.shapes = executable.shapes := by
  have after := follows.reshape wellFormed id shape
  -- the inputs that no node computes have kept their shapes, and they give all others
  refine after.executes.shapes_unique wellFormed follows.executes after.keeps follows.keeps ?_
  intro other _ _ _ unwritten
  cases ran : executable.reshaped id shape with
  | error fault => rw [reshape_of_error ran]
  | ok shapes =>
      have different : id ≠ other := by
        rintro rfl
        obtain ⟨node, listed, writes⟩ := written
        exact unwritten node listed writes
      rw [follows.executes.shape?_reshape wellFormed ran unwritten, if_neg different]

end Follows

end Executable

/-- A compiled graph has the shapes of the graph. -/
theorem Assembled.follows {graph : Graph} {settings : Settings} {executable : Executable Op}
    (assembled : Assembled graph settings executable) (admitted : graph.Admitted) :
    executable.Follows graph where
  executes := assembled.executes admitted
  keeps := by
    intro id value found _ _
    unfold Executable.shape?
    rw [assembled.values_eq, found, Option.map_some]

variable [Operator Op]

theorem Engine.follows_afterCalls {graph : Graph} (wellFormed : graph.WellFormed)
    {engine : Engine Op} (follows : engine.executable.Follows graph) (calls : List EngineCall) :
    (engine.afterCalls calls).executable.Follows graph where
  executes := executes_afterCalls wellFormed follows.executes calls
  keeps := keepsSources_afterCalls wellFormed follows.executes follows.keeps calls

/-- An accepted reshape takes effect unless a node computes the value.

The graph has been built by any calls and compiled with any catalog of operators, and any calls have
been made since. Then, after a reshape that is accepted, the value has the shape that was asked for
if and only if no node computes it or it had that shape before; and if a node computes the value,
the shapes of all values are what they were. -/
theorem reshape_takes_effect_iff (catalog : Catalog Op) (count : Nat) (calls : List BuildCall)
    (settings : Settings) (workshop : Workshop) (executable : Executable Op) (closed : Graph)
    (compiled : (compile catalog ((Graph.withExternalValues count).afterCalls calls) settings
      workshop).1 = .ok (executable, closed))
    (history : List EngineCall) :
    let graph := (Graph.withExternalValues count).afterCalls calls
    let current := ((Engine.start executable).afterCalls history).executable
    ∀ (id : Nat) (shape : Shape),
      let done := (current.reshape id shape).result
      done.2 = .ok () →
        (done.1.shape? id = some shape ↔
          (∀ node ∈ graph.nodes, id ∉ node.outputs) ∨ current.shape? id = some shape) ∧
        ((∃ node ∈ graph.nodes, id ∈ node.outputs) → done.1.shapes = current.shapes) := by
  intro graph current id shape done accepted
  have wellFormed : graph.WellFormed := Graph.wellFormed_afterCalls count calls
  have started : (Engine.start executable).executable.Follows graph :=
    (Assembled.of_compiled compiled).follows (Graph.admitted_afterCalls count calls)
  have follows : current.Follows graph := Engine.follows_afterCalls wellFormed started history
  have unchanged : (∃ node ∈ graph.nodes, id ∈ node.outputs) → done.1.shapes = current.shapes :=
    fun written => follows.reshape_computed wellFormed written shape
  refine ⟨?_, unchanged⟩
  by_cases unwritten : ∀ node ∈ graph.nodes, id ∉ node.outputs
  · exact iff_of_true (follows.reshape_source wellFormed accepted unwritten) (.inl unwritten)
  · have written : ∃ node ∈ graph.nodes, id ∈ node.outputs := by
      push Not at unwritten
      exact unwritten
    rw [or_iff_right unwritten, Executable.shape?_eq, Executable.shape?_eq, unchanged written]

end Effects

/-- The sizes of two numbers, with an output that is marked as an input. -/
def markedOutputGraph : List BuildCall :=
  [.tensor ⟨.float32, [2], none, some 0, .externalInput⟩,
    .tensor ⟨.float32, [2], none, some 1, .externalInput⟩,
    .node .abs [0] [1] .none 0]

def markedOutputExecutable : Executable StandardOperator where
  values := ((Graph.withExternalValues 2).afterCalls markedOutputGraph).values
  steps := [⟨⟨0, .abs, .fp32, [0], [1], .none, 0⟩, .mapping ⟨.abs, .single .abs, 1, 4096, 0⟩⟩]
  state := .compiled
  settings := {}
  sharesPacked := false
  sharesTables := false
  trace := []

theorem markedOutputGraph_compiles :
    (compile (Catalog.standard .portable)
      ((Graph.withExternalValues 2).afterCalls markedOutputGraph) {} {}).1 =
        .ok (markedOutputExecutable,
          ((Graph.withExternalValues 2).afterCalls markedOutputGraph).closed) := by
  cbv

/-- The theorem applies to the sizes: the input takes three numbers when asked to, and so does the
output. -/
theorem reshape_takes_effect_iff_sizes :
    let done := (markedOutputExecutable.reshape 0 [3]).result
    done.2 = .ok () ∧ done.1.shape? 0 = some [3] ∧ done.1.shape? 1 = some [3] := by
  intro done
  have accepted : done.2 = .ok () := rfl
  obtain ⟨takesEffect, _⟩ := reshape_takes_effect_iff (Catalog.standard .portable) 2
    markedOutputGraph {} {} markedOutputExecutable _ markedOutputGraph_compiles [] 0 [3] accepted
  have unwritten : ∀ node ∈ ((Graph.withExternalValues 2).afterCalls markedOutputGraph).nodes,
      0 ∉ node.outputs := by
    decide +kernel
  exact ⟨accepted, takesEffect.mpr (.inl unwritten), by decide +kernel⟩

/-- Asked for three numbers, the output that is marked as an input accepts and keeps two. -/
theorem marked_output_keeps_shape :
    ∃ executable closed, (compile (Catalog.standard .portable)
        ((Graph.withExternalValues 2).afterCalls markedOutputGraph) {} {}).1 =
          .ok (executable, closed) ∧
      (executable.reshape 1 [3]).result.2 = .ok () ∧
      (executable.reshape 1 [3]).notices = [.reshaped 1 [3]] ∧
      (executable.reshape 1 [3]).result.1.shape? 1 = some [2] :=
  ⟨markedOutputExecutable, _, markedOutputGraph_compiles, rfl, rfl, rfl⟩

end TensorEngine
