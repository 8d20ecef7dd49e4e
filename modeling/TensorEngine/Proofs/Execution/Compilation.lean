import TensorEngine.Execution.Compilation
import TensorEngine.Proofs.Cache.Keeping
import TensorEngine.Proofs.Kernel.Creation

/-!
Contract: what a successful compilation gives.

Owns:
- `Compiled`, a graph with one operator for each node, made for that node;
- the theorem that a successful compilation gives such a graph;
- the theorem that a compilation keeps an invariant of the caches, and ensures of its operators
  what the factories ensure.

Does not own: whether a compilation succeeds.
-/

namespace TensorEngine

open Making

structure Step.Made (values : List Value) (node : Node) (step : Step StandardOperator) :
    Prop where
  node_eq : step.node = node
  operator : step.operator.MadeFor node values

/-- What the compilation of each step keeps and ensures, a compilation keeps and ensures of all its
steps. -/
theorem compile_keeps_steps {Op : Type} {invariant : Option PackingCache → Option CodeCache → Prop}
    {each : Node → Step Op → Prop} (catalog : Catalog Op) (graph : Graph) (settings : Settings)
    (steps : ∀ node ∈ graph.nodes,
      (compileStep catalog settings graph.values node).Keeps invariant (each node)) :
    (compile catalog graph settings).Keeps invariant (fun made =>
      made.2 = graph.closed ∧ made.1.values = graph.values ∧ made.1.settings = settings ∧
        made.1.state = .compiled ∧ List.Forall₂ each graph.nodes made.1.steps) := by
  unfold compile
  extract_lets rest
  have keeps : ∀ checked, (rest checked).Keeps invariant (fun made =>
      made.2 = graph.closed ∧ made.1.values = graph.values ∧ made.1.settings = settings ∧
        made.1.state = .compiled ∧ List.Forall₂ each graph.nodes made.1.steps) := by
    intro checked
    refine (Keeps.mapM steps).bind fun made given => ?_
    refine (Keeps.report _).bind fun _ _ => ?_
    have looked : (get : Making Workshop).Keeps invariant (fun _ => True) :=
      fun _ kept => ⟨kept, fun _ _ => trivial⟩
    exact looked.bind fun workshop _ => Keeps.pure ⟨rfl, rfl, rfl, rfl, given⟩
  split
  · exact (Keeps.ofOutcome fun _ given => given).bind fun _ _ => keeps ()
  · exact keeps ()

theorem factoryFor_ends (features : Features) (node : Node) :
    (factoryFor (Catalog.standard features) node).Ends
      (fun factory => Catalog.Offers node.key factory) (fun _ => True) := by
  unfold factoryFor
  apply (Ends.somehow _).bind
  intro _ _
  apply Ends.reporting _
  exact Ends.of_outcome_ok fun factory => Catalog.offers_of_lookup

theorem compileStep_ends (features : Features) (settings : Settings) (values : List Value)
    (node : Node) :
    (compileStep (Catalog.standard features) settings values node).Ends
      (fun step => step.Made values node) (fun _ => True) := by
  unfold compileStep
  apply (factoryFor_ends features node).bind
  intro factory offers
  apply (Ends.somehow _).bind
  intro _ _
  have makes := @Catalog.Offers.makes
    { node := node, values := values, features := (Catalog.standard features).features,
      tileElements := settings.tileElements } factory offers
  exact (Ends.reporting _ makes).bind fun operator made => Ends.pure ⟨rfl, made⟩

structure Compiled (graph : Graph) (settings : Settings)
    (executable : Executable StandardOperator) : Prop where
  values_eq : executable.values = graph.values
  settings_eq : executable.settings = settings
  state_eq : executable.state = .compiled
  steps : List.Forall₂ (Step.Made graph.values) graph.nodes executable.steps

section Steps

variable {values : List Value} {nodes : List Node} {steps : List (Step StandardOperator)}

theorem nodes_of_made (made : List.Forall₂ (Step.Made values) nodes steps) :
    steps.map (·.node) = nodes := by
  induction made with
  | nil => rfl
  | cons head _ inductionHypothesis =>
      rw [List.map_cons, head.node_eq, inductionHypothesis]

theorem operators_of_made (made : List.Forall₂ (Step.Made values) nodes steps) :
    ∀ step ∈ steps, step.operator.MadeFor step.node values := by
  induction made with
  | nil => exact fun _ listed => (nomatch listed)
  | cons head _ inductionHypothesis =>
      rw [List.forall_mem_cons, head.node_eq]
      exact ⟨head.operator, inductionHypothesis⟩

end Steps

theorem compile_ends (features : Features) (graph : Graph) (settings : Settings) :
    (compile (Catalog.standard features) graph settings).Ends
      (fun made => Compiled graph settings made.1 ∧ made.2 = graph.closed) (fun _ => True) := by
  refine ((compile_keeps_steps _ graph settings fun node _ =>
    Keeps.of_ends (compileStep_ends features settings graph.values node)).mono ?_).to_ends
  rintro made ⟨closed, values, given, state, steps⟩
  exact ⟨⟨values, given, state, steps⟩, closed⟩

/-! ## What factories ensure -/

section Keeps

variable {invariant : Option PackingCache → Option CodeCache → Prop}
  {ensured : Node → StandardOperator → Prop}
  (features : Features) (settings : Settings)

theorem factoryFor_keeps (node : Node) :
    (factoryFor (Catalog.standard features) node).Keeps invariant
      (fun factory => Catalog.Offers node.key factory) := by
  have reported : ∀ notices : List Notice, (forIn notices PUnit.unit fun notice _ => do
      Making.report notice
      pure (ForInStep.yield PUnit.unit)).Keeps invariant (fun _ => True) := by
    intro notices
    induction notices with
    | nil => exact Keeps.pure trivial
    | cons notice notices inductionHypothesis =>
        rw [List.forIn_cons]
        exact (Keeps.report notice).bind fun _ _ => inductionHypothesis
  unfold factoryFor
  refine (reported _).bind fun _ _ => ?_
  exact Keeps.reporting _ (Keeps.ofOutcome fun factory => Catalog.offers_of_lookup)

/-- What every offered factory ensures of the operator of its node, beside an invariant of the
caches, a compilation ensures of all its steps. -/
theorem compile_keeps (graph : Graph)
    (each : ∀ node ∈ graph.nodes, ∀ factory, Catalog.Offers node.key factory →
      (factory.create ⟨node, graph.values, (Catalog.standard features).features,
        settings.tileElements⟩).Keeps invariant (ensured node)) :
    (compile (Catalog.standard features) graph settings).Keeps invariant
      (fun made => ∀ step ∈ made.1.steps, ensured step.node step.operator) := by
  have steps : ∀ node ∈ graph.nodes,
      (compileStep (Catalog.standard features) settings graph.values node).Keeps invariant
        (fun step => ensured step.node step.operator) := by
    intro node listed
    unfold compileStep
    refine (factoryFor_keeps features node).bind fun factory offers => ?_
    refine (Keeps.report _).bind fun _ _ => ?_
    exact (Keeps.reporting _ (each node listed factory offers)).bind fun _ made => Keeps.pure made
  refine (compile_keeps_steps _ graph settings steps).mono fun made assembled step listed => ?_
  obtain ⟨_, _, holds⟩ := exists_of_forall₂_right assembled.2.2.2.2 listed
  exact holds

end Keeps

end TensorEngine
