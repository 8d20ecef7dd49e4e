import TensorEngine.Proofs.Execution.Dataflow
import TensorEngine.Proofs.Execution.Engine

/-!
Contract: a reshape changes all shapes or none, and the shapes after any reshapes are a function of
the shapes of the inputs.

Owns:
- `follow_unique`, by which shapes that follow are given by those that no node computes;
- why a reshape is refused;
- `Executable.KeepsSources`, by which only inputs that the caller feeds get other shapes;
- the theorem on a reshape of a compiled graph after any calls.

Does not own: what a reshape means for operators, which have to be set up again.
-/

namespace TensorEngine

/-! ## Shapes that follow -/

/-- Looked up at the same places, tables give the same shapes. -/
theorem forall₂_shapes_unique {first second : List Shape} {ids : List ValueId}
    {shapes others : List Shape} (same : ∀ id : Nat, id ∈ ids → first[id]? = second[id]?)
    (found : List.Forall₂ (fun (id : Nat) shape => first[id]? = some shape) ids shapes)
    (foundOthers : List.Forall₂ (fun (id : Nat) shape => second[id]? = some shape) ids others) :
    shapes = others := by
  induction found generalizing others with
  | nil =>
      cases foundOthers
      rfl
  | cons head _ inductionHypothesis =>
      cases foundOthers with
      | cons headOther rest =>
          rw [same _ List.mem_cons_self, headOther, Option.some.injEq] at head
          rw [head, inductionHypothesis (fun id listed => same id (List.mem_cons_of_mem _ listed))
            rest]

/-- Tables of the same ranks in which all shapes follow agree on what nodes compute, once they agree
on what nodes only read. -/
theorem follow_unique {nodes : List Node} {first second : List Shape}
    (ordered : Graph.Ordered nodes) (sameRanks : SameRanks first second)
    (followFirst : ∀ node ∈ nodes, node.ShapesFollow first)
    (followSecond : ∀ node ∈ nodes, node.ShapesFollow second)
    (sources : ∀ node ∈ nodes, ∀ id : Nat, id ∈ node.inputs →
      (∀ other ∈ nodes, id ∉ other.outputs) → first[id]? = second[id]?) :
    ∀ node ∈ nodes, ∀ id : Nat, id ∈ node.outputs → first[id]? = second[id]? := by
  induction nodes with
  | nil => exact fun _ listed => (nomatch listed)
  | cons head nodes inductionHypothesis =>
      obtain ⟨single, fresh⟩ := ordered
      rw [List.forall_mem_cons] at single
      rw [List.pairwise_cons] at fresh
      obtain ⟨inputs, output, shape, found, outputs, foundOutput, follows⟩ :=
        followFirst head List.mem_cons_self
      obtain ⟨inputsSecond, outputSecond, shapeSecond, foundSecond, outputsSecond,
        foundOutputSecond, followsSecond⟩ := followSecond head List.mem_cons_self
      -- neither the first node nor a later one computes an input of the first node
      have unwritten : ∀ id ∈ head.inputs, ∀ other ∈ head :: nodes, id ∉ other.outputs := by
        intro id read
        rw [List.forall_mem_cons]
        constructor
        · obtain ⟨place, outputsAgain, unread⟩ := single.1
          rw [outputsAgain, List.mem_singleton]
          rintro rfl
          exact unread read
        · exact fun other listed written => (fresh.1 other listed id written).1 read
      have sameInputs := forall₂_shapes_unique (fun id read =>
        sources head List.mem_cons_self id read (unwritten id read)) found foundSecond
      have agreeHead : ∀ id : Nat, id ∈ head.outputs → first[id]? = second[id]? := by
        intro id written
        rw [outputs, List.mem_singleton] at written
        rw [outputs, List.cons.injEq, and_iff_left rfl] at outputsSecond
        rw [← outputsSecond] at foundOutputSecond
        have ranks := sameRanks.get? output
        rw [foundOutput, foundOutputSecond, Option.map_some, Option.map_some,
          Option.some.injEq] at ranks
        rw [sameInputs, ranks, followsSecond, Except.ok.injEq] at follows
        rw [written, foundOutput, foundOutputSecond, follows]
      refine List.forall_mem_cons.mpr ⟨agreeHead, inductionHypothesis ⟨single.2, fresh.2⟩
        (fun node listed => followFirst node (List.mem_cons_of_mem _ listed))
        (fun node listed => followSecond node (List.mem_cons_of_mem _ listed)) ?_⟩
      intro node listed id read unwrittenLater
      by_cases here : id ∈ head.outputs
      · exact agreeHead id here
      · exact sources node (List.mem_cons_of_mem _ listed) id read
          (List.forall_mem_cons.mpr ⟨here, unwrittenLater⟩)

/-! ## Refusals -/

def Fault.IsParameter (fault : Fault) : Prop :=
  ∃ cause, fault = .refused (.invalidParameter cause)

theorem SameRanks.exists_operand {shapes before : List Shape} (sameRanks : SameRanks shapes before)
    {id : Nat} {shape : Shape} (found : before[id]? = some shape) :
    ∃ other, operand shapes id = .ok other := by
  have ranks := sameRanks.get? id
  rw [found, Option.map_some, Option.map_eq_some_iff] at ranks
  exact ranks.imp fun other given => operand_eq_ok_iff.mpr given.1

/-- What is there in one table is there in a table of the same ranks. -/
theorem SameRanks.exists_operands {shapes before : List Shape}
    (sameRanks : SameRanks shapes before) {ids : List ValueId} {earlier : List Shape}
    (found : List.Forall₂ (fun (id : Nat) shape => before[id]? = some shape) ids earlier) :
    ∃ inputs, ids.mapM (fun input => operand shapes input) = .ok inputs ∧
      inputs.length = earlier.length := by
  simp only [mapM_eq_ok_iff]
  induction found with
  | nil => exact ⟨[], .nil, rfl⟩
  | cons head _ inductionHypothesis =>
      obtain ⟨other, given⟩ := sameRanks.exists_operand head
      obtain ⟨inputs, givenRest, count⟩ := inductionHypothesis
      exact ⟨other :: inputs, .cons given givenRest, by simp [count]⟩

/-- Where the shapes of a node followed once, new shapes of the same ranks are refused for what they
are. -/
theorem propagateNode_refuses {id : Nat} {node : Node} {before shapes : List Shape}
    (followed : node.ShapesFollow before) (sameRanks : SameRanks shapes before) :
    (propagateNode id shapes node).FailsOnly Fault.IsParameter := by
  obtain ⟨earlier, place, shape, found, outputs, foundShape, follows⟩ := followed
  obtain ⟨inputs, read, count⟩ := sameRanks.exists_operands found
  obtain ⟨declared, declaredThere⟩ := sameRanks.exists_operand foundShape
  have written : operand node.outputs 0 = (.ok place : Outcome ValueId) := by
    rw [outputs]
    rfl
  unfold propagateNode
  refine .known read (.known written (.known declaredThere (.bind ?_ fun _ _ => .pure _)))
  intro fault failed
  cases inferred : node.kind.outputShape node.flags inputs declared.length with
  | ok shape =>
      rw [inferred] at failed
      cases failed
  | error cause =>
      rw [inferred] at failed
      cases failed
      have present := OpKind.outputShape_refuses count follows inferred
      unfold reshapeFault
      split
      · exact absurd rfl present
      · exact ⟨_, rfl⟩

theorem propagate_refuses {id : Nat} {nodes : List Node} {before shapes : List Shape}
    (ordered : Graph.Ordered nodes) (followed : ∀ node ∈ nodes, node.ShapesFollow before)
    (sameRanks : SameRanks shapes before) :
    (propagate id nodes shapes).FailsOnly Fault.IsParameter := by
  induction nodes generalizing shapes with
  | nil => exact .pure _
  | cons head nodes inductionHypothesis =>
      obtain ⟨single, fresh⟩ := ordered
      rw [List.forall_mem_cons] at single followed
      unfold propagate
      rw [List.foldlM_cons]
      refine (propagateNode_refuses followed.1 sameRanks).bind fun middle ran => ?_
      have ranks := (propagateNode_follows single.1 followed.1 sameRanks ran).2
      exact inductionHypothesis ⟨single.2, (List.pairwise_cons.mp fresh).2⟩ followed.2 ranks

/-- A reshape is refused as an invalid parameter, never for want of an operand. -/
theorem Executable.Executes.reshaped_refuses {Op : Type} {executable : Executable Op}
    {graph : Graph} (executes : executable.Executes graph) (wellFormed : graph.WellFormed)
    (id : Nat) (shape : Shape) : (executable.reshaped id shape).FailsOnly Fault.IsParameter := by
  have refused : ∀ cause : ParameterFault,
      (Outcome.invalidParameter cause : Outcome (List Shape)).FailsOnly Fault.IsParameter := by
    intro cause fault failed
    cases failed
    exact ⟨cause, rfl⟩
  unfold Executable.reshaped
  cases found : executable.values[id]? with
  | none => exact refused _
  | some value =>
      dsimp only
      split
      · exact refused _
      · split
        · exact refused _
        · rename_i ranked
          have foundShape : executable.shapes[id]? = some value.shape := by
            unfold Executable.shapes
            rw [List.getElem?_map, found]
            rfl
          have sameRank : shape.length = value.shape.length :=
            not_not.mp (not_or.mp ranked).1
          rw [executes.nodes_eq]
          exact propagate_refuses wellFormed.ordered executes.follow
            (SameRanks.set rfl foundShape sameRank)

/-! ## What reshapes leave alone -/

/-- Tables that differ from one table in shapes only differ from each other in shapes only. -/
theorem ReshapedTable.between {olds firsts seconds : List Value}
    (first : ReshapedTable olds firsts) (second : ReshapedTable olds seconds) :
    ReshapedTable firsts seconds where
  length_eq := second.length_eq.trans first.length_eq.symm
  value := by
    intro id before after foundBefore foundAfter
    obtain ⟨old, foundOld, reshapedBefore⟩ := first.exists_old foundBefore
    have reshapedAfter := second.value foundOld foundAfter
    refine ⟨?_, reshapedAfter.rank.trans reshapedBefore.rank.symm, fun fixed => ?_⟩
    · have same := congrArg (fun value : Value => { value with shape := before.shape })
        (reshapedAfter.same.trans reshapedBefore.same.symm)
      exact same
    · rw [reshapedBefore.isStatic_eq, reshapedBefore.isDense_eq] at fixed
      exact (reshapedAfter.fixed fixed).trans (reshapedBefore.fixed fixed).symm

namespace Executable

variable {Op : Type}

/-- The values that neither a node computes nor the caller feeds have the shapes of the graph. -/
def KeepsSources (executable : Executable Op) (graph : Graph) : Prop :=
  ∀ (id : Nat) (value : Value), graph.values[id]? = some value →
    value.flags.contains .externalInput = false → (∀ node ∈ graph.nodes, id ∉ node.outputs) →
      executable.shape? id = some value.shape

theorem shape?_eq (executable : Executable Op) (id : Nat) :
    executable.shape? id = executable.shapes[id]? :=
  List.getElem?_map.symm

theorem reshape_shapes {executable : Executable Op} {id : Nat} {shape : Shape}
    {shapes : List Shape} (ran : executable.reshaped id shape = .ok shapes)
    (length : shapes.length = executable.values.length) :
    (executable.reshape id shape).result.1.shapes = shapes := by
  rw [reshape_of_ok ran]
  exact withShapes_shapes length

/-- What no node computes keeps its shape in an accepted reshape, but for the value it names. -/
theorem Executes.shape?_reshape {executable : Executable Op} {graph : Graph}
    (executes : executable.Executes graph) (wellFormed : graph.WellFormed) {id : Nat}
    {shape : Shape} {shapes : List Shape} (ran : executable.reshaped id shape = .ok shapes)
    {other : Nat} (unwritten : ∀ node ∈ graph.nodes, other ∉ node.outputs) :
    (executable.reshape id shape).result.1.shape? other =
      if id = other then some shape else executable.shape? other := by
  obtain ⟨_, _, length, untouched⟩ := executes.reshaped_follows wellFormed ran
  obtain ⟨value, found, _⟩ := reshaped_eq_ok_iff.mp ran
  have inside : id < executable.shapes.length := by
    unfold Executable.shapes
    rw [List.length_map]
    exact (List.getElem?_eq_some_iff.mp found).1
  rw [shape?_eq, reshape_shapes ran length, untouched other unwritten, List.getElem?_set,
    if_pos inside, shape?_eq]

theorem KeepsSources.reshape {executable : Executable Op} {graph : Graph}
    (keeps : executable.KeepsSources graph) (executes : executable.Executes graph)
    (wellFormed : graph.WellFormed) (id : Nat) (shape : Shape) :
    (executable.reshape id shape).result.1.KeepsSources graph := by
  cases ran : executable.reshaped id shape with
  | error fault =>
      rw [reshape_of_error ran]
      exact keeps
  | ok shapes =>
      obtain ⟨fed, found, external, _⟩ := reshaped_eq_ok_iff.mp ran
      intro other value foundValue unfed unwritten
      have different : id ≠ other := by
        rintro rfl
        have flags := (executes.table.value foundValue found).flags_eq
        rw [flags, unfed] at external
        cases external
      rw [executes.shape?_reshape wellFormed ran unwritten, if_neg different]
      exact keeps other value foundValue unfed unwritten

end Executable

section Calls

variable {Op : Type} [Operator Op]

/-- After any calls, only inputs that the caller feeds and outputs of nodes have other shapes. -/
theorem Engine.keepsSources_afterCalls {graph : Graph} (wellFormed : graph.WellFormed)
    {engine : Engine Op} (executes : engine.executable.Executes graph)
    (keeps : engine.executable.KeepsSources graph) (calls : List EngineCall) :
    (engine.afterCalls calls).executable.KeepsSources graph := by
  let holds : Executable Op → Prop := fun executable =>
    executable.Executes graph ∧ executable.KeepsSources graph
  have held : holds engine.executable := ⟨executes, keeps⟩
  refine (afterCalls_induction (fun {executable other} held sameValues sameNodes => ?_)
    (fun id shape held => ?_) held calls).2
  · refine ⟨held.1.congr sameValues sameNodes, ?_⟩
    intro id value found unfed unwritten
    unfold Executable.shape?
    rw [sameValues]
    exact held.2 id value found unfed unwritten
  · exact ⟨(held.1.reshape wellFormed id shape).1, held.2.reshape held.1 wellFormed id shape⟩

omit [Operator Op] in
/-- The shapes of an executable for a graph are given by those of the inputs that the caller
feeds. -/
theorem Executable.Executes.shapes_unique {graph : Graph} (wellFormed : graph.WellFormed)
    {first second : Executable Op} (executes : first.Executes graph)
    (executesSecond : second.Executes graph) (keeps : first.KeepsSources graph)
    (keepsSecond : second.KeepsSources graph)
    (inputs : ∀ (id : Nat) (value : Value), graph.values[id]? = some value →
      value.flags.contains .externalInput = true → (∀ node ∈ graph.nodes, id ∉ node.outputs) →
        first.shape? id = second.shape? id) :
    first.shapes = second.shapes := by
  have table := executes.table.between executesSecond.table
  have sameRanks : SameRanks first.shapes second.shapes := by
    unfold SameRanks Executable.shapes
    rw [List.map_map, List.map_map]
    apply List.ext_getElem?
    intro id
    rw [List.getElem?_map, List.getElem?_map]
    cases found : first.values[id]? with
    | none =>
        rw [List.getElem?_eq_none_iff, ← table.length_eq, ← List.getElem?_eq_none_iff] at found
        rw [found]
    | some value =>
        obtain ⟨other, foundOther, reshaped⟩ := table.exists_new found
        rw [foundOther, Option.map_some, Option.map_some]
        exact congrArg some reshaped.rank.symm
  have unwritten : ∀ id : Nat, (∀ node ∈ graph.nodes, id ∉ node.outputs) →
      first.shapes[id]? = second.shapes[id]? := by
    intro id unwritten
    rw [← Executable.shape?_eq, ← Executable.shape?_eq]
    cases found : graph.values[id]? with
    | none =>
        unfold Executable.shape?
        rw [List.getElem?_eq_none_iff] at found
        rw [List.getElem?_eq_none (by rw [executes.table.length_eq]; exact found),
          List.getElem?_eq_none (by rw [executesSecond.table.length_eq]; exact found)]
    | some value =>
        cases fed : value.flags.contains .externalInput with
        | true => exact inputs id value found fed unwritten
        | false => rw [keeps id value found fed unwritten, keepsSecond id value found fed unwritten]
  apply List.ext_getElem?
  intro id
  by_cases written : ∃ node ∈ graph.nodes, id ∈ node.outputs
  · obtain ⟨node, listed, written⟩ := written
    exact follow_unique wellFormed.ordered sameRanks executes.follow executesSecond.follow
      (fun _ _ id _ => unwritten id) node listed id written
  · exact unwritten id fun node listed written' => written ⟨node, listed, written'⟩

/-- A reshape of a compiled graph is atomic, changes shapes only, and forgets the way.

The graph has been built by any calls and compiled with any catalog of operators, and any calls have
been made since. A refused reshape is an invalid parameter, reports nothing and gives back the
executable it was given. An accepted one changes shapes only and leaves the executable compiled: all
ranks stay, so do the shapes of static values and of all values that are neither the reshaped input
nor the output of a node, and the shape of every output follows from those of the inputs of its
node. Two sequences of calls after which the inputs that the caller feeds and no node computes have
the same shapes end with the same shapes of all values. -/
theorem reshape_forgets_path (catalog : Catalog Op) (count : Nat) (calls : List BuildCall)
    (settings : Settings) (workshop : Workshop) (executable : Executable Op) (closed : Graph)
    (compiled : (compile catalog ((Graph.withExternalValues count).afterCalls calls) settings
      workshop).1 = .ok (executable, closed))
    (history : List EngineCall) :
    let graph := (Graph.withExternalValues count).afterCalls calls
    let current := ((Engine.start executable).afterCalls history).executable
    (∀ (id : Nat) (shape : Shape),
      let done := (current.reshape id shape).result
      match done.2 with
      | .error fault =>
          done.1 = current ∧ (current.reshape id shape).notices = [] ∧
            ∃ cause, fault = .refused (.invalidParameter cause)
      | .ok () =>
          done.1 = { current with values := done.1.values, state := .compiled } ∧
          ReshapedTable current.values done.1.values ∧
          (∀ other : Nat, other ≠ id → (∀ node ∈ graph.nodes, other ∉ node.outputs) →
            done.1.shape? other = current.shape? other) ∧
          ((∀ node ∈ graph.nodes, id ∉ node.outputs) → done.1.shape? id = some shape) ∧
          ∀ node ∈ graph.nodes, node.ShapesFollow done.1.shapes) ∧
    ∀ otherHistory : List EngineCall,
      let other := ((Engine.start executable).afterCalls otherHistory).executable
      (∀ (id : Nat) (value : Value), graph.values[id]? = some value →
        value.flags.contains .externalInput = true → (∀ node ∈ graph.nodes, id ∉ node.outputs) →
          other.shape? id = current.shape? id) →
      other.shapes = current.shapes := by
  intro graph current
  have wellFormed : graph.WellFormed := Graph.wellFormed_afterCalls count calls
  have assembled := Assembled.of_compiled compiled
  have executesFirst : (Engine.start executable).executable.Executes graph :=
    assembled.executes (Graph.admitted_afterCalls count calls)
  have keepsFirst : (Engine.start executable).executable.KeepsSources graph := by
    intro id value found _ _
    show executable.shape? id = some value.shape
    unfold Executable.shape?
    rw [assembled.values_eq, found]
    rfl
  have executes := Engine.executes_afterCalls wellFormed executesFirst
  have keeps := Engine.keepsSources_afterCalls wellFormed executesFirst keepsFirst
  constructor
  · intro id shape done
    have executesDone := ((executes history).reshape wellFormed id shape).1
    cases ran : current.reshaped id shape with
    | error fault =>
        have refused := (executes history).reshaped_refuses wellFormed id shape fault ran
        simp only [done, Executable.reshape_of_error ran]
        exact ⟨trivial, trivial, refused⟩
    | ok shapes =>
        have same := congrArg Journaled.result (Executable.reshape_of_ok ran)
        have accepted : done.2 = .ok () := congrArg Prod.snd same
        rw [accepted]
        refine ⟨?_, (executes history).table.between executesDone.table, ?_, ?_,
          executesDone.follow⟩
        · simp only [done, same]
        · intro other different unwritten
          rw [(executes history).shape?_reshape wellFormed ran unwritten, if_neg different.symm]
        · intro unwritten
          rw [(executes history).shape?_reshape wellFormed ran unwritten, if_pos rfl]
  · intro otherHistory other inputs
    exact (executes otherHistory).shapes_unique wellFormed (executes history) (keeps otherHistory)
      (keeps history) inputs

end Calls

def sumGraph : List BuildCall :=
  [.tensor ⟨.float32, [2, 1], none, some 0, .externalInput⟩,
    .tensor ⟨.float32, [1, 3], none, some 1, .externalInput⟩,
    .tensor ⟨.float32, [2, 3], none, some 2, .externalOutput⟩,
    .node .add [0, 1] [2]
      (.outputRange Numeric.Binary32.negativeInfinity Numeric.Binary32.infinity) 0]

def sumExecutable : Executable StandardOperator where
  values := ((Graph.withExternalValues 3).afterCalls sumGraph).values
  steps := [⟨⟨0, .add, .fp32, [0, 1], [2],
      .outputRange Numeric.Binary32.negativeInfinity Numeric.Binary32.infinity, 0⟩,
    .combination ⟨.add, .add, Numeric.Binary32.negativeInfinity, Numeric.Binary32.infinity, .single,
      1, 4096, {}⟩⟩]
  state := .compiled
  settings := {}
  sharesPacked := false
  sharesTables := false
  trace := []

/-- The theorem applies to the sum. Four columns do not stretch to a row of three, and a detour over
taller rows, with a refusal on the way, ends with the shapes of the straight way. -/
theorem reshape_forgets_path_sum :
    let straight := ((Engine.start sumExecutable).afterCalls [.reshape 0 [4, 1]]).executable
    let detour := ((Engine.start sumExecutable).afterCalls [.reshape 0 [1, 1], .reshape 1 [7, 3],
      .reshape 0 [4, 1], .reshape 1 [1, 3], .reshape 0 [4, 1]]).executable
    (straight.reshape 0 [4, 4]).result.1 = straight ∧ detour.shapes = straight.shapes := by
  intro straight detour
  have compiled : (compile (Catalog.standard .portable)
      ((Graph.withExternalValues 3).afterCalls sumGraph) {} {}).1 =
        .ok (sumExecutable, ((Graph.withExternalValues 3).afterCalls sumGraph).closed) := by
    cbv
  obtain ⟨atomic, unique⟩ := reshape_forgets_path (Catalog.standard .portable) 3 sumGraph {} {}
    sumExecutable _ compiled [.reshape 0 [4, 1]]
  constructor
  · have outcome := atomic 0 [4, 4]
    have refused : (straight.reshape 0 [4, 4]).result.2.isOk = false := by decide +kernel
    dsimp only at outcome
    split at outcome
    · exact outcome.1
    · rename_i accepted
      exact absurd (refused.symm.trans (congrArg Except.isOk accepted)) (by decide)
  · refine unique _ ?_
    have inputs : ∀ id < 3, detour.shape? id = straight.shape? id := by decide +kernel
    intro id value found _ _
    exact inputs id (List.getElem?_eq_some_iff.mp found).1

end TensorEngine
