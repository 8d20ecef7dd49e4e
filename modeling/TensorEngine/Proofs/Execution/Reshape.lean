import TensorEngine.Execution.Reshape
import TensorEngine.Proofs.Graph.Admission
import TensorEngine.Proofs.Graph.ShapeRule

/-!
Contract: what the propagation of new shapes keeps and what it establishes.

Owns:
- `Node.ShapesFollow`, an output shape that follows from the current input shapes;
- the theorem that a propagation lets the shapes of every node follow, keeps every rank, and leaves
  alone what no node computes;
- `Value.Reshaped`, a value with another shape of its rank, and the theorem that an accepted
  reshape changes values in no other way;
- `Node.Computes`, a node that computes one value, and the theorem that every node of a compiled
  graph does.

Does not own: which reshapes are accepted.
-/

namespace TensorEngine

/-! ## Propagation -/

def Node.ShapesFollow (node : Node) (shapes : List Shape) : Prop :=
  ∃ (inputs : List Shape) (id : Nat) (output : Shape),
    List.Forall₂ (fun (id : Nat) shape => shapes[id]? = some shape) node.inputs inputs ∧
      node.outputs = [id] ∧ shapes[id]? = some output ∧
      node.kind.outputShape node.flags inputs output.length = .ok output

/-- Two tables of shapes have the same rank at every place. -/
def SameRanks (left right : List Shape) : Prop :=
  left.map List.length = right.map List.length

theorem SameRanks.get? {left right : List Shape} (same : SameRanks left right) (id : Nat) :
    left[id]?.map List.length = right[id]?.map List.length := by
  have atIndex := congrArg (fun ranks => ranks[id]?) same
  simpa only [List.getElem?_map] using atIndex

theorem propagateNode_eq_ok_iff {id : Nat} {shapes after : List Shape} {node : Node} :
    propagateNode id shapes node = .ok after ↔
      ∃ (inputs : List Shape) (output : Nat) (declared inferred : Shape),
        List.Forall₂ (fun (id : Nat) shape => shapes[id]? = some shape) node.inputs inputs ∧
          node.outputs[0]? = some output ∧ shapes[output]? = some declared ∧
          node.kind.outputShape node.flags inputs declared.length = .ok inferred ∧
          after = shapes.set output inferred := by
  unfold propagateNode
  simp only [bind_eq_ok_iff, mapM_eq_ok_iff, operand_eq_ok_iff, mapError_eq_ok_iff, pure_eq_ok_iff]
  constructor
  · rintro ⟨inputs, found, output, written, declared, foundOutput, inferred, follows, rfl⟩
    exact ⟨inputs, output, declared, inferred, found, written, foundOutput, follows, rfl⟩
  · rintro ⟨inputs, output, declared, inferred, found, written, foundOutput, follows, rfl⟩
    exact ⟨inputs, found, output, written, declared, foundOutput, inferred, follows, rfl⟩

/-- Shapes that are looked up at other places than the changed one stay as they are. -/
theorem forall₂_set {shapes inputs : List Shape} {ids : List ValueId} {output : Nat}
    {inferred : Shape} (unread : output ∉ ids)
    (found : List.Forall₂ (fun (id : Nat) shape => shapes[id]? = some shape) ids inputs) :
    List.Forall₂ (fun (id : Nat) shape => (shapes.set output inferred)[id]? = some shape) ids
      inputs := by
  induction found with
  | nil => exact .nil
  | cons foundHead _ inductionHypothesis =>
      rw [List.mem_cons, not_or] at unread
      refine .cons ?_ (inductionHypothesis unread.2)
      rw [List.getElem?_set_ne unread.1]
      exact foundHead

/-- A change at a place that a node does not use lets its shapes follow as before. -/
theorem Node.ShapesFollow.set {node : Node} {shapes : List Shape}
    (follow : node.ShapesFollow shapes) {output : Nat} {inferred : Shape}
    (unread : output ∉ node.inputs)
    (unwritten : output ∉ node.outputs) : node.ShapesFollow (shapes.set output inferred) := by
  obtain ⟨inputs, id, shape, found, outputs, foundOutput, follows⟩ := follow
  have different : output ≠ id := by
    rintro rfl
    exact unwritten (by simp [outputs])
  exact ⟨inputs, id, shape, forall₂_set unread found, outputs,
    by rw [List.getElem?_set_ne different]; exact foundOutput, follows⟩

theorem SameRanks.operands {left right : List Shape} (same : SameRanks left right)
    {ids : List ValueId} {inputs others : List Shape}
    (found : List.Forall₂ (fun (id : Nat) shape => left[id]? = some shape) ids inputs)
    (foundOthers : List.Forall₂ (fun (id : Nat) shape => right[id]? = some shape) ids others) :
    inputs.map List.length = others.map List.length := by
  induction found generalizing others with
  | nil =>
      cases foundOthers
      rfl
  | @cons id shape ids inputs foundHead _ inductionHypothesis =>
      cases foundOthers with
      | cons foundOther foundRest =>
          have ranks := same.get? id
          rw [foundHead, foundOther] at ranks
          rw [List.map_cons, List.map_cons, inductionHypothesis foundRest, Option.some.inj ranks]

theorem SameRanks.set {left right : List Shape} (same : SameRanks left right) {output : Nat}
    {declared inferred : Shape} (found : left[output]? = some declared)
    (rank : inferred.length = declared.length) : SameRanks (left.set output inferred) right := by
  have inside := (List.getElem?_eq_some_iff.mp found).1
  unfold SameRanks at same ⊢
  rw [List.map_set, rank, ← same]
  apply List.ext_getElem?
  intro index
  rw [List.getElem?_set]
  split
  · rename_i here
    rw [← here, List.length_map, if_pos inside, List.getElem?_map, found]
    rfl
  · rfl

section Step

variable {id : Nat} {node : Node} {before shapes after : List Shape}

/-- A node whose shapes followed once gets an output shape of the same rank, and its shapes follow
again. -/
theorem propagateNode_follows (single : ∃ output, node.outputs = [output] ∧ output ∉ node.inputs)
    (followed : node.ShapesFollow before) (sameRanks : SameRanks shapes before)
    (ran : propagateNode id shapes node = .ok after) :
    node.ShapesFollow after ∧ SameRanks after before := by
  obtain ⟨inputs, output, declared, inferred, found, written, foundOutput, follows, rfl⟩ :=
    propagateNode_eq_ok_iff.mp ran
  obtain ⟨earlier, place, shape, foundEarlier, outputs, foundShape, followedShape⟩ := followed
  have samePlace : place = output := by
    rw [outputs] at written
    exact Option.some.inj written
  subst samePlace
  have unread : place ∉ node.inputs := by
    obtain ⟨other, outputsAgain, unread⟩ := single
    rw [outputs] at outputsAgain
    cases outputsAgain
    exact unread
  have sameRank : declared.length = shape.length := by
    have ranks := sameRanks.get? place
    rw [foundOutput, foundShape] at ranks
    exact Option.some.inj ranks
  rw [← sameRank] at followedShape
  have rank : inferred.length = declared.length :=
    (OpKind.outputShape_length (sameRanks.operands found foundEarlier) followedShape follows).trans
      sameRank.symm
  have inside := (List.getElem?_eq_some_iff.mp foundOutput).1
  refine ⟨⟨inputs, place, inferred, forall₂_set unread found, outputs, ?_, ?_⟩,
    sameRanks.set foundOutput rank⟩
  · rw [List.getElem?_set_self inside]
  · rw [rank]
    exact follows

/-- The propagation changes the shape of the output only. -/
theorem propagateNode_other (ran : propagateNode id shapes node = .ok after) {other : Nat}
    (unwritten : other ∉ node.outputs) : after[other]? = shapes[other]? := by
  obtain ⟨_, output, _, _, _, written, _, _, rfl⟩ := propagateNode_eq_ok_iff.mp ran
  have different : output ≠ other := by
    rintro rfl
    exact unwritten (List.mem_of_getElem? written)
  rw [List.getElem?_set_ne different]

theorem propagateNode_length (ran : propagateNode id shapes node = .ok after) :
    after.length = shapes.length := by
  obtain ⟨_, output, _, _, _, _, _, _, rfl⟩ := propagateNode_eq_ok_iff.mp ran
  rw [List.length_set]

end Step

theorem propagate_cons {id : Nat} {node : Node} {nodes : List Node} {shapes after : List Shape} :
    propagate id (node :: nodes) shapes = .ok after ↔
      ∃ middle, propagateNode id shapes node = .ok middle ∧
        propagate id nodes middle = .ok after := by
  unfold propagate
  rw [List.foldlM_cons, bind_eq_ok_iff]

/-- What a node does not use, the propagation over later nodes leaves to it. -/
theorem Node.ShapesFollow.propagate {id : Nat} {node : Node} {nodes : List Node}
    {shapes after : List Shape} (follow : node.ShapesFollow shapes)
    (fresh : ∀ later ∈ nodes, ∀ output ∈ later.outputs,
      output ∉ node.inputs ∧ output ∉ node.outputs)
    (ran : propagate id nodes shapes = .ok after) : node.ShapesFollow after := by
  induction nodes generalizing shapes with
  | nil =>
      cases ran
      exact follow
  | cons head nodes inductionHypothesis =>
      obtain ⟨middle, ranHead, ranRest⟩ := propagate_cons.mp ran
      obtain ⟨_, output, _, _, _, written, _, _, rfl⟩ := propagateNode_eq_ok_iff.mp ranHead
      have apart := fresh head List.mem_cons_self output (List.mem_of_getElem? written)
      exact inductionHypothesis (follow.set apart.1 apart.2)
        (fun later listed => fresh later (List.mem_cons_of_mem _ listed)) ranRest

/-- A propagation over nodes in their order lets the shapes of every node follow and keeps every
rank. What no node computes keeps its shape. -/
theorem propagate_follows {id : Nat} {nodes : List Node} {before shapes after : List Shape}
    (ordered : Graph.Ordered nodes) (followed : ∀ node ∈ nodes, node.ShapesFollow before)
    (sameRanks : SameRanks shapes before) (ran : propagate id nodes shapes = .ok after) :
    (∀ node ∈ nodes, node.ShapesFollow after) ∧ SameRanks after before ∧
      after.length = shapes.length ∧
      ∀ other : Nat, (∀ node ∈ nodes, other ∉ node.outputs) → after[other]? = shapes[other]? := by
  induction nodes generalizing shapes with
  | nil =>
      cases ran
      exact ⟨by simp, sameRanks, rfl, fun _ _ => rfl⟩
  | cons head nodes inductionHypothesis =>
      obtain ⟨middle, ranHead, ranRest⟩ := propagate_cons.mp ran
      have fresh := List.pairwise_cons.mp ordered.fresh
      have rest : Graph.Ordered nodes :=
        ⟨fun node listed => ordered.single node (List.mem_cons_of_mem _ listed), fresh.2⟩
      obtain ⟨followHead, ranksMiddle⟩ := propagateNode_follows
        (ordered.single head List.mem_cons_self) (followed head List.mem_cons_self) sameRanks
        ranHead
      obtain ⟨followRest, ranksAfter, sameLength, untouched⟩ := inductionHypothesis rest
        (fun node listed => followed node (List.mem_cons_of_mem _ listed)) ranksMiddle ranRest
      refine ⟨List.forall_mem_cons.mpr ⟨followHead.propagate fresh.1 ranRest, followRest⟩,
        ranksAfter, sameLength.trans (propagateNode_length ranHead), fun other unwritten => ?_⟩
      rw [untouched other fun node listed => unwritten node (List.mem_cons_of_mem _ listed),
        propagateNode_other ranHead (unwritten head List.mem_cons_self)]

/-! ## Reshaped values -/

/-- A value with another shape of its rank. Static values and reserved places keep their shape. -/
structure Value.Reshaped (old new : Value) : Prop where
  same : { new with shape := old.shape } = old
  rank : new.shape.length = old.shape.length
  fixed : old.isStatic = true ∨ old.isDense = false → new.shape = old.shape

/-- A table of values with other shapes. -/
structure ReshapedTable (olds news : List Value) : Prop where
  length_eq : news.length = olds.length
  value : ∀ {id : Nat} {old new : Value}, olds[id]? = some old → news[id]? = some new →
    old.Reshaped new

namespace Value.Reshaped

theorem refl (value : Value) : value.Reshaped value := ⟨rfl, rfl, fun _ => rfl⟩

variable {old new : Value} (reshaped : old.Reshaped new)

include reshaped

theorem declared_eq : new.declared = old.declared := by
  have same := congrArg Value.declared reshaped.same
  exact same

theorem isStatic_eq : new.isStatic = old.isStatic := by
  have same := congrArg Value.isStatic reshaped.same
  exact same

theorem isDense_eq : new.isDense = old.isDense := by
  have same := congrArg Value.isDense reshaped.same
  exact same

theorem flags_eq : new.flags = old.flags := by
  have same := congrArg Value.flags reshaped.same
  exact same

theorem producer_eq : new.producer = old.producer := by
  have same := congrArg Value.producer reshaped.same
  exact same

end Value.Reshaped

namespace ReshapedTable

variable {olds news : List Value}

theorem refl (values : List Value) : ReshapedTable values values where
  length_eq := rfl
  value := by
    intro id old new found foundNew
    cases found.symm.trans foundNew
    exact .refl old

/-- A look-up that succeeds before succeeds afterwards. -/
theorem exists_new (table : ReshapedTable olds news) {id : Nat} {old : Value}
    (found : olds[id]? = some old) : ∃ new, news[id]? = some new ∧ old.Reshaped new := by
  have inside := (List.getElem?_eq_some_iff.mp found).1
  rw [← table.length_eq] at inside
  have foundNew := List.getElem?_eq_getElem inside
  exact ⟨_, foundNew, table.value found foundNew⟩

/-- A look-up that succeeds afterwards succeeded before. -/
theorem exists_old (table : ReshapedTable olds news) {id : Nat} {new : Value}
    (found : news[id]? = some new) : ∃ old, olds[id]? = some old ∧ old.Reshaped new := by
  have inside := (List.getElem?_eq_some_iff.mp found).1
  rw [table.length_eq] at inside
  have foundOld := List.getElem?_eq_getElem inside
  exact ⟨_, foundOld, table.value foundOld found⟩

end ReshapedTable

/-! ## Admitted nodes -/

/-- The shapes of looked up values are the looked up shapes. -/
theorem shapes_of_operands {values operands : List Value} {ids : List ValueId}
    {shapes : List Shape}
    (found : List.Forall₂ (fun (id : Nat) value => values[id]? = some value) ids operands)
    (foundShapes : List.Forall₂
      (fun (id : Nat) shape => (values.map (·.shape))[id]? = some shape) ids shapes) :
    shapes = operands.map (·.shape) := by
  induction found generalizing shapes with
  | nil =>
      cases foundShapes
      rfl
  | cons foundHead _ inductionHypothesis =>
      cases foundShapes with
      | cons foundShape foundRest =>
          rw [List.getElem?_map, foundHead, Option.map_some, Option.some.injEq] at foundShape
          rw [List.map_cons, foundShape, ← inductionHypothesis foundRest]

namespace Node.Admitted

variable {values : List Value} {node : Node} {operands : List Value} {output : Value}

/-- The operands of an admitted node have the shapes that the table gives. -/
theorem shapesFollow (admitted : node.Admitted values operands output) :
    node.ShapesFollow (values.map (·.shape)) := by
  obtain ⟨id, outputs, foundOutput⟩ := admitted.written
  refine ⟨operands.map (·.shape), id, output.shape, ?_, outputs, ?_, admitted.shape⟩
  · rw [List.forall₂_map_right_iff]
    apply admitted.found.imp
    intro id value found
    rw [List.getElem?_map, found]
    rfl
  · rw [List.getElem?_map, foundOutput]
    rfl

/-- An admitted node is admitted by a table with other shapes, if its output shape follows. -/
theorem reshape (admitted : node.Admitted values operands output) {news : List Value}
    (table : ReshapedTable values news) (follow : node.ShapesFollow (news.map (·.shape))) :
    ∃ newOperands newOutput, node.Admitted news newOperands newOutput := by
  obtain ⟨newOperands, found, sameOperands⟩ := exists_operands Value.declared admitted.found
    fun id _ value foundOld =>
      (table.exists_new foundOld).imp fun new facts => ⟨facts.1, facts.2.declared_eq⟩
  obtain ⟨id, outputs, foundOutput⟩ := admitted.written
  obtain ⟨newOutput, foundNew, reshaped⟩ := table.exists_new foundOutput
  refine ⟨newOperands, newOutput, admitted.transport found ⟨id, outputs, foundNew⟩ sameOperands
    reshaped.declared_eq ?_⟩
  obtain ⟨inputs, place, shape, foundInputs, outputsAgain, foundShape, follows⟩ := follow
  rw [outputs, List.cons.injEq, and_iff_left rfl] at outputsAgain
  rw [← outputsAgain, List.getElem?_map, foundNew, Option.map_some, Option.some.injEq] at foundShape
  have sameInputs := shapes_of_operands found foundInputs
  rw [foundShape, ← sameInputs]
  exact follows

end Node.Admitted

/-! ## Reshaped executables -/

/-- An executable for the nodes of a graph, whose values may have got other shapes. -/
structure Executable.Executes {Op : Type} (executable : Executable Op) (graph : Graph) : Prop where
  nodes_eq : executable.steps.map (·.node) = graph.nodes
  table : ReshapedTable graph.values executable.values
  follow : ∀ node ∈ graph.nodes, node.ShapesFollow executable.shapes

def withShapes (values : List Value) (shapes : List Shape) : List Value :=
  List.zipWith (fun (value : Value) (shape : Shape) => { value with shape := shape }) values shapes

theorem withShapes_shapes {values : List Value} {shapes : List Shape}
    (sameLength : shapes.length = values.length) :
    (withShapes values shapes).map (·.shape) = shapes := by
  unfold withShapes
  rw [List.map_zipWith]
  apply List.ext_getElem?
  intro index
  rw [List.getElem?_zipWith]
  cases found : shapes[index]? with
  | none => cases values[index]? <;> rfl
  | some shape =>
      have inside := (List.getElem?_eq_some_iff.mp found).1
      rw [List.getElem?_eq_getElem (by omega)]

/-- The parts of an accepted reshape. -/
theorem reshaped_eq_ok_iff {Op : Type} {executable : Executable Op} {id : Nat} {shape : Shape}
    {shapes : List Shape} :
    executable.reshaped id shape = .ok shapes ↔
      ∃ value, executable.values[id]? = some value ∧
        value.flags.contains .externalInput = true ∧ value.isStatic = false ∧
        shape.length = value.shape.length ∧ shape.length ≤ Shape.maxRank ∧
        propagate id (executable.steps.map (·.node)) (executable.shapes.set id shape) =
          .ok shapes := by
  unfold Executable.reshaped
  cases executable.values[id]? with
  | none => simp [Outcome.invalidParameter]
  | some value =>
      by_cases external : value.flags.contains .externalInput = true
      · by_cases static : value.isStatic = true
        · simp [external, static, Outcome.invalidParameter]
        · by_cases ranked : shape.length ≠ value.shape.length ∨ Shape.maxRank < shape.length
          · simp only [external, static, Bool.not_true, Bool.or_self, Bool.false_eq_true, if_false,
              if_pos ranked, Outcome.invalidParameter, reduceCtorEq, Option.some.injEq, false_iff]
            rintro ⟨_, rfl, _, _, same, bounded, _⟩
            omega
          · obtain ⟨same, bounded⟩ := not_or.mp ranked
            simp only [external, static, Bool.not_true, Bool.or_self, Bool.false_eq_true, if_false,
              Option.some.injEq, exists_eq_left', true_and]
            rw [if_neg ranked]
            exact ⟨fun ran => ⟨not_not.mp same, Nat.not_lt.mp bounded, ran⟩,
              fun parts => parts.2.2⟩
      · simp [external, Outcome.invalidParameter]

/-- A refused reshape changes nothing and reports nothing. -/
theorem Executable.reshape_of_error {Op : Type} {executable : Executable Op} {id : Nat}
    {shape : Shape} {fault : Fault} (ran : executable.reshaped id shape = .error fault) :
    executable.reshape id shape = ⟨[], (executable, .error fault)⟩ := by
  unfold Executable.reshape
  rw [ran]

/-- An accepted reshape gives the values new shapes, and undoes any set-up. -/
theorem Executable.reshape_of_ok {Op : Type} {executable : Executable Op} {id : Nat}
    {shape : Shape} {shapes : List Shape} (ran : executable.reshaped id shape = .ok shapes) :
    executable.reshape id shape = ⟨[.reshaped id shape],
      ({ executable with values := withShapes executable.values shapes, state := .compiled },
        .ok ())⟩ := by
  unfold Executable.reshape
  rw [ran]
  rfl

namespace Graph.WellFormed

variable {graph : Graph}

/-- No node computes a static value or a reserved place. -/
theorem unwritten (wellFormed : graph.WellFormed) {id : Nat} {value : Value}
    (found : graph.values[id]? = some value)
    (fixed : value.isStatic = true ∨ value.isDense = false) :
    ∀ node ∈ graph.nodes, id ∉ node.outputs := by
  intro node listed written
  obtain ⟨index, inside, foundNode⟩ := List.getElem_of_mem listed
  have placed : graph.node? index = some node :=
    List.getElem?_eq_some_iff.mpr ⟨inside, foundNode⟩
  rcases fixed with static | undescribed
  · have produced := (wellFormed.producer_iff found index).mpr ⟨node, placed, written⟩
    rw [wellFormed.unproduced found static] at produced
    cases produced
  · obtain ⟨other, foundOther, described⟩ :=
      wellFormed.operand placed id (List.mem_append_right _ written)
    cases found.symm.trans foundOther
    rw [undescribed] at described
    cases described

theorem produced (wellFormed : graph.WellFormed) {id : Nat} {value : Value}
    (found : graph.values[id]? = some value) {node : Node} (listed : node ∈ graph.nodes)
    (written : id ∈ node.outputs) : value.producer.isSome = true := by
  obtain ⟨index, inside, foundNode⟩ := List.getElem_of_mem listed
  have placed : graph.node? index = some node :=
    List.getElem?_eq_some_iff.mpr ⟨inside, foundNode⟩
  rw [(wellFormed.producer_iff found index).mpr ⟨node, placed, written⟩]
  rfl

end Graph.WellFormed

/-- The shapes after an accepted reshape follow from each other, with the same ranks as before. What
no node computes keeps its shape, but for the reshaped input. -/
theorem Executable.Executes.reshaped_follows {Op : Type} {executable : Executable Op}
    {graph : Graph} (executes : executable.Executes graph) (wellFormed : graph.WellFormed)
    {id : Nat} {shape : Shape} {shapes : List Shape}
    (ran : executable.reshaped id shape = .ok shapes) :
    (∀ node ∈ graph.nodes, node.ShapesFollow shapes) ∧ SameRanks shapes executable.shapes ∧
      shapes.length = executable.values.length ∧
      ∀ other : Nat, (∀ node ∈ graph.nodes, other ∉ node.outputs) →
        shapes[other]? = (executable.shapes.set id shape)[other]? := by
  obtain ⟨value, found, _, _, sameRank, _, propagated⟩ := reshaped_eq_ok_iff.mp ran
  have foundShape : executable.shapes[id]? = some value.shape := by
    unfold Executable.shapes
    rw [List.getElem?_map, found]
    rfl
  rw [executes.nodes_eq] at propagated
  obtain ⟨follow, ranks, sameLength, untouched⟩ := propagate_follows wellFormed.ordered
    executes.follow (SameRanks.set rfl foundShape sameRank) propagated
  refine ⟨follow, ranks, ?_, untouched⟩
  rw [sameLength, List.length_set]
  exact List.length_map _

/-- A reshape, accepted or refused, gives an executable for the same graph, with the same steps. -/
theorem Executable.Executes.reshape {Op : Type} {executable : Executable Op} {graph : Graph}
    (executes : executable.Executes graph) (wellFormed : graph.WellFormed) (id : Nat)
    (shape : Shape) :
    (executable.reshape id shape).result.1.Executes graph ∧
      (executable.reshape id shape).result.1.steps = executable.steps := by
  unfold Executable.reshape
  cases ran : executable.reshaped id shape with
  | error fault => exact ⟨executes, rfl⟩
  | ok shapes =>
      obtain ⟨value, found, external, notStatic, _, _, _⟩ := reshaped_eq_ok_iff.mp ran
      obtain ⟨follow, ranks, length, untouched⟩ := executes.reshaped_follows wellFormed ran
      have newShapes := withShapes_shapes length
      refine ⟨⟨executes.nodes_eq, ⟨?_, ?_⟩, ?_⟩, rfl⟩
      · show (withShapes executable.values shapes).length = _
        rw [← executes.table.length_eq, withShapes, List.length_zipWith, length, Nat.min_self]
      · intro place old new foundOld foundNew
        change (withShapes executable.values shapes)[place]? = some new at foundNew
        rw [withShapes, List.getElem?_zipWith_eq_some] at foundNew
        obtain ⟨current, newShape, foundCurrent, foundNewShape, rfl⟩ := foundNew
        have reshaped := executes.table.value foundOld foundCurrent
        have currentShape : executable.shapes[place]? = some current.shape := by
          unfold Executable.shapes
          rw [List.getElem?_map, foundCurrent]
          rfl
        have rank : newShape.length = current.shape.length := by
          have same := ranks.get? place
          rw [foundNewShape, currentShape] at same
          exact Option.some.inj same
        refine ⟨reshaped.same, rank.trans reshaped.rank, fun fixed => ?_⟩
        -- the reshaped input is neither static nor reserved
        have different : id ≠ place := by
          rintro rfl
          cases found.symm.trans foundCurrent
          rcases fixed with static | undescribed
          · rw [reshaped.isStatic_eq, static] at notStatic
            cases notStatic
          · have unused : ValueFlags.none.contains .externalInput = false := by decide
            rw [reshaped.flags_eq, (wellFormed.placeholder foundOld undescribed).1] at external
            exact absurd (unused.symm.trans external) (by decide)
        have kept := untouched place (wellFormed.unwritten foundOld fixed)
        rw [List.getElem?_set_ne different, foundNewShape, currentShape,
          Option.some.injEq] at kept
        rw [← reshaped.fixed fixed, ← kept]
      · intro node listed
        show node.ShapesFollow ((withShapes executable.values shapes).map (·.shape))
        rw [newShapes]
        exact follow node listed

/-! ## What nodes compute -/

/-- A node that computes one value of a table, which is neither static nor one of its inputs. -/
structure Node.Computes (values : List Value) (node : Node) (output : Nat) (value : Value) :
    Prop where
  outputs_eq : node.outputs = [output]
  unread : output ∉ node.inputs
  found : values[output]? = some value
  notStatic : value.contents = none
  produced : value.producer.isSome = true

theorem Executable.Executes.computes {Op : Type} {executable : Executable Op} {graph : Graph}
    (executes : executable.Executes graph) (wellFormed : graph.WellFormed) {node : Node}
    (listed : node ∈ graph.nodes) :
    ∃ output value, node.Computes executable.values output value := by
  obtain ⟨output, outputs, unread⟩ := wellFormed.ordered.single node listed
  obtain ⟨_, place, shape, _, outputsAgain, foundShape, _⟩ := executes.follow node listed
  rw [outputs, List.cons.injEq, and_iff_left rfl] at outputsAgain
  rw [← outputsAgain, Executable.shapes, List.getElem?_map, Option.map_eq_some_iff] at foundShape
  obtain ⟨value, found, _⟩ := foundShape
  obtain ⟨old, foundOld, reshaped⟩ := executes.table.exists_old found
  have written : output ∈ node.outputs := by simp [outputs]
  refine ⟨output, value, outputs, unread, found, ?_, ?_⟩
  · cases static : value.contents with
    | none => rfl
    | some bytes =>
        have fixed : old.isStatic = true := by
          rw [← reshaped.isStatic_eq]
          unfold Value.isStatic
          rw [static]
          rfl
        exact absurd written (wellFormed.unwritten foundOld (.inl fixed) node listed)
  · rw [reshaped.producer_eq]
    exact wellFormed.produced foundOld listed written

end TensorEngine
