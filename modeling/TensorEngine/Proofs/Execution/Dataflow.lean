import Mathlib
import TensorEngine.Proofs.Execution.Session
import TensorEngine.Proofs.Kernel.ElementWrites
import TensorEngine.Proofs.Kernel.TileFreedom

/-!
Contract: a run leaves the solution of the equations of its nodes in the blobs.

Owns:
- `Step.Holds`, the equation of a step, and the theorem that equations in order have one solution;
- `Step.Settled`, a step whose output blob already holds what its kernel computes;
- the theorems that a successful run settles every step, and that a run over settled steps
  succeeds and changes no blob;
- `Step.Agrees`, and the theorem that runs over steps that agree leave the same blobs.

Does not own: whether a run succeeds at all.
-/

namespace TensorEngine

/-! ## Equations -/

/-- The bytes that nodes get from a value: its static contents, or the front of its blob. -/
def currentBytes (values : List Value) (blobs : BlobTable) (id : ValueId) : Outcome Bytes :=
  (·.bytes) <$> inputBuffer values blobs id

/-- The equation of a step: its output holds what its kernel computes from its inputs. -/
def Step.Holds (memory : ValueId → Outcome Bytes) (step : Step StandardOperator) : Prop :=
  ∃ inputs output bytes, step.node.inputs.mapM memory = .ok inputs ∧
    step.node.outputs = [output] ∧ memory output = .ok bytes ∧
    step.operator.kernel inputs = .ok bytes

/-- Equations in order have one solution: memories that agree on every input that no step computes
agree on every output. -/
theorem holds_unique {steps : List (Step StandardOperator)}
    (ordered : Graph.Ordered (steps.map (·.node))) {first second : ValueId → Outcome Bytes}
    (holdsFirst : ∀ step ∈ steps, step.Holds first)
    (holdsSecond : ∀ step ∈ steps, step.Holds second)
    (sources : ∀ step ∈ steps, ∀ id ∈ step.node.inputs,
      (∀ other ∈ steps, id ∉ other.node.outputs) → first id = second id) :
    ∀ step ∈ steps, ∀ id ∈ step.node.outputs, first id = second id := by
  induction steps with
  | nil => exact fun _ listed => (nomatch listed)
  | cons head steps inductionHypothesis =>
      obtain ⟨single, fresh⟩ := ordered
      rw [List.map_cons, List.forall_mem_cons] at single
      rw [List.map_cons, List.pairwise_cons] at fresh
      -- neither the first step nor a later one computes an input of the first step
      have unwritten : ∀ id ∈ head.node.inputs, ∀ other ∈ head :: steps,
          id ∉ other.node.outputs := by
        intro id read
        rw [List.forall_mem_cons]
        constructor
        · obtain ⟨output, outputs, unread⟩ := single.1
          rw [outputs, List.mem_singleton]
          rintro rfl
          exact unread read
        · intro other listed written
          exact (fresh.1 other.node (List.mem_map_of_mem listed) id written).1 read
      obtain ⟨inputs, output, bytes, read, outputs, written, computed⟩ :=
        holdsFirst head List.mem_cons_self
      obtain ⟨inputsSecond, outputSecond, bytesSecond, readSecond, outputsSecond, writtenSecond,
        computedSecond⟩ := holdsSecond head List.mem_cons_self
      have sameOutput : outputSecond = output := by
        rw [outputs, List.cons.injEq, and_iff_left rfl] at outputsSecond
        exact outputsSecond.symm
      have sameInputs : inputs = inputsSecond := by
        rw [mapM_congr fun id listed => sources head List.mem_cons_self id listed
          (unwritten id listed), readSecond] at read
        exact (Except.ok.inj read).symm
      have agreeHead : ∀ id ∈ head.node.outputs, first id = second id := by
        intro id listed
        rw [outputs, List.mem_singleton] at listed
        rw [listed, written, ← sameOutput, writtenSecond, ← computed, sameInputs, computedSecond]
      refine List.forall_mem_cons.mpr ⟨agreeHead, inductionHypothesis ⟨single.2, fresh.2⟩
        (fun step listed => holdsFirst step (List.mem_cons_of_mem _ listed))
        (fun step listed => holdsSecond step (List.mem_cons_of_mem _ listed)) ?_⟩
      intro step listed id readLater unwrittenLater
      by_cases here : id ∈ head.node.outputs
      · exact agreeHead id here
      · exact sources step (List.mem_cons_of_mem _ listed) id readLater
          (List.forall_mem_cons.mpr ⟨here, unwrittenLater⟩)

/-! ## Fronts and overlays -/

theorem Buffer.front_eq_ok_iff {buffer room : Buffer} {count : Nat} :
    buffer.front count = .ok room ↔
      count ≤ buffer.size ∧ room = { buffer with bytes := buffer.bytes.extract 0 count } := by
  unfold Buffer.front
  simp only [bind_eq_ok_iff, pure_eq_ok_iff, TensorEngine.front_eq_ok_iff]
  constructor
  · rintro ⟨_, ⟨enough, rfl⟩, rfl⟩
    exact ⟨enough, rfl⟩
  · rintro ⟨enough, rfl⟩
    exact ⟨_, ⟨enough, rfl⟩, rfl⟩

/-- Contents for a whole buffer replace it. -/
theorem overlay_whole {bytes written : Bytes} (whole : written.size = bytes.size) :
    overlay bytes written = written := by
  apply Array.ext_getElem?
  intro index
  rw [overlay_getElem?, whole]
  split
  · rfl
  · rw [Array.getElem?_eq_none (by omega), Array.getElem?_eq_none (by omega)]

/-- Contents that fit are found at the front. -/
theorem overlay_front {bytes written : Bytes} (inside : written.size ≤ bytes.size) :
    (overlay bytes written).extract 0 written.size = written := by
  apply Array.ext_getElem?
  intro index
  rw [Array.getElem?_extract, overlay_size, overlay_getElem?, Nat.zero_add]
  split
  · rw [if_pos (by omega)]
  · rw [Array.getElem?_eq_none (by omega)]

/-- The front of a buffer, laid over the buffer, changes nothing. -/
theorem overlay_extract (bytes : Bytes) (count : Nat) :
    overlay bytes (bytes.extract 0 count) = bytes := by
  apply Array.ext_getElem?
  intro index
  rw [overlay_getElem?]
  split
  · rename_i inside
    rw [Array.size_extract] at inside
    rw [Array.getElem?_extract, if_pos (by omega), Nat.zero_add]
  · rfl

/-- A run with contents succeeds and lays them over the room. -/
theorem StandardOperator.run_eq_of_contents {operator : StandardOperator} {schedule : Schedule}
    {inputs : List Buffer} {room : Buffer} {bytes : Bytes}
    (ran : operator.contents schedule inputs room = .ok bytes) :
    Operator.run operator schedule inputs room = ⟨overlay room.bytes bytes, .ok ()⟩ := by
  show RunEnd.ofOutcome room (operator.contents schedule inputs room) = _
  rw [ran]
  rfl

/-- A run with contents that fit succeeds, puts them at the front of the room and leaves the rest
as it is. -/
theorem StandardOperator.run_of_contents {operator : StandardOperator} {schedule : Schedule}
    {inputs : List Buffer} {room : Buffer} {bytes : Bytes}
    (ran : operator.contents schedule inputs room = .ok bytes) (fits : bytes.size ≤ room.size) :
    let done := Operator.run operator schedule inputs room
    done.outcome = .ok () ∧ (∀ index < bytes.size, done.written[index]? = bytes[index]?) ∧
      ∀ index, bytes.size ≤ index → done.written[index]? = room.bytes[index]? := by
  intro done
  rw [show done = _ from run_eq_of_contents ran]
  refine ⟨rfl, fun index inside => ?_, fun index past => ?_⟩
  · rw [overlay_getElem?, if_pos ⟨inside, Nat.lt_of_lt_of_le inside fits⟩]
  · rw [overlay_getElem?, if_neg (by omega)]

/-! ## One step -/

section Step

variable {values : List Value} {blobs after : BlobTable} {step : Step StandardOperator}
  {schedule : Schedule}

theorem inputBuffer_congr {others : BlobTable} {id : Nat}
    (same : others.get? id = blobs.get? id) :
    inputBuffer values others id = inputBuffer values blobs id := by
  unfold inputBuffer
  rw [same]

theorem inputs_congr {others : BlobTable} {ids : List ValueId}
    (same : ∀ id ∈ ids, others.get? id = blobs.get? id) :
    ids.mapM (inputBuffer values others) = ids.mapM (inputBuffer values blobs) :=
  mapM_congr fun id listed => inputBuffer_congr (same id listed)

theorem lend_eq_ok_iff {node : Node} {output : Nat} {buffer room : Buffer}
    {inputs : List Buffer} :
    lend values blobs node output buffer = .ok (inputs, room) ↔
      ∃ value, values[output]? = some value ∧
        node.inputs.mapM (inputBuffer values blobs) = .ok inputs ∧
        buffer.front value.byteCount = .ok room := by
  unfold lend
  simp only [bind_eq_ok_iff, lift_eq_ok_iff, pure_eq_ok_iff, operand_eq_ok_iff, Prod.mk.injEq]
  constructor
  · rintro ⟨value, found, _, read, _, taken, rfl, rfl⟩
    exact ⟨value, found, read, taken⟩
  · rintro ⟨value, found, read, taken⟩
    exact ⟨value, found, inputs, read, room, taken, rfl, rfl⟩

/-- A successful operation lays the contents over the front of its output. -/
theorem operate_eq_ok_iff {output : Nat} {buffer : Buffer} {bytes : Bytes} :
    operate values blobs schedule step output buffer = (bytes, .ok ()) ↔
      ∃ (value : Value) (inputs : List Buffer) (room : Buffer) (written : Bytes),
        values[output]? = some value ∧
          step.node.inputs.mapM (inputBuffer values blobs) = .ok inputs ∧
          buffer.front value.byteCount = .ok room ∧
          step.operator.contents schedule inputs room = .ok written ∧
          overlay buffer.bytes (overlay room.bytes written) = bytes := by
  unfold operate
  cases lent : lend values blobs step.node output buffer with
  | error fault =>
      simp only [Prod.mk.injEq, reduceCtorEq, and_false, false_iff]
      rintro ⟨value, inputs, room, written, found, read, taken, _⟩
      rw [lend_eq_ok_iff.mpr ⟨value, found, read, taken⟩] at lent
      cases lent
  | ok lending =>
      obtain ⟨inputs, room⟩ := lending
      obtain ⟨value, found, read, taken⟩ := lend_eq_ok_iff.mp lent
      show ((overlay buffer.bytes
          (RunEnd.ofOutcome room (step.operator.contents schedule inputs room)).written,
        (RunEnd.ofOutcome room (step.operator.contents schedule inputs room)).outcome) =
          (bytes, .ok ())) ↔ _
      constructor
      · intro ran
        obtain ⟨written, outcome⟩ := Prod.mk.inj ran
        cases computed : step.operator.contents schedule inputs room with
        | error fault =>
            rw [computed] at outcome
            cases outcome
        | ok contents =>
            rw [computed] at written
            exact ⟨value, inputs, room, contents, found, read, taken, computed, written⟩
      · rintro ⟨other, others, place, contents, foundOther, readOther, takenOther, computed, rfl⟩
        cases found.symm.trans foundOther
        cases read.symm.trans readOther
        cases taken.symm.trans takenOther
        rw [computed]
        rfl

theorem runStep_eq_ok_iff :
    runStep values schedule step blobs = (after, .ok ()) ↔
      ∃ (output : Nat) (blob : Blob) (bytes : Bytes),
        step.node.outputs.head? = some output ∧ blobs.get? output = some blob ∧
          blob.writable = true ∧
          operate values (blobs.erase output) schedule step output blob.buffer =
            (bytes, .ok ()) ∧
          after = (blobs.erase output).insert output
            { blob with buffer := { blob.buffer with bytes := bytes } } := by
  unfold runStep
  cases step.node.outputs.head? with
  | none => simp
  | some output =>
      cases found : blobs.get? output with
      | none => simp [found, Outcome.invalidState]
      | some blob =>
          cases writable : blob.writable with
          | false => simp [found, writable, Outcome.invalidState]
          | true =>
              cases ran : operate values (blobs.erase output) schedule step output blob.buffer with
              | mk bytes outcome =>
                  cases outcome with
                  | error fault => cases fault <;> simp [found, ran, writable]
                  | ok done =>
                      simp only [found, ran, writable, Bool.not_true, Bool.false_eq_true, if_false]
                      constructor
                      · intro same
                        refine ⟨output, blob, bytes, rfl, found, writable, ran, ?_⟩
                        rw [writable]
                        exact (Prod.mk.inj same).1.symm
                      · rintro ⟨other, bound, others, same, foundOther, _, ranOther, rfl⟩
                        cases same
                        cases found.symm.trans foundOther
                        cases ran.symm.trans ranOther
                        rw [writable]

end Step

/-! ## Settled steps -/

/-- A step whose operator fills the whole of its output, which is neither static nor an input. -/
structure Step.Fills (values : List Value) (step : Step StandardOperator) (output : Nat)
    (value : Value) : Prop where
  outputs_eq : step.node.outputs = [output]
  unread : output ∉ step.node.inputs
  found : values[output]? = some value
  notStatic : value.contents = none
  whole : step.operator.elementCount * step.operator.elementWidth = value.byteCount

/-- A step whose output blob holds what its operator computes from the inputs. -/
def Step.Settled (values : List Value) (blobs : BlobTable) (step : Step StandardOperator) : Prop :=
  ∃ (output : Nat) (value : Value) (blob : Blob) (inputs : List Buffer) (room : Buffer)
    (schedule : Schedule),
    step.Fills values output value ∧ blobs.get? output = some blob ∧ blob.writable = true ∧
      step.node.inputs.mapM (inputBuffer values blobs) = .ok inputs ∧
      blob.buffer.front value.byteCount = .ok room ∧
      step.operator.contents schedule inputs room = .ok room.bytes

section Settled

variable {values : List Value} {blobs after : BlobTable} {step : Step StandardOperator}
  {schedule : Schedule} {output : Nat} {value : Value}

/-- A successful run of a step settles it and changes no other blob. -/
theorem runStep_settles (fills : step.Fills values output value)
    (ran : runStep values schedule step blobs = (after, .ok ())) :
    step.Settled values after ∧ ∀ id : Nat, id ≠ output → after.get? id = blobs.get? id := by
  obtain ⟨place, ⟨⟨before, address⟩, permitted⟩, bytes, outputs, bound, writable, operated, rfl⟩ :=
    runStep_eq_ok_iff.mp ran
  rw [fills.outputs_eq, List.head?_cons, Option.some.injEq] at outputs
  subst outputs
  obtain ⟨other, inputs, room, written, found, read, taken, computed, rfl⟩ :=
    operate_eq_ok_iff.mp operated
  cases fills.found.symm.trans found
  obtain ⟨enough, rfl⟩ := Buffer.front_eq_ok_iff.mp taken
  change value.byteCount ≤ before.size at enough
  have size : written.size = value.byteCount :=
    (step.operator.determined.size_eq computed).trans fills.whole
  have roomSize : (before.extract 0 value.byteCount).size = value.byteCount := by
    rw [Array.size_extract]
    exact Nat.min_eq_left enough
  dsimp only
  rw [overlay_whole (size.trans roomSize.symm)]
  have frame : ∀ id : Nat, id ≠ output → ((blobs.erase output).insert output
      ⟨⟨overlay before written, address⟩, permitted⟩).get? id = blobs.get? id := by
    intro id different
    rw [BlobTable.get?_insert, if_neg different, BlobTable.get?_erase, if_neg different]
  refine ⟨⟨output, value, ⟨⟨overlay before written, address⟩, permitted⟩, inputs,
    ⟨written, address⟩, schedule, fills, ?_, writable, ?_, ?_, ?_⟩, frame⟩
  · rw [BlobTable.get?_insert, if_pos rfl]
  · rw [← read]
    apply inputs_congr
    intro id listed
    have different : id ≠ output := by
      rintro rfl
      exact fills.unread listed
    rw [frame id different, BlobTable.get?_erase, if_neg different]
  · refine Buffer.front_eq_ok_iff.mpr ⟨?_, ?_⟩
    · show value.byteCount ≤ (overlay before written).size
      rw [overlay_size]
      exact enough
    · rw [← size, overlay_front (by rw [size]; exact enough)]
  · -- the operator gives the same contents for the room it has filled
    have sameRoom : Buffer.Matches ⟨written, address⟩ ⟨before.extract 0 value.byteCount, address⟩ :=
      ⟨size.trans roomSize.symm, .inl rfl⟩
    exact step.operator.determined.transfer computed
      (List.forall₂_same.mpr fun _ _ => ⟨rfl, .inl rfl⟩) sameRoom schedule

/-- A step stays settled while its blobs stay. -/
theorem Step.Settled.congr (settled : step.Settled values blobs)
    (same : ∀ id ∈ step.node.inputs ++ step.node.outputs, after.get? id = blobs.get? id) :
    step.Settled values after := by
  obtain ⟨output, value, blob, inputs, room, schedule, fills, bound, writable, read, rest⟩ :=
    settled
  refine ⟨output, value, blob, inputs, room, schedule, fills, ?_, writable, ?_, rest⟩
  · rw [same output (by simp [fills.outputs_eq]), bound]
  · rw [inputs_congr fun id listed => same id (List.mem_append_left _ listed), read]

/-- A run of a settled step succeeds, tiled in any order, and changes no blob. -/
theorem Step.Settled.runStep (settled : step.Settled values blobs) (schedule : Schedule) :
    ∃ after, TensorEngine.runStep values schedule step blobs = (after, .ok ()) ∧
      ∀ id : Nat, after.get? id = blobs.get? id := by
  obtain ⟨output, value, blob, inputs, room, earlier, fills, bound, writable, read, taken,
    computed⟩ := settled
  have again := step.operator.determined.transfer computed
    (List.forall₂_same.mpr fun _ _ => ⟨rfl, .inl rfl⟩) ⟨rfl, .inl rfl⟩ schedule
  have readErased : step.node.inputs.mapM (inputBuffer values (blobs.erase output)) =
      .ok inputs := by
    rw [← read]
    apply inputs_congr
    intro id listed
    rw [BlobTable.get?_erase, if_neg]
    rintro rfl
    exact fills.unread listed
  have unchanged : overlay blob.buffer.bytes (overlay room.bytes room.bytes) =
      blob.buffer.bytes := by
    obtain ⟨_, rfl⟩ := Buffer.front_eq_ok_iff.mp taken
    rw [overlay_whole rfl, overlay_extract]
  refine ⟨_, runStep_eq_ok_iff.mpr ⟨output, blob, blob.buffer.bytes, ?_, bound, writable,
    operate_eq_ok_iff.mpr ⟨value, inputs, room, room.bytes, fills.found, readErased, taken, again,
      unchanged⟩, rfl⟩, fun id => ?_⟩
  · rw [fills.outputs_eq, List.head?_cons]
  · rw [BlobTable.get?_insert]
    split
    · rename_i here
      rw [here, bound]
    · rename_i different
      rw [BlobTable.get?_erase, if_neg different]

/-- The equation of a settled step holds. -/
theorem Step.Settled.holds (settled : step.Settled values blobs) :
    step.Holds (currentBytes values blobs) := by
  obtain ⟨output, value, blob, inputs, room, schedule, fills, bound, writable, read, taken,
    computed⟩ := settled
  have roomSize : room.size = step.operator.elementCount * step.operator.elementWidth := by
    obtain ⟨enough, rfl⟩ := Buffer.front_eq_ok_iff.mp taken
    rw [fills.whole]
    unfold Buffer.size
    rw [Array.size_extract]
    exact Nat.min_eq_left enough
  refine ⟨inputs.map (·.bytes), output, room.bytes, ?_, fills.outputs_eq, ?_,
    StandardOperator.kernel_of_contents computed roomSize⟩
  · rw [mapM_eq_ok_iff, List.forall₂_map_right_iff]
    apply (mapM_eq_ok_iff.mp read).imp
    intro id buffer given
    unfold currentBytes
    rw [given]
    rfl
  · unfold currentBytes
    refine map_eq_ok_iff.mpr ⟨room, ?_, rfl⟩
    unfold inputBuffer
    refine bind_eq_ok_iff.mpr ⟨value, operand_eq_ok_iff.mpr fills.found, ?_⟩
    rw [fills.notStatic, bound]
    exact lift_eq_ok_iff.mpr taken

end Settled

/-- The output of an admitted node has elements as wide as those that its compute type gives. -/
theorem Node.Admitted.resultWidth {values : List Value} {node : Node} {operands : List Value}
    {output : Value} (admitted : node.Admitted values operands output) :
    node.compute.resultWidth = output.element.width := by
  by_cases convert : node.kind = .convert
  · obtain ⟨input, rest, rfl⟩ := admitted.exists_operand
    have checked := admitted.elements
    rw [convert] at checked
    have listed := OpKind.mem_conversions (OpKind.checkConversion_eq_ok_iff.mp checked)
    have widths : ∀ pair ∈ ComputeType.conversions, pair.2.2.resultWidth = pair.2.1.width := by
      decide
    exact widths _ listed
  · obtain ⟨_, computed⟩ := admitted.computed convert
    rcases OpKind.ofElement?_eq_some_iff.mp computed with
      ⟨element, compute⟩ | ⟨element, compute⟩ | ⟨element, compute⟩ | ⟨element, compute⟩
    all_goals
      rw [element, compute]
      rfl

theorem operandShapes_output {values : List Value} {node : Node} {inputs : List Shape}
    {output : Shape} (given : operandShapes values node = .ok (inputs, output)) :
    ∃ (id : Nat) (value : Value), node.outputs[0]? = some id ∧ values[id]? = some value ∧
      value.shape = output := by
  obtain ⟨shapes, _, rest⟩ := bind_eq_ok_iff.mp given
  obtain ⟨id, written, rest⟩ := bind_eq_ok_iff.mp rest
  obtain ⟨value, found, same⟩ := bind_eq_ok_iff.mp rest
  cases same
  exact ⟨id, value, operand_eq_ok_iff.mp written, operand_eq_ok_iff.mp found, rfl⟩

theorem operandShapes_input {values : List Value} {node : Node} {inputs : List Shape}
    {output : Shape} (given : operandShapes values node = .ok (inputs, output)) {index id : Nat}
    {value : Value} (read : node.inputs[index]? = some id) (found : values[id]? = some value) :
    inputs[index]? = some value.shape := by
  obtain ⟨shapes, listed, rest⟩ := bind_eq_ok_iff.mp given
  obtain ⟨_, _, rest⟩ := bind_eq_ok_iff.mp rest
  obtain ⟨_, _, same⟩ := bind_eq_ok_iff.mp rest
  cases same
  obtain ⟨shape, there, looked⟩ := getElem?_of_forall₂ (mapM_eq_ok_iff.mp listed) read
  obtain ⟨other, foundOther, rfl⟩ := map_eq_ok_iff.mp looked
  cases found.symm.trans (operand_eq_ok_iff.mp foundOther)
  exact there

/-- An operator that is set up for the current shapes fills its output. -/
theorem Session.Sound.fills {graph : Graph} {settings : Settings}
    {made : Executable StandardOperator} {session : Session} (wellFormed : graph.WellFormed)
    (admitted : graph.Admitted) (compiled : Compiled graph settings made)
    (sound : session.Sound graph made) (bound : session.bound.isSome = true) :
    ∀ step ∈ session.executable.steps,
      ∃ output value, step.Fills session.executable.values output value := by
  intro step listed
  obtain ⟨before, listedBefore, sameNode, inputs, shape, shapes, ready⟩ :=
    exists_of_forall₂_right (sound.ready bound) listed
  have madeFor := operators_of_made compiled.steps before listedBefore
  have listedNode : step.node ∈ graph.nodes := by
    rw [sameNode, ← nodes_of_made compiled.steps]
    exact List.mem_map_of_mem listedBefore
  obtain ⟨oldOperands, oldOutput, admittedNode⟩ := admitted step.node listedNode
  obtain ⟨operands, output, admittedNew⟩ := admittedNode.reshape sound.executes.table
    (sound.executes.follow step.node listedNode)
  obtain ⟨id, outputs, found⟩ := admittedNew.written
  obtain ⟨computed, value, computes⟩ := sound.executes.computes wellFormed listedNode
  cases computes.outputs_eq.symm.trans outputs
  cases computes.found.symm.trans found
  refine ⟨id, output, outputs, computes.unread, found, computes.notStatic, ?_⟩
  have sameShape : shape = output.shape := by
    obtain ⟨place, value, written, foundValue, rfl⟩ := operandShapes_output shapes
    rw [← sameNode, outputs, List.getElem?_cons_zero, Option.some.injEq] at written
    subst written
    cases found.symm.trans foundValue
    rfl
  have width : step.operator.elementWidth = output.element.width := by
    have blank := (before.operator.setup_blank inputs shape).1
    change (Operator.setup before.operator inputs shape).1.blank = _ at blank
    rw [ready, madeFor.blank_eq] at blank
    rw [← step.operator.elementWidth_blank, blank, madeFor.width_eq, ← sameNode]
    exact admittedNew.resultWidth
  rw [StandardOperator.elementCount_setup ready, width, sameShape]
  rfl

/-! ## Runs -/

section Run

variable {settings : Settings} {values : List Value} {schedule : Schedule} {blobs : BlobTable}
  {steps : List (Step StandardOperator)} {trace : List TraceEvent}

/-- A successful run settles every step, and leaves alone what no step computes. -/
theorem runSteps_settles (ordered : Graph.Ordered (steps.map (·.node)))
    (fills : ∀ step ∈ steps, ∃ output value, step.Fills values output value)
    (ran : (runSteps settings values schedule steps blobs trace).outcome = .ok ()) :
    (∀ step ∈ steps,
      step.Settled values (runSteps settings values schedule steps blobs trace).blobs) ∧
      ∀ id : Nat, (∀ step ∈ steps, id ∉ step.node.outputs) →
        (runSteps settings values schedule steps blobs trace).blobs.get? id = blobs.get? id := by
  induction steps generalizing blobs trace with
  | nil => exact ⟨fun _ listed => (nomatch listed), fun _ _ => rfl⟩
  | cons head steps inductionHypothesis =>
      obtain ⟨single, fresh⟩ := ordered
      rw [List.map_cons, List.forall_mem_cons] at single
      rw [List.map_cons, List.pairwise_cons] at fresh
      obtain ⟨⟨output, value, fillsHead⟩, fillsRest⟩ := List.forall_mem_cons.mp fills
      unfold runSteps at ran ⊢
      cases first : runStep values schedule head blobs with
      | mk middle outcome =>
          rw [first] at ran
          cases outcome with
          | error fault => cases ran
          | ok done =>
              obtain ⟨settledHead, frameHead⟩ := runStep_settles fillsHead first
              obtain ⟨settledRest, frameRest⟩ :=
                inductionHypothesis ⟨single.2, fresh.2⟩ fillsRest ran
              refine ⟨List.forall_mem_cons.mpr ⟨settledHead.congr fun id used => ?_, settledRest⟩,
                fun id unwritten => ?_⟩
              · -- no later step computes what the first one uses
                apply frameRest id
                intro step listed written
                have apart := fresh.1 step.node (List.mem_map_of_mem listed) id written
                exact (List.mem_append.mp used).elim apart.1 apart.2
              · obtain ⟨unwrittenHead, unwrittenRest⟩ := List.forall_mem_cons.mp unwritten
                rw [fillsHead.outputs_eq, List.mem_singleton] at unwrittenHead
                exact (frameRest id unwrittenRest).trans (frameHead id unwrittenHead)

/-- A run over settled steps succeeds, tiled in any order, and changes no blob. -/
theorem runSteps_of_settled (settled : ∀ step ∈ steps, step.Settled values blobs) :
    (runSteps settings values schedule steps blobs trace).outcome = .ok () ∧
      ∀ id : Nat,
        (runSteps settings values schedule steps blobs trace).blobs.get? id = blobs.get? id := by
  induction steps generalizing blobs trace with
  | nil => exact ⟨rfl, fun _ => rfl⟩
  | cons head steps inductionHypothesis =>
      obtain ⟨settledHead, settledRest⟩ := List.forall_mem_cons.mp settled
      obtain ⟨middle, ranHead, same⟩ := settledHead.runStep schedule
      unfold runSteps
      rw [ranHead]
      obtain ⟨succeeded, sameRest⟩ := @inductionHypothesis middle
        (settings.record trace (.ofNode .execute head.node true))
        fun step listed => (settledRest step listed).congr fun id _ => same id
      exact ⟨succeeded, fun id => (sameRest id).trans (same id)⟩

end Run

/-! ## Steps that agree -/

/-- Steps with the same node, whose operators compute contents that agree, each in an order of its
tiles. -/
structure Step.Agrees (schedule other : Schedule) (step twin : Step StandardOperator) : Prop where
  node_eq : twin.node = step.node
  contents : ∀ inputs room, (step.operator.contents schedule inputs room).Agrees
    (twin.operator.contents other inputs room)

/-- A step agrees with itself in any orders of its tiles. -/
theorem Step.agrees_self (schedule other : Schedule) (step : Step StandardOperator) :
    Step.Agrees schedule other step step :=
  ⟨rfl, fun inputs room => step.operator.determined.agrees schedule other inputs room⟩

section Agree

variable {values : List Value} {schedule other : Schedule} {blobs : BlobTable}

/-- Operations of steps that agree write the same bytes, and their outcomes agree. -/
theorem operate_agrees {step twin : Step StandardOperator}
    (agree : Step.Agrees schedule other step twin) (output : Nat) (buffer : Buffer) :
    (operate values blobs schedule step output buffer).1 =
        (operate values blobs other twin output buffer).1 ∧
      (operate values blobs schedule step output buffer).2.Agrees
        (operate values blobs other twin output buffer).2 := by
  unfold operate
  rw [agree.node_eq]
  cases lend values blobs step.node output buffer with
  | error fault => exact ⟨rfl, .refl _⟩
  | ok lending =>
      obtain ⟨inputs, room⟩ := lending
      obtain ⟨written, outcome⟩ := RunEnd.ofOutcome_agrees (agree.contents inputs room) room
      exact ⟨congrArg (overlay buffer.bytes) written, outcome⟩

/-- Runs of steps that agree leave the same blobs, and their outcomes agree. -/
theorem runStep_agrees {step twin : Step StandardOperator}
    (agree : Step.Agrees schedule other step twin) :
    (runStep values schedule step blobs).1 = (runStep values other twin blobs).1 ∧
      (runStep values schedule step blobs).2.Agrees (runStep values other twin blobs).2 := by
  unfold runStep
  rw [agree.node_eq]
  cases step.node.outputs.head? with
  | none => exact ⟨rfl, .refl _⟩
  | some output =>
      cases found : blobs.get? output with
      | none =>
          simp only [found]
          exact ⟨trivial, .refl _⟩
      | some blob =>
          simp only [found]
          split
          · exact ⟨rfl, .refl _⟩
          · obtain ⟨sameBytes, outcomes⟩ :=
              @operate_agrees values schedule other (blobs.erase output) step twin agree output
                blob.buffer
            revert sameBytes outcomes
            generalize operate values (blobs.erase output) schedule step output blob.buffer = first
            generalize operate values (blobs.erase output) other twin output blob.buffer = second
            obtain ⟨bytes, outcome⟩ := first
            obtain ⟨others, another⟩ := second
            rintro rfl (same | ⟨breach, last, first, second⟩)
            · cases same
              exact ⟨rfl, .refl _⟩
            · cases first
              cases second
              exact ⟨rfl, .inr ⟨breach, last, rfl, rfl⟩⟩

/-- Runs over steps that agree leave the same blobs, and their outcomes agree. -/
theorem runSteps_agrees {settings others : Settings} {steps twins : List (Step StandardOperator)}
    (pairs : List.Forall₂ (Step.Agrees schedule other) steps twins)
    (trace another : List TraceEvent) :
    (runSteps settings values schedule steps blobs trace).blobs =
        (runSteps others values other twins blobs another).blobs ∧
      (runSteps settings values schedule steps blobs trace).outcome.Agrees
        (runSteps others values other twins blobs another).outcome := by
  induction pairs generalizing blobs trace another with
  | nil => exact ⟨rfl, .refl _⟩
  | @cons step twin _ _ agree _ inductionHypothesis =>
      obtain ⟨sameBlobs, outcomes⟩ := @runStep_agrees values schedule other blobs step twin agree
      unfold runSteps
      revert sameBlobs outcomes
      generalize runStep values schedule step blobs = first
      generalize runStep values other twin blobs = second
      obtain ⟨left, outcome⟩ := first
      obtain ⟨right, reason⟩ := second
      rintro rfl (same | ⟨breach, last, first, second⟩)
      · cases same
        cases outcome with
        | error fault => exact ⟨rfl, .refl _⟩
        | ok done => exact inductionHypothesis _ _
      · cases first
        cases second
        exact ⟨rfl, .inr ⟨breach, last, rfl, rfl⟩⟩

end Agree

/-- The parts of a successful run. -/
theorem Bound.run_eq_ok_iff {binding after : Bound StandardOperator} {schedule : Schedule} :
    (binding.run schedule).result = (after, .ok ()) ↔
      binding.executable.state ≠ .failed ∧
        let report := runSteps binding.executable.settings binding.executable.values schedule
          binding.executable.steps binding.blobs binding.executable.trace
        report.outcome = .ok () ∧
          after = ⟨{ binding.executable with trace := report.trace, state := .bound },
            report.blobs⟩ := by
  unfold Bound.run
  by_cases failed : binding.executable.state = .failed
  · simp [failed, Outcome.invalidState]
  · dsimp only
    rw [if_neg failed]
    simp only [Prod.mk.injEq, ne_eq, failed, not_false_eq_true, true_and]
    constructor
    · rintro ⟨same, succeeded⟩
      rw [succeeded] at same
      exact ⟨succeeded, same.symm⟩
    · rintro ⟨succeeded, rfl⟩
      rw [succeeded]
      exact ⟨rfl, rfl⟩

theorem exists_ran {binding : Bound StandardOperator} {schedule : Schedule}
    (succeeds : (binding.run schedule).result.2.isOk = true) :
    ∃ after, (binding.run schedule).result = (after, .ok ()) := by
  cases ran : (binding.run schedule).result with
  | mk after outcome =>
      cases outcome with
      | error fault =>
          rw [ran] at succeeds
          cases succeeds
      | ok done => exact ⟨after, rfl⟩

theorem currentBytes_static {values : List Value} {blobs : BlobTable} {id : Nat} {value : Value}
    {bytes : Bytes} (found : values[id]? = some value) (static : value.contents = some bytes)
    (filled : bytes.size = value.byteCount) : currentBytes values blobs id = .ok bytes := by
  refine map_eq_ok_iff.mpr ⟨Buffer.fresh bytes, ?_, rfl⟩
  unfold inputBuffer
  refine bind_eq_ok_iff.mpr ⟨value, operand_eq_ok_iff.mpr found, ?_⟩
  rw [static]
  refine lift_eq_ok_iff.mpr (Buffer.front_eq_ok_iff.mpr ⟨Nat.le_of_eq filled.symm, ?_⟩)
  unfold Buffer.fresh
  rw [← filled, Array.extract_size]

/-- The contents of a static value fill its shape, also after reshapes. -/
theorem ReshapedTable.filled {graph : Graph} {values : List Value} (wellFormed : graph.WellFormed)
    (table : ReshapedTable graph.values values) {id : Nat} {value : Value} {bytes : Bytes}
    (found : values[id]? = some value) (static : value.contents = some bytes) :
    bytes.size = value.byteCount := by
  obtain ⟨old, foundOld, reshaped⟩ := table.exists_old found
  have sameContents : old.contents = some bytes := by
    have same := congrArg Value.contents reshaped.same
    rw [← same]
    exact static
  have sameShape : value.shape = old.shape := by
    refine reshaped.fixed (.inl ?_)
    unfold Value.isStatic
    rw [sameContents]
    rfl
  have sameElement : value.element = old.element := by
    have same := congrArg Value.element reshaped.same
    exact same
  have described : old.isDense = true := by
    cases dense : old.isDense with
    | true => rfl
    | false =>
        rw [(wellFormed.placeholder foundOld dense).1] at sameContents
        cases sameContents
  unfold Value.byteCount
  rw [sameShape, sameElement]
  exact (wellFormed.sound foundOld described).filled bytes sameContents

/-- A successful run leaves in the blobs the one solution of the equations of all nodes.

The graph has been built by any calls and compiled with a standard catalog, and any calls have been
made since, up to a set-up. The blobs hold anything. Then every node is given by its equation at
the end; static values are read as their contents; blobs that no node computes have not changed;
every other run from the same bytes of those ends with the same bytes of all outputs; and another
run changes no blob at all. No part depends on the order of the tiles. -/
theorem run_computes_dataflow (features : Features) (count : Nat) (calls : List BuildCall)
    (settings : Settings) (workshop : Workshop) (executable : Executable StandardOperator)
    (closed : Graph)
    (compiled : (compile (Catalog.standard features)
      ((Graph.withExternalValues count).afterCalls calls) settings workshop).1 =
        .ok (executable, closed))
    (history : List SessionCall) (session : Session)
    (reached : (Session.start executable).afterCalls history = session)
    (bound : session.bound.isSome = true) (blobs : BlobTable) (schedule : Schedule)
    (after : Bound StandardOperator)
    (ran : ((⟨session.executable, blobs⟩ : Bound StandardOperator).run schedule).result =
      (after, .ok ())) :
    let values := session.executable.values
    let steps := session.executable.steps
    steps.map (·.node) = ((Graph.withExternalValues count).afterCalls calls).nodes ∧
    (∀ step ∈ steps, step.Holds (currentBytes values after.blobs)) ∧
    (∀ (id : Nat) (value : Value) (bytes : Bytes), values[id]? = some value →
      value.contents = some bytes → currentBytes values after.blobs id = .ok bytes) ∧
    (∀ id : Nat, (∀ step ∈ steps, id ∉ step.node.outputs) →
      after.blobs.get? id = blobs.get? id) ∧
    (∀ (others : BlobTable) (otherSchedule : Schedule) (otherAfter : Bound StandardOperator),
      ((⟨session.executable, others⟩ : Bound StandardOperator).run otherSchedule).result =
        (otherAfter, .ok ()) →
      (∀ step ∈ steps, ∀ id ∈ step.node.inputs, (∀ other ∈ steps, id ∉ other.node.outputs) →
        currentBytes values others id = currentBytes values blobs id) →
      ∀ step ∈ steps, ∀ id ∈ step.node.outputs,
        currentBytes values otherAfter.blobs id = currentBytes values after.blobs id) ∧
    (∀ again : Schedule, ∃ last, (after.run again).result = (last, .ok ()) ∧
      ∀ id : Nat, last.blobs.get? id = after.blobs.get? id) := by
  intro values steps
  have wellFormed := Graph.wellFormed_afterCalls count calls
  have admitted := Graph.admitted_afterCalls count calls
  obtain ⟨made, rfl⟩ := (compile_ends features _ settings).of_ok (Prod.ext compiled rfl)
  have blank := fun step listed => (operators_of_made made.steps step listed).blank_eq
  have sound := (made.sound admitted).afterCalls wellFormed blank history
  rw [reached] at sound
  have fills := sound.fills wellFormed admitted made bound
  have ordered : Graph.Ordered (steps.map (·.node)) := by
    rw [sound.executes.nodes_eq]
    exact wellFormed.ordered
  -- every successful run settles all steps
  have settles : ∀ {blobs : BlobTable} {schedule : Schedule} {after : Bound StandardOperator},
      ((⟨session.executable, blobs⟩ : Bound StandardOperator).run schedule).result =
        (after, .ok ()) →
      (∀ step ∈ steps, step.Settled values after.blobs) ∧
        ∀ id : Nat, (∀ step ∈ steps, id ∉ step.node.outputs) →
          after.blobs.get? id = blobs.get? id := by
    intro blobs schedule after ran
    obtain ⟨_, succeeded, rfl⟩ := Bound.run_eq_ok_iff.mp ran
    exact runSteps_settles ordered fills succeeded
  obtain ⟨settled, frame⟩ := settles ran
  refine ⟨sound.executes.nodes_eq, fun step listed => (settled step listed).holds, ?_, frame, ?_,
    ?_⟩
  · intro id value bytes found static
    exact currentBytes_static found static (sound.executes.table.filled wellFormed found static)
  · intro others otherSchedule otherAfter ranOther agree
    obtain ⟨settledOther, frameOther⟩ := settles ranOther
    refine holds_unique ordered (fun step listed => (settledOther step listed).holds)
      (fun step listed => (settled step listed).holds) ?_
    intro step listed id read unwritten
    have same := agree step listed id read unwritten
    unfold currentBytes at same ⊢
    rw [inputBuffer_congr (frameOther id unwritten), inputBuffer_congr (frame id unwritten), same]
  · intro again
    obtain ⟨_, _, rfl⟩ := Bound.run_eq_ok_iff.mp ran
    obtain ⟨succeeded, same⟩ := @runSteps_of_settled session.executable.settings values again _
      steps _ settled
    exact ⟨_, Bound.run_eq_ok_iff.mpr ⟨by simp, succeeded, rfl⟩, same⟩

/-- A graph of two nodes, each of which reads the output of the one before. -/
def chainedGraph : List BuildCall :=
  [.tensor ⟨.float32, [1], none, some 0, .externalInput⟩,
    .tensor ⟨.float32, [1], none, none, .none⟩,
    .tensor ⟨.float32, [1], none, some 1, .externalOutput⟩,
    .node .abs [0] [2] .none 0,
    .node .negate [2] [1] .none 0]

def chainedExecutable : Executable StandardOperator where
  values := ((Graph.withExternalValues 2).afterCalls chainedGraph).values
  steps := [⟨⟨0, .abs, .fp32, [0], [2], .none, 0⟩, .mapping ⟨.abs, .single .abs, 1, 4096, 0⟩⟩,
    ⟨⟨1, .negate, .fp32, [2], [1], .none, 0⟩, .mapping ⟨.negate, .single .negate, 1, 4096, 0⟩⟩]
  state := .compiled
  settings := {}
  sharesPacked := false
  sharesTables := false
  trace := []

/-- Blobs for the chained graph with two elements, of which the input holds these bytes. -/
def chainedBlobs (input : Bytes) : BlobTable :=
  [(0, input), (1, Array.replicate 8 0), (2, Array.replicate 8 0)].foldl
    (fun table entry => table.insert entry.1 ⟨Buffer.fresh entry.2, true⟩) .empty

/-- The theorem applies to the chained graph after a reshape to two elements and a set-up. -/
theorem run_computes_dataflow_chained :
    ∃ (session : Session) (after : Bound StandardOperator),
      ((⟨session.executable, chainedBlobs #[0, 0, 128, 191, 0, 0, 0, 64]⟩ :
        Bound StandardOperator).run .backwards).result = (after, .ok ()) ∧
      ∀ step ∈ session.executable.steps,
        step.Holds (currentBytes session.executable.values after.blobs) := by
  have compiled : (compile (Catalog.standard .portable)
      ((Graph.withExternalValues 2).afterCalls chainedGraph) {} {}).1 =
        .ok (chainedExecutable, ((Graph.withExternalValues 2).afterCalls chainedGraph).closed) := by
    cbv
  let session := (Session.start chainedExecutable).afterCalls
    [.reshape 0 [2], .setup (chainedBlobs (Array.replicate 8 0))]
  have bound : session.bound.isSome = true := by decide +kernel
  obtain ⟨after, ran⟩ : ∃ after,
      ((⟨session.executable, chainedBlobs #[0, 0, 128, 191, 0, 0, 0, 64]⟩ :
        Bound StandardOperator).run .backwards).result = (after, .ok ()) :=
    exists_ran (by decide +kernel)
  have computes := run_computes_dataflow .portable 2 chainedGraph {} {} chainedExecutable _ compiled
    _ session rfl bound _ .backwards after ran
  exact ⟨session, after, ran, computes.2.1⟩

end TensorEngine
