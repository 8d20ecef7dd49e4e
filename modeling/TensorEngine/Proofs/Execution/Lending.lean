import TensorEngine.Proofs.Execution.Binding
import TensorEngine.Proofs.Execution.Dataflow
import TensorEngine.Proofs.Kernel.Delivery

/-!
Contract: a run on blobs that values fit in ends without a breach.

Owns:
- `BlobTable.SameRooms`, tables whose blobs differ in their contents only;
- `Lendable`, a value whose bytes are there, and the buffers that are lent to operators;
- `Step.Capable`, a step whose operator works on buffers of the right sizes, and the run of one
  such step and of a series of them.

Does not own: which steps are capable.
-/

namespace TensorEngine

/-! ## Rooms -/

/-- What a blob can hold: its size, its address and whether it may be written. -/
def Blob.room (blob : Blob) : Nat × Nat × Bool :=
  (blob.buffer.size, blob.buffer.address, blob.writable)

namespace BlobTable

/-- Tables that bind blobs of the same rooms. Their contents may differ. -/
def SameRooms (table other : BlobTable) : Prop :=
  ∀ id : Nat, (table.get? id).map Blob.room = (other.get? id).map Blob.room

theorem SameRooms.refl (table : BlobTable) : table.SameRooms table := fun _ => rfl

theorem SameRooms.symm {table other : BlobTable} (same : table.SameRooms other) :
    other.SameRooms table := fun id => (same id).symm

theorem SameRooms.trans {first second third : BlobTable} (early : first.SameRooms second)
    (late : second.SameRooms third) : first.SameRooms third :=
  fun id => (early id).trans (late id)

/-- New contents of the same size for a blob. -/
theorem SameRooms.insert {table other : BlobTable} {id : Nat} {blob changed : Blob}
    (bound : table.get? id = some blob) (same : changed.room = blob.room)
    (frame : ∀ place : Nat, place ≠ id → other.get? place = table.get? place) :
    (other.insert id changed).SameRooms table := by
  intro place
  rw [get?_insert]
  by_cases here : place = id
  · rw [if_pos here, here, bound, Option.map_some, Option.map_some, same]
  · rw [if_neg here, frame place here]

end BlobTable

section Rooms

variable {value : Value} {bound other : Option Blob}

/-- A blob that has to hold nothing of a value that is not part of the graph is aligned all the
same. -/
def Value.Placed (value : Value) (bound : Option Blob) : Prop :=
  value.isStatic = false → value.byteCount = 0 → ∀ blob, bound = some blob →
    blob.buffer.address % value.element.width = 0

/-- A blob that a value fits in is aligned for all of its elements, also if there are none. -/
theorem Value.FitsIn.placed {blob : Blob} (fits : value.FitsIn blob)
    (placed : value.Placed (some blob)) (dynamic : value.isStatic = false) :
    blob.buffer.address % value.element.width = 0 := by
  rcases Nat.eq_zero_or_pos value.byteCount with empty | filled
  · exact placed dynamic empty blob rfl
  · exact fits.aligned filled

theorem exists_of_sameRoom (same : other.map Blob.room = bound.map Blob.room) {blob : Blob}
    (given : bound = some blob) : ∃ changed, other = some changed ∧ changed.room = blob.room := by
  rw [given, Option.map_some, Option.map_eq_some_iff] at same
  exact same

/-- Whether a value fits in a blob depends on its room only. -/
theorem Value.BoundTo.congr (same : other.map Blob.room = bound.map Blob.room)
    (given : value.BoundTo bound) : value.BoundTo other := by
  refine given.imp (fun static => static) fun ⟨blob, given, fits⟩ => ?_
  obtain ⟨changed, found, room⟩ := exists_of_sameRoom same given
  simp only [Blob.room, Prod.mk.injEq] at room
  obtain ⟨size, address, writable⟩ := room
  refine ⟨changed, found, ?_, ?_, ?_⟩
  · rw [writable]
    exact fits.writable
  · rw [size]
    exact fits.room
  · rw [address]
    exact fits.aligned

theorem Value.Placed.congr (same : other.map Blob.room = bound.map Blob.room)
    (placed : value.Placed bound) : value.Placed other := by
  intro dynamic empty changed found
  obtain ⟨blob, given, room⟩ := exists_of_sameRoom same.symm found
  simp only [Blob.room, Prod.mk.injEq] at room
  rw [← room.2.1]
  exact placed dynamic empty blob given

end Rooms

/-! ## Lent buffers -/

/-- A value of a table that is part of the graph, or bound to a blob that it fits in; if `aligned`,
the blob is aligned also where there is nothing to hold. -/
def Lendable (aligned : Prop) (values : List Value) (blobs : BlobTable) (id : ValueId) : Prop :=
  ∃ value, values[id]? = some value ∧ value.BoundTo (blobs.get? id) ∧
    (aligned → value.Placed (blobs.get? id))

def LentFor (aligned : Prop) (values : List Value) (id : ValueId) (buffer : Buffer) : Prop :=
  ∃ value, values[id]? = some value ∧
    buffer.Lends aligned value.element.width value.shape.elementCount

/-- Static values of a table hold the bytes of their shapes. -/
def ContentsFilled (values : List Value) : Prop :=
  ∀ (id : Nat) (value : Value) (bytes : Bytes), values[id]? = some value →
    value.contents = some bytes → bytes.size = value.byteCount

section Lending

variable {aligned : Prop} {values : List Value} {blobs others : BlobTable} {id : Nat}

theorem Lendable.congr (same : (others.get? id).map Blob.room = (blobs.get? id).map Blob.room)
    (lendable : Lendable aligned values blobs id) : Lendable aligned values others id := by
  obtain ⟨value, found, bound, placed⟩ := lendable
  exact ⟨value, found, bound.congr same, fun given => (placed given).congr same⟩

/-- The front of a large enough buffer holds the elements of a value. -/
theorem exists_front {value : Value} {buffer : Buffer} (room : value.byteCount ≤ buffer.size)
    (placed : aligned → buffer.address % value.element.width = 0) :
    ∃ part, buffer.front value.byteCount = .ok part ∧
      part.Lends aligned value.element.width value.shape.elementCount := by
  refine ⟨_, Buffer.front_eq_ok_iff.mpr ⟨room, rfl⟩, ?_, placed⟩
  show (buffer.bytes.extract 0 value.byteCount).size = value.byteCount
  rw [Array.size_extract]
  exact Nat.min_eq_left room

theorem Lendable.exists_inputBuffer (lendable : Lendable aligned values blobs id)
    (filled : ContentsFilled values) :
    ∃ buffer, inputBuffer values blobs id = .ok buffer ∧ LentFor aligned values id buffer := by
  obtain ⟨value, found, bound, placed⟩ := lendable
  have looked := operand_eq_ok_iff.mpr found
  cases contents : value.contents with
  | some bytes =>
      have whole := filled id value bytes found contents
      obtain ⟨part, taken, lends⟩ := @exists_front aligned value (Buffer.fresh bytes)
        (Nat.le_of_eq whole.symm) (fun _ => Nat.zero_mod _)
      refine ⟨part, ?_, value, found, lends⟩
      unfold inputBuffer
      rw [looked]
      simp only [bind, Except.bind, contents]
      exact lift_eq_ok_iff.mpr taken
  | none =>
      have dynamic : value.isStatic = false := by
        unfold Value.isStatic
        rw [contents]
        rfl
      rcases bound with static | ⟨blob, given, fits⟩
      · rw [dynamic] at static
        cases static
      · rw [given] at placed
        obtain ⟨part, taken, lends⟩ := exists_front fits.room
          (fun isAligned => fits.placed (placed isAligned) dynamic)
        refine ⟨part, ?_, value, found, lends⟩
        unfold inputBuffer
        rw [looked]
        simp only [bind, Except.bind, contents, given]
        exact lift_eq_ok_iff.mpr taken

theorem exists_inputs {ids : List ValueId} (filled : ContentsFilled values)
    (lendable : ∀ id ∈ ids, Lendable aligned values blobs id) :
    ∃ buffers, ids.mapM (inputBuffer values blobs) = .ok buffers ∧
      List.Forall₂ (LentFor aligned values) ids buffers := by
  induction ids with
  | nil => exact ⟨[], rfl, .nil⟩
  | cons id ids inductionHypothesis =>
      rw [List.forall_mem_cons] at lendable
      obtain ⟨buffer, read, lent⟩ := lendable.1.exists_inputBuffer filled
      obtain ⟨buffers, readRest, lentRest⟩ := inductionHypothesis lendable.2
      refine ⟨buffer :: buffers, ?_, .cons lent lentRest⟩
      rw [mapM_eq_ok_iff] at readRest ⊢
      exact .cons read readRest

end Lending

/-! ## Runs -/

/-- A step whose operator fills an output that it may write, and that works on all buffers which
hold its operands. -/
structure Step.Capable (values : List Value) (step : Step StandardOperator) (output : Nat)
    (value : Value) : Prop where
  fills : step.Fills values output value
  computed : value.producer.isSome = true
  delivers : ∀ (aligned : Prop) (schedule : Schedule) (inputs : List Buffer) (room : Buffer),
    List.Forall₂ (LentFor aligned values) step.node.inputs inputs →
      room.Lends aligned value.element.width value.shape.elementCount →
        (step.operator.contents schedule inputs room).UnlessMisaligned aligned

section Runs

variable {aligned : Prop} {values : List Value} {blobs : BlobTable}
  {step : Step StandardOperator}

theorem RunEnd.ofOutcome_failsOnly {fails : Fault → Prop} (room : Buffer)
    {contents : Outcome Bytes} (ended : contents.FailsOnly fails) :
    (RunEnd.ofOutcome room contents).outcome.FailsOnly fails := by
  intro fault failed
  cases contents with
  | ok written => cases failed
  | error cause =>
      cases failed
      exact ended fault rfl

/-- An operation never changes the size of its output. -/
theorem operate_size (schedule : Schedule) (output : Nat) (buffer : Buffer) :
    (operate values blobs schedule step output buffer).1.size = buffer.bytes.size := by
  unfold operate
  split
  · rfl
  · exact overlay_size _ _

/-- A run of a capable step on operands that can be lent fails for want of alignment only, and
leaves all rooms as they are. -/
theorem Step.Capable.runStep {output : Nat} {value : Value}
    (capable : step.Capable values output value) (filled : ContentsFilled values)
    (lendable : ∀ id ∈ step.node.inputs ++ step.node.outputs, Lendable aligned values blobs id)
    (schedule : Schedule) :
    (runStep values schedule step blobs).2.UnlessMisaligned aligned ∧
      (runStep values schedule step blobs).1.SameRooms blobs := by
  have fills := capable.fills
  obtain ⟨other, found, bound, placed⟩ := lendable output (by simp [fills.outputs_eq])
  cases fills.found.symm.trans found
  have dynamic : value.isStatic = false := by
    unfold Value.isStatic
    rw [fills.notStatic]
    rfl
  rw [Value.BoundTo, or_iff_right (by rw [dynamic]; decide)] at bound
  obtain ⟨blob, bound, fits⟩ := bound
  have writable := fits.writable capable.computed
  have frame : ∀ place : Nat, place ≠ output →
      (blobs.erase output).get? place = blobs.get? place := by
    intro place different
    rw [BlobTable.get?_erase, if_neg different]
  obtain ⟨inputs, read, lent⟩ := exists_inputs filled fun id listed =>
    lendable id (List.mem_append_left _ listed)
  have lentOthers := (inputs_congr fun id listed => frame id fun same =>
    fills.unread (same ▸ listed)).trans read
  rw [bound] at placed
  obtain ⟨room, taken, lends⟩ := exists_front fits.room
    (fun isAligned => fits.placed (placed isAligned) dynamic)
  have fails :=
    RunEnd.ofOutcome_failsOnly room (capable.delivers aligned schedule inputs room lent lends)
  have outcome : (operate values (blobs.erase output) schedule step output blob.buffer).2 =
      (RunEnd.ofOutcome room (step.operator.contents schedule inputs room)).outcome := by
    unfold operate
    rw [lend_eq_ok_iff.mpr ⟨value, found, lentOthers, taken⟩]
    rfl
  have size := @operate_size values (blobs.erase output) step schedule output blob.buffer
  unfold TensorEngine.runStep
  rw [fills.outputs_eq, List.head?_cons]
  simp only [bound, writable, Bool.not_true, Bool.false_eq_true, if_false]
  cases ran : operate values (blobs.erase output) schedule step output blob.buffer with
  | mk bytes result =>
      rw [ran] at outcome size
      dsimp only at outcome size ⊢
      have rooms : ((blobs.erase output).insert output
          ⟨⟨bytes, blob.buffer.address⟩, true⟩).SameRooms blobs := by
        refine .insert bound ?_ frame
        simp only [Blob.room, Buffer.size, size, writable]
      rw [← outcome] at fails
      cases result with
      | ok done => exact ⟨.pure (), rooms⟩
      | error fault =>
          obtain ⟨rfl, _⟩ := fails fault rfl
          exact ⟨fails, rooms⟩

/-- A run of capable steps on operands that can be lent fails for want of alignment only, and
leaves all rooms as they are. -/
theorem runSteps_delivers {settings : Settings} {steps : List (Step StandardOperator)}
    (capable : ∀ step ∈ steps, ∃ output value, step.Capable values output value)
    (filled : ContentsFilled values)
    (lendable : ∀ step ∈ steps, ∀ id ∈ step.node.inputs ++ step.node.outputs,
      Lendable aligned values blobs id)
    (schedule : Schedule) (trace : List TraceEvent) :
    (runSteps settings values schedule steps blobs trace).outcome.UnlessMisaligned aligned ∧
      (runSteps settings values schedule steps blobs trace).blobs.SameRooms blobs := by
  induction steps generalizing blobs trace with
  | nil => exact ⟨.pure (), .refl blobs⟩
  | cons step steps inductionHypothesis =>
      rw [List.forall_mem_cons] at capable lendable
      obtain ⟨output, value, able⟩ := capable.1
      obtain ⟨ended, rooms⟩ := able.runStep filled lendable.1 schedule
      unfold runSteps
      cases ran : TensorEngine.runStep values schedule step blobs with
      | mk after outcome =>
          rw [ran] at ended rooms
          cases outcome with
          | error fault => exact ⟨ended, rooms⟩
          | ok done =>
              obtain ⟨endedRest, roomsRest⟩ := @inductionHypothesis after capable.2
                (fun later listed id used => (lendable.2 later listed id used).congr (rooms id))
                (settings.record trace (TraceEvent.ofNode .execute step.node true))
              exact ⟨endedRest, roomsRest.trans rooms⟩

end Runs

end TensorEngine
